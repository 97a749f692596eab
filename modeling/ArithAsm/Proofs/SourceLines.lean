import ArithAsm.Proofs.Positions
import Mathlib.Algebra.GroupWithZero.Nat

/-! Lines and columns name the offsets of a source. The location of an offset is on one of the
lines between the newlines, or right behind the last byte of it; the lengths of the lines above
give the offset back; and every such place is the location of one offset and no more. -/
namespace ArithAsm

/-- The lines of a source: what stands before, between and behind its newlines. -/
def sourceLines (source : Bytes) : List Bytes :=
  source.splitOn Byte.newline

/-! ## Line by line -/

section
variable {line : Bytes} (unbroken : Byte.newline ∉ line) (rest : Bytes)
include unbroken

theorem sourceLines_single : sourceLines line = [line] :=
  List.splitOn_eq_singleton unbroken

theorem sourceLines_append : sourceLines (line ++ Byte.newline :: rest) = line :: sourceLines rest :=
  List.splitOn_append_cons_self_of_not_mem unbroken rest

/-- Within its first line a source is one column further on with every byte. -/
theorem Location.of_first {offset : Nat} (within : offset ≤ line.length) :
    of (line ++ rest) offset = ⟨1, offset + 1⟩ := by
  have clean : Byte.newline ∉ line.take offset := fun member => unbroken (List.mem_of_mem_take member)
  have plain : ∀ byte ∈ (line.take offset).reverse, (byte != Byte.newline) = true := by
    intro byte member
    have other : byte ≠ Byte.newline := fun same => clean (same ▸ List.mem_reverse.mp member)
    simp [other]
  rw [of_append within, of_eq, List.count_eq_zero.mpr clean,
    List.takeWhile_eq_self_iff.mpr plain, List.length_reverse, List.length_take, Nat.min_eq_left within]

/-- Below its first line a source has the columns that the other lines have by themselves. -/
theorem Location.of_below (offset : Nat) :
    of (line ++ Byte.newline :: rest) (line.length + 1 + offset) =
      ⟨(of rest offset).line + 1, (of rest offset).column⟩ := by
  have passed : (line ++ Byte.newline :: rest).take (line.length + 1 + offset) =
      line ++ Byte.newline :: rest.take offset := by
    rw [Nat.add_assoc, List.take_length_add_append, Nat.add_comm 1, List.take_succ_cons]
  have stopped : ((rest.take offset).reverse ++ Byte.newline :: line.reverse).takeWhile
      (· != Byte.newline) = (rest.take offset).reverse.takeWhile (· != Byte.newline) := by
    rw [List.takeWhile_append]
    split
    · rename_i whole
      simp [(List.takeWhile_sublist _).eq_of_length whole]
    · rfl
  rw [of_eq, passed, List.count_append, List.count_eq_zero.mpr unbroken, List.count_cons_self,
    List.reverse_append, List.reverse_cons, List.append_assoc, List.singleton_append, stopped,
    Nat.zero_add, of_eq]

end

/-- A source is a line, or a line with a newline and more of a source behind it. -/
@[elab_as_elim]
theorem line_induction {motive : Bytes → Prop}
    (last : ∀ line, Byte.newline ∉ line → motive line)
    (more : ∀ line rest, Byte.newline ∉ line → motive rest → motive (line ++ Byte.newline :: rest))
    (source : Bytes) : motive source := by
  induction size : source.length using Nat.strong_induction_on generalizing source with
  | h size ih =>
    by_cases broken : Byte.newline ∈ source
    · obtain ⟨line, rest, rfl, unbroken⟩ := List.eq_append_cons_of_mem broken
      refine more line rest unbroken (ih rest.length ?_ rest rfl)
      rw [← size, List.length_append, List.length_cons]
      omega
    · exact last source broken

namespace Location

/-- How many bytes stand in front of the location: the lines above with their newlines, and the
columns before it. -/
def offsetIn (location : Location) (source : Bytes) : Nat :=
  (((sourceLines source).take (location.line - 1)).map List.length).sum + (location.line - 1) +
    (location.column - 1)

/-- The location is on a line of the source, and at most right behind the last byte of that line. -/
structure InText (location : Location) (source : Bytes) : Prop where
  line_pos : 1 ≤ location.line
  column_pos : 1 ≤ location.column
  column_le : ∃ line, (sourceLines source)[location.line - 1]? = some line ∧
    location.column ≤ line.length + 1

variable {line rest source : Bytes} {row column : Nat}

theorem offsetIn_first (source : Bytes) : offsetIn ⟨1, column + 1⟩ source = column := by
  simp [offsetIn]

theorem offsetIn_below (unbroken : Byte.newline ∉ line) :
    offsetIn ⟨row + 2, column⟩ (line ++ Byte.newline :: rest) =
      line.length + 1 + offsetIn ⟨row + 1, column⟩ rest := by
  simp only [offsetIn, sourceLines_append unbroken, Nat.add_sub_cancel,
    show row + 2 - 1 = row + 1 from rfl, List.take_succ_cons, List.map_cons, List.sum_cons]
  omega

theorem inText_below_iff (unbroken : Byte.newline ∉ line) :
    InText ⟨row + 2, column⟩ (line ++ Byte.newline :: rest) ↔ InText ⟨row + 1, column⟩ rest := by
  have lines := sourceLines_append unbroken rest
  constructor
  · rintro ⟨-, positive, within⟩
    exact ⟨Nat.succ_pos row, positive, by simpa [lines] using within⟩
  · rintro ⟨-, positive, within⟩
    exact ⟨Nat.succ_pos (row + 1), positive, by simpa [lines] using within⟩

/-- The location of an offset is in the text and gives the offset back. -/
theorem inText_of (source : Bytes) (offset : Nat) : (of source offset).InText source ∧
    (of source offset).offsetIn source = min offset source.length := by
  induction source using line_induction generalizing offset with
  | last line unbroken =>
    have clamped : of line offset = ⟨1, min offset line.length + 1⟩ := by
      have first := of_first unbroken [] (Nat.min_le_right offset line.length)
      rwa [List.append_nil, of_eq, ← List.take_eq_take_min, ← of_eq] at first
    rw [clamped]
    refine ⟨⟨Nat.le_refl 1, Nat.succ_pos _, line, ?_, ?_⟩, offsetIn_first line⟩
    · rw [sourceLines_single unbroken]
      rfl
    · exact Nat.succ_le_succ (Nat.min_le_right offset line.length)
  | more line rest unbroken ih =>
    rw [List.length_append, List.length_cons]
    -- Behind the first newline both sides go on as they do for the rest alone.
    rcases Nat.lt_or_ge line.length offset with below | within
    · obtain ⟨further, rfl⟩ := Nat.exists_eq_add_of_lt below
      obtain ⟨inText, back⟩ := ih further
      obtain ⟨row, column, here⟩ : ∃ row column, of rest further = ⟨row + 1, column⟩ := ⟨_, _, rfl⟩
      rw [here] at inText back
      rw [Nat.add_right_comm, of_below unbroken, here]
      refine ⟨(inText_below_iff unbroken).mpr inText, (offsetIn_below unbroken).trans ?_⟩
      rw [back]
      omega
    · rw [of_first unbroken _ within, offsetIn_first]
      refine ⟨⟨Nat.le_refl 1, Nat.succ_pos offset, line, ?_, Nat.succ_le_succ within⟩, by omega⟩
      rw [sourceLines_append unbroken]
      rfl

/-- A location in the text is that of the offset that it gives. -/
theorem of_offsetIn {location : Location} (inText : location.InText source) :
    location.offsetIn source ≤ source.length ∧ of source (location.offsetIn source) = location := by
  obtain ⟨line, column⟩ := location
  obtain ⟨row, rfl⟩ : ∃ row, line = row + 1 := Nat.exists_eq_add_of_le' inText.line_pos
  obtain ⟨passed, rfl⟩ : ∃ passed, column = passed + 1 := Nat.exists_eq_add_of_le' inText.column_pos
  induction source using line_induction generalizing row with
  | last only unbroken =>
    obtain ⟨line, held, within⟩ := inText.column_le
    rw [sourceLines_single unbroken] at held
    obtain ⟨rfl, rfl⟩ : row = 0 ∧ only = line := by
      cases row <;> simp_all
    have first := of_first unbroken [] (Nat.le_of_succ_le_succ within)
    rw [List.append_nil] at first
    rw [offsetIn_first]
    exact ⟨Nat.le_of_succ_le_succ within, first⟩
  | more first rest unbroken ih =>
    cases row with
    | zero =>
      obtain ⟨line, held, within⟩ := inText.column_le
      rw [sourceLines_append unbroken] at held
      obtain rfl : first = line := Option.some.inj held
      have short : passed ≤ first.length := Nat.le_of_succ_le_succ within
      rw [offsetIn_first, List.length_append]
      exact ⟨by omega, of_first unbroken _ short⟩
    | succ row =>
      obtain ⟨inside, same⟩ := ih row ((inText_below_iff unbroken).mp inText)
      rw [offsetIn_below unbroken, of_below unbroken, same, List.length_append, List.length_cons]
      exact ⟨by omega, rfl⟩

end Location

/-- Locations encode the offsets of a source in order: a later offset has a later location, the
location of an offset is in the text and leads back to it, and every location in the text is that
of exactly one offset. -/
theorem locations_encode_offsets (source : Bytes) :
    (∀ first second, first < second → second ≤ source.length →
      (Location.of source first).Precedes (Location.of source second)) ∧
    (∀ offset, (Location.of source offset).InText source ∧
      (Location.of source offset).offsetIn source = min offset source.length) ∧
    ∀ location : Location, location.InText source →
      ∃! offset, offset ≤ source.length ∧ Location.of source offset = location := by
  refine ⟨fun first second earlier inside => Location.of_precedes earlier inside,
    Location.inText_of source, fun location inText => ?_⟩
  obtain ⟨inside, same⟩ := Location.of_offsetIn inText
  refine ⟨location.offsetIn source, ⟨inside, same⟩, ?_⟩
  rintro other ⟨otherInside, otherSame⟩
  exact Location.of_inj otherInside inside (otherSame.trans same.symm)

end ArithAsm
