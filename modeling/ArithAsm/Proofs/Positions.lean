import ArithAsm.Source.Location
import Mathlib.Data.List.TakeWhile

/-! Locations follow offsets. With a newline in front or without, the column is
one more than there are bytes since the last newline. An offset further on in a
text has a later location, and text behind an offset has no say in where it lies. -/
namespace ArithAsm
namespace Location

/-- How far the end of some bytes is behind their last newline, or behind a newline in front of them
if they hold none. -/
private theorem column_of_lastNewline (before : Bytes) :
    (match lastNewline? before with
      | some newline => before.length - newline
      | none => before.length + 1) =
      (before.reverse.takeWhile (· != Byte.newline)).length + 1 := by
  have stops : (fun byte : UInt8 => !(byte != Byte.newline)) = (· == Byte.newline) := by
    funext byte
    exact Bool.not_not _
  rw [List.takeWhile_eq_take_findIdx_not, stops, List.length_take, List.length_reverse, lastNewline?]
  cases found : before.reverse.findIdx? (· == Byte.newline) with
  | none =>
    have behind := List.findIdx?_eq_none_iff_findIdx_eq.mp found
    rw [List.length_reverse] at behind
    simp [behind]
  | some back =>
    obtain ⟨within, index⟩ := List.findIdx?_eq_some_iff_findIdx_eq.mp found
    rw [List.length_reverse] at within
    show before.length - (before.length - 1 - back) = min _ before.length + 1
    omega

/-- The line and the column without a case for the first line. -/
theorem of_eq (source : Bytes) (offset : Nat) : of source offset =
    ⟨(source.take offset).count Byte.newline + 1,
      ((source.take offset).reverse.takeWhile (· != Byte.newline)).length + 1⟩ := by
  have length : min offset source.length = (source.take offset).length := List.length_take.symm
  have clamped : source.take (source.take offset).length = source.take offset := by
    rw [List.length_take, ← List.take_eq_take_min]
  simp only [of, length, clamped]
  exact congrArg (Location.mk _) (column_of_lastNewline (source.take offset))

/-- The order in which a reader comes upon two locations. -/
def Precedes (first second : Location) : Prop :=
  first.line < second.line ∨ first.line = second.line ∧ first.column < second.column

theorem Precedes.ne {first second : Location} (precedes : first.Precedes second) : first ≠ second := by
  rintro rfl
  simp [Precedes] at precedes

/-- Text that is added at the end moves no offset. -/
theorem of_append {source : Bytes} {offset : Nat} (inside : offset ≤ source.length) (more : Bytes) :
    of (source ++ more) offset = of source offset := by
  simp only [of_eq, List.take_append_of_le_length inside]

private theorem lines_append {passed : Bytes} (broken : Byte.newline ∈ passed) (before : Bytes) :
    before.count Byte.newline < (before ++ passed).count Byte.newline := by
  have positive : 0 < passed.count Byte.newline := List.count_pos_iff.mpr broken
  rw [List.count_append]
  omega

/-- Bytes without a newline only move the column on. -/
private theorem column_append {passed : Bytes} (unbroken : Byte.newline ∉ passed) (before : Bytes) :
    ((before ++ passed).reverse.takeWhile (· != Byte.newline)).length =
      passed.length + (before.reverse.takeWhile (· != Byte.newline)).length := by
  have plain : ∀ byte ∈ passed.reverse, (byte != Byte.newline) = true := by
    intro byte member
    have other : byte ≠ Byte.newline := fun same => unbroken (same ▸ List.mem_reverse.mp member)
    simp [other]
  rw [List.reverse_append, List.takeWhile_append_of_pos plain, List.length_append, List.length_reverse]

/-- Offsets further on have later locations. -/
theorem of_precedes {source : Bytes} {first second : Nat} (earlier : first < second)
    (inside : second ≤ source.length) : (of source first).Precedes (of source second) := by
  obtain ⟨passed, split⟩ : ∃ passed, source.take second = source.take first ++ passed :=
    ⟨_, (List.take_append_drop first (source.take second)).symm.trans (by
      rw [List.take_take, Nat.min_eq_left earlier.le])⟩
  have lengths := congrArg List.length split
  simp only [List.length_append, List.length_take] at lengths
  simp only [Precedes, of_eq, split]
  by_cases broken : Byte.newline ∈ passed
  · have lines := lines_append broken (source.take first)
    omega
  · have lines : (source.take first ++ passed).count Byte.newline =
        (source.take first).count Byte.newline := by
      rw [List.count_append, List.count_eq_zero.mpr broken, Nat.add_zero]
    rw [lines, column_append broken]
    omega

/-- No two offsets of a text share a location. -/
theorem of_inj {source : Bytes} {first second : Nat} (firstInside : first ≤ source.length)
    (secondInside : second ≤ source.length) (same : of source first = of source second) :
    first = second := by
  rcases Nat.lt_trichotomy first second with earlier | equal | later
  · exact absurd same (of_precedes earlier secondInside).ne
  · exact equal
  · exact absurd same.symm (of_precedes later firstInside).ne

end Location
end ArithAsm
