import ArithAsm.Proofs.Path.Parts

/-! What replacing the extension of a path comes to. As many bytes as the old extension has go
from the end of the whole path. They need not be the bytes of the extension, but what they leave
of the file name still has the old stem, with one exception: where the stem is `.` and nothing
stands behind the name, `..` is left, which is no file name, and the path stays like that. -/
namespace ArithAsm.Path

variable {path : Path} {before : List Bytes} {last stem tail extension : Bytes}

/-! ## Stem and extension -/

theorem splitName_of_dot (nonempty : stem ≠ []) (plain : Byte.dot ∉ extension) :
    splitName (stem ++ Byte.dot :: extension) = (stem, some extension) := by
  have backwards : (stem ++ Byte.dot :: extension).reverse =
      extension.reverse ++ Byte.dot :: stem.reverse := by simp
  have others : ∀ byte ∈ extension.reverse, (byte != Byte.dot) = true := fun byte member =>
    bne_iff_ne.mpr fun dot => plain (dot ▸ List.mem_reverse.mp member)
  simp only [splitName, backwards, List.takeWhile_append_of_pos others,
    List.dropWhile_append_of_pos others]
  simp [nonempty]

/-- A name has no extension, or a stem and an extension behind its last dot. -/
theorem splitName_cases (name : Bytes) : splitName name = (name, none) ∨
    ∃ stem extension, name = stem ++ Byte.dot :: extension ∧ stem ≠ [] ∧ Byte.dot ∉ extension := by
  by_cases dotted : Byte.dot ∈ name.reverse
  · obtain ⟨after, before, shape, plain⟩ := List.eq_append_cons_of_mem dotted
    have forwards : name = before.reverse ++ Byte.dot :: after.reverse := by
      rw [← List.reverse_reverse name, shape]
      simp
    by_cases hidden : before = []
    · left
      have others : ∀ byte ∈ after, (byte != Byte.dot) = true := fun byte member =>
        bne_iff_ne.mpr fun dot => plain (dot ▸ member)
      simp only [splitName, shape, List.dropWhile_append_of_pos others, hidden]
      simp
    · exact .inr ⟨before.reverse, after.reverse, forwards, by simpa using hidden, by simpa using plain⟩
  · left
    have nothing : name.reverse.dropWhile (· != Byte.dot) = [] :=
      List.dropWhile_eq_nil_iff.mpr fun byte member => bne_iff_ne.mpr fun dot => dotted (dot ▸ member)
    simp [splitName, nothing]

/-! ## Setting an extension -/

/-- What an extension adds to a name. -/
def suffixOf (extension : Bytes) : Bytes :=
  if extension.isEmpty then [] else Byte.dot :: extension

theorem EndsAt.setExtension_eq (ends : EndsAt path before last tail) (proper : last ≠ up)
    (extension : Bytes) :
    setExtension path extension = lead before ++ ((splitName last).1 ++ suffixOf extension) := by
  rw [setExtension, ends.leaf?_eq, if_neg proper]
  simp only [ofPieces_append, ofPieces_singleton, suffixOf]
  split <;> simp

theorem setExtension_of_none (nameless : leaf? path = none) (extension : Bytes) :
    setExtension path extension = path := by
  rw [setExtension, nameless]

/-! ## Replacing an extension -/

theorem withExtension_of_none (nameless : leaf? path = none) (extension : Bytes) :
    withExtension path extension = path := by
  simp [withExtension, fileName?, nameless, setExtension_of_none nameless]

theorem EndsAt.fileName?_eq (ends : EndsAt path before last tail) (proper : last ≠ up) :
    fileName? path = some last := by
  rw [fileName?, ends.leaf?_eq, if_neg proper, Option.map_some]

/-- A name without an extension gets one, and its tail goes. -/
theorem EndsAt.withExtension_of_plain (ends : EndsAt path before last tail) (proper : last ≠ up)
    (plain : splitName last = (last, none)) (extension : Bytes) :
    withExtension path extension = lead before ++ (last ++ suffixOf extension) := by
  simp only [withExtension, ends.fileName?_eq proper, Option.bind_some, plain, Option.getD_none,
    List.length_nil, Nat.sub_zero, List.take_length]
  rw [ends.setExtension_eq proper, plain]

theorem isIdle_append_dot (nonempty : stem ≠ []) (rest : Bytes) :
    isIdle (stem ++ Byte.dot :: rest) = false := by
  obtain ⟨first, others, rfl⟩ := List.exists_cons_of_ne_nil nonempty
  cases others <;> simp [isIdle, here]

theorem append_dot_eq_up_iff (nonempty : stem ≠ []) {rest : Bytes} :
    stem ++ Byte.dot :: rest = up ↔ stem = here ∧ rest = [] := by
  obtain ⟨first, others, rfl⟩ := List.exists_cons_of_ne_nil nonempty
  cases others <;> simp [up, here]

/-- With an extension behind it any piece is a name. -/
theorem named_append_dot (some : extension ≠ []) (plain : Byte.dot ∉ extension) (piece : Bytes) :
    isIdle (piece ++ Byte.dot :: extension) = false ∧ piece ++ Byte.dot :: extension ≠ up := by
  obtain ⟨byte, rest, rfl⟩ := List.exists_cons_of_ne_nil some
  cases piece with
  | nil =>
    have other : byte ≠ Byte.dot := fun dot => plain (dot ▸ List.mem_cons_self)
    simp [isIdle, here, up, other]
  | cons first others => cases others <;> simp [isIdle, here, up]

theorem EndsAt.clean_of_split (ends : EndsAt path before last tail) {rest : Bytes}
    (split : last = stem ++ rest) : Byte.slash ∉ stem :=
  fun slash => ends.lastClean (by simp [split, slash])

/-- Bytes dropped from the end come from the tail and, if that is too short, from the extension. -/
theorem EndsAt.take_eq (ends : EndsAt path before (stem ++ Byte.dot :: extension) tail) :
    path.take (path.length - extension.length) = lead before ++
      ((stem ++ Byte.dot :: extension.take tail.length) ++ tail.take (tail.length - extension.length)) := by
  have shape : path = (lead before ++ (stem ++ [Byte.dot])) ++ (extension ++ tail) := by
    simp [ends.eq]
  have remaining : path.length - extension.length =
      (lead before ++ (stem ++ [Byte.dot])).length + tail.length := by
    simp only [shape, List.length_append]
    omega
  rw [remaining, shape, List.take_length_add_append, List.take_append]
  simp

/-- The dropped bytes leave the stem and its dot. -/
theorem EndsAt.drop_extension (ends : EndsAt path before (stem ++ Byte.dot :: extension) tail)
    (nonempty : stem ≠ []) :
    EndsAt (path.take (path.length - extension.length)) before
      (stem ++ Byte.dot :: extension.take tail.length) (tail.take (tail.length - extension.length)) where
  eq := ends.take_eq
  clean := ends.clean
  lastClean slash := by
    have shorter : stem ++ Byte.dot :: extension.take tail.length <+: stem ++ Byte.dot :: extension :=
      (List.prefix_append_right_inj stem).mpr (List.cons_prefix_cons.mpr ⟨rfl, List.take_prefix _ _⟩)
    exact ends.lastClean (shorter.subset slash)
  active := isIdle_append_dot nonempty _
  tail := ends.tail.take _

/-- Behind the last slash stand two dots and an extension: without the extension there is no
name left. -/
def LosesName (path : Path) : Prop :=
  ∃ extension, extension ≠ [] ∧ Byte.dot ∉ extension ∧
    (pieces path).getLast? = some (up ++ extension)

theorem EndsAt.losesName_iff (ends : EndsAt path before last tail) : LosesName path ↔
    tail = [] ∧ ∃ extension, extension ≠ [] ∧ Byte.dot ∉ extension ∧ last = up ++ extension := by
  constructor
  · rintro ⟨extension, some, plain, behind⟩
    rcases ends.tail_cases with ⟨bare, whole⟩ | ⟨idle, final, -, idleFinal, whole⟩
    · rw [whole, List.getLast?_concat, Option.some.injEq] at behind
      exact ⟨bare, extension, some, plain, behind⟩
    · rw [whole, List.getLast?_concat, Option.some.injEq] at behind
      have active : isIdle (here ++ Byte.dot :: extension) = false := isIdle_append_dot (by simp [here]) _
      cases (behind ▸ active).symm.trans idleFinal
  · rintro ⟨rfl, extension, some, plain, rfl⟩
    refine ⟨extension, some, plain, ?_⟩
    rw [ends.pieces_eq]
    simp [pieces]

/-- This is so exactly if the stem is `.` and there is no tail. -/
theorem EndsAt.losesName_iff_stem (ends : EndsAt path before (stem ++ Byte.dot :: extension) tail)
    (proper : stem ++ Byte.dot :: extension ≠ up) (nonempty : stem ≠ [])
    (plain : Byte.dot ∉ extension) : LosesName path ↔ stem = here ∧ tail = [] := by
  rw [ends.losesName_iff]
  constructor
  · rintro ⟨bare, other, some, otherPlain, same⟩
    have split := splitName_of_dot nonempty plain
    rw [same, show up ++ other = here ++ Byte.dot :: other by rfl,
      splitName_of_dot (by simp [here]) otherPlain] at split
    exact ⟨(Prod.mk.inj split).1.symm, bare⟩
  · rintro ⟨rfl, bare⟩
    exact ⟨bare, extension, fun none => proper (none ▸ rfl), plain, rfl⟩

theorem EndsAt.withExtension_eq (ends : EndsAt path before (stem ++ Byte.dot :: extension) tail)
    (proper : stem ++ Byte.dot :: extension ≠ up) (nonempty : stem ≠ [])
    (plain : Byte.dot ∉ extension) (new : Bytes) :
    withExtension path new = setExtension (path.take (path.length - extension.length)) new := by
  simp only [withExtension, ends.fileName?_eq proper, Option.bind_some,
    splitName_of_dot nonempty plain, Option.getD_some]

/-- With the extension the name goes, and nothing can be put in its place. -/
theorem EndsAt.withExtension_of_lost (ends : EndsAt path before last tail) (proper : last ≠ up)
    (loses : LosesName path) (new : Bytes) : withExtension path new = lead before ++ up := by
  obtain ⟨rfl, extension, some, plain, rfl⟩ := ends.losesName_iff.mp loses
  have nonempty : here ≠ [] := by simp [here]
  have dotted : EndsAt path before (here ++ Byte.dot :: extension) [] := ends
  have left := dotted.drop_extension nonempty
  have nameless : leaf? (path.take (path.length - extension.length)) = none := by
    rw [left.leaf?_eq]
    rfl
  rw [dotted.withExtension_eq proper nonempty plain, setExtension_of_none nameless, left.eq]
  simp [here, up]

/-- Otherwise the stem is kept, and gets the new extension. -/
theorem EndsAt.withExtension_of_dot (ends : EndsAt path before (stem ++ Byte.dot :: extension) tail)
    (proper : stem ++ Byte.dot :: extension ≠ up) (nonempty : stem ≠ [])
    (plain : Byte.dot ∉ extension) (keeps : ¬ LosesName path) (new : Bytes) :
    withExtension path new = lead before ++ (stem ++ suffixOf new) := by
  -- A stem `.` has an extension, since `..` is no name, and a tail keeps part of it.
  have named : stem ++ Byte.dot :: extension.take tail.length ≠ up := by
    intro isUp
    obtain ⟨rfl, nothing⟩ := (append_dot_eq_up_iff nonempty).mp isUp
    rcases List.take_eq_nil_iff.mp nothing with short | rfl
    · have bare : tail = [] := List.length_eq_zero_iff.mp short
      exact keeps ((ends.losesName_iff_stem proper nonempty plain).mpr ⟨rfl, bare⟩)
    · exact proper rfl
  have plainLeft : Byte.dot ∉ extension.take tail.length := fun dot =>
    plain (List.mem_of_mem_take dot)
  rw [ends.withExtension_eq proper nonempty plain, (ends.drop_extension nonempty).setExtension_eq named,
    splitName_of_dot nonempty plainLeft]

end ArithAsm.Path
