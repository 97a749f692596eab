import ArithAsm.Build.Artifacts
import ArithAsm.Proofs.Path.Extension
import ArithAsm.Proofs.Walks

/-! The names that are derived from an assembly. Neither the object file nor the executable is
named as the assembly, as far as that can name a file at all. The object file and the executable
have different names too, unless the assembly is called `..` and an extension: with the extension
the name is lost, and both become the directory above. That is no file, so even then removing the
object file does not take the executable away. -/
namespace ArithAsm
open ArithAsm.Path

variable {path : Path} {before : List Bytes} {name tail : Bytes}

/-! ## How names are derived -/

namespace Artifacts

/-- How an assembly with a file name gets its artifacts. -/
inductive Named (path : Path) (before : List Bytes) (name : Bytes) : Artifacts → Prop where
  /-- A name without an extension gets one. -/
  | extended (keeps : ¬ path.LosesName) : Named path before name
      ⟨path, lead before ++ (name ++ Utf8.encode ".o"), lead before ++ (name ++ Utf8.encode ".out")⟩
  /-- An extension gives way to `o`, or to nothing. -/
  | replaced {stem extension : Bytes} (keeps : ¬ path.LosesName)
      (split : name = stem ++ Byte.dot :: extension) (nonempty : stem ≠ [])
      (other : extension ≠ Utf8.encode "o") :
      Named path before name ⟨path, lead before ++ (stem ++ Utf8.encode ".o"), lead before ++ stem⟩
  /-- Where it is `o` already, the object file gets another one at the very end. -/
  | appended {stem : Bytes} (keeps : ¬ path.LosesName) (split : name = stem ++ Utf8.encode ".o")
      (nonempty : stem ≠ []) :
      Named path before name ⟨path, path ++ Utf8.encode ".o", lead before ++ stem⟩
  /-- Two dots and an extension are no name without the extension. -/
  | lost (loses : path.LosesName) : Named path before name ⟨path, lead before ++ up, lead before ++ up⟩

theorem encode_dot_o : Utf8.encode ".o" = Byte.dot :: Utf8.encode "o" := by decide

theorem suffixOf_o : suffixOf (Utf8.encode "o") = Utf8.encode ".o" := by decide

theorem suffixOf_out : suffixOf (Utf8.encode "out") = Utf8.encode ".out" := by decide

theorem clean_append_o {piece : Bytes} (clean : Byte.slash ∉ piece) :
    Byte.slash ∉ piece ++ Utf8.encode ".o" :=
  List.not_mem_append clean (by decide)

theorem append_o_ne (piece : Bytes) : piece ++ Utf8.encode ".o" ≠ piece := by
  simp [Utf8.encode]

/-- The ending of an object file makes a name of any piece. -/
theorem named_append_o (piece : Bytes) : isIdle (piece ++ Utf8.encode ".o") = false ∧
    piece ++ Utf8.encode ".o" ≠ up := by
  rw [encode_dot_o]
  exact named_append_dot (by decide) (by decide) piece

theorem ofAssembly_of_none (nameless : leaf? path = none) :
    ofAssembly path = ⟨path, path ++ Utf8.encode ".o", path⟩ := by
  have itself : alike path path = true := beq_self_eq_true _
  simp only [ofAssembly, withExtension_of_none nameless, itself, ↓reduceIte]

theorem named_of_plain (ends : EndsAt path before name tail) (proper : name ≠ up)
    (plain : splitName name = (name, none)) : Named path before name (ofAssembly path) := by
  have objectApart := ends.not_alike proper (clean_append_o ends.lastClean) (append_o_ne name)
  have bare : withExtension path [] = lead before ++ name := by
    simp [ends.withExtension_of_plain proper plain, suffixOf]
  have keeps : ¬ path.LosesName := by
    intro loses
    obtain ⟨-, extension, -, noDot, rfl⟩ := ends.losesName_iff.mp loses
    have split : splitName (here ++ Byte.dot :: extension) = (here, some extension) :=
      splitName_of_dot (by simp [here]) noDot
    cases split.symm.trans plain
  have shape : ofAssembly path = ⟨path, lead before ++ (name ++ Utf8.encode ".o"),
      lead before ++ (name ++ Utf8.encode ".out")⟩ := by
    simp [ofAssembly, bare, ends.withExtension_of_plain proper plain, suffixOf_o, suffixOf_out,
      objectApart, ends.alike_without_tail]
  rw [shape]
  exact .extended keeps

theorem named_of_lost (ends : EndsAt path before name tail) (proper : name ≠ up)
    (loses : path.LosesName) : Named path before name (ofAssembly path) := by
  have apart : alike (lead before ++ up) path = false := ends.not_alike proper (by decide) proper.symm
  have shape : ofAssembly path = ⟨path, lead before ++ up, lead before ++ up⟩ := by
    simp [ofAssembly, ends.withExtension_of_lost proper loses, apart]
  rw [shape]
  exact .lost loses

theorem named_of_dot {stem extension : Bytes}
    (ends : EndsAt path before (stem ++ Byte.dot :: extension) tail)
    (proper : stem ++ Byte.dot :: extension ≠ up) (nonempty : stem ≠ []) (plain : Byte.dot ∉ extension)
    (keeps : ¬ path.LosesName) :
    Named path before (stem ++ Byte.dot :: extension) (ofAssembly path) := by
  have stemClean := ends.clean_of_split rfl
  have replaced := ends.withExtension_of_dot proper nonempty plain keeps
  have bare : withExtension path [] = lead before ++ stem := by simp [replaced, suffixOf]
  have object : withExtension path (Utf8.encode "o") = lead before ++ (stem ++ Utf8.encode ".o") := by
    rw [replaced, suffixOf_o]
  have executableApart := ends.not_alike proper stemClean (by simp)
  by_cases already : extension = Utf8.encode "o"
  · subst already
    have objectAlike : alike (lead before ++ (stem ++ Utf8.encode ".o")) path = true := by
      rw [encode_dot_o]
      exact ends.alike_without_tail
    have shape : ofAssembly path = ⟨path, path ++ Utf8.encode ".o", lead before ++ stem⟩ := by
      simp [ofAssembly, bare, object, objectAlike, executableApart]
    rw [shape]
    exact .appended keeps (by rw [encode_dot_o]) nonempty
  · have objectApart : alike (lead before ++ (stem ++ Utf8.encode ".o")) path = false :=
      ends.not_alike proper (clean_append_o stemClean) (by simp [encode_dot_o, Ne.symm already])
    have shape : ofAssembly path =
        ⟨path, lead before ++ (stem ++ Utf8.encode ".o"), lead before ++ stem⟩ := by
      simp [ofAssembly, bare, object, objectApart, executableApart]
    rw [shape]
    exact .replaced keeps rfl nonempty already

theorem named_of_endsAt (ends : EndsAt path before name tail) (proper : name ≠ up) :
    Named path before name (ofAssembly path) := by
  by_cases loses : path.LosesName
  · exact named_of_lost ends proper loses
  rcases splitName_cases name with plain | ⟨stem, extension, rfl, nonempty, plain⟩
  · exact named_of_plain ends proper plain
  · exact named_of_dot ends proper nonempty plain loses

/-! ## Names apart from the assembly -/

/-- With the ending of an object file behind all of it, a path ends in a name. -/
theorem endsAt_append_o {last : Bytes} (shape : pieces path = before ++ [last]) :
    EndsAt (path ++ Utf8.encode ".o") before (last ++ Utf8.encode ".o") [] := by
  obtain ⟨eq, clean, lastClean⟩ := eq_lead_append shape
  exact ⟨by simp [eq], clean, clean_append_o lastClean, (named_append_o last).1, .nil⟩

theorem not_alike_append_o (path : Path) : alike (path ++ Utf8.encode ".o") path = false := by
  obtain ⟨before, last, shape⟩ := exists_last path
  obtain ⟨eq, -, lastClean⟩ := eq_lead_append shape
  have apart := (endsAt_append_o shape).not_alike (named_append_o last).2 lastClean (append_o_ne last).symm
  rwa [← eq, alike_comm] at apart

variable {artifacts : Artifacts}

theorem Named.object_not_alike (named : Named path before name artifacts)
    (ends : EndsAt path before name tail) (proper : name ≠ up) : alike artifacts.object path = false := by
  cases named with
  | extended => exact ends.not_alike proper (clean_append_o ends.lastClean) (append_o_ne name)
  | @replaced stem extension _ split _ other =>
    exact ends.not_alike proper (clean_append_o (ends.clean_of_split split))
      (by simp [split, encode_dot_o, other.symm])
  | appended => exact not_alike_append_o path
  | lost => exact ends.not_alike proper (by decide) proper.symm

/-- The executable stands beside the assembly under another name. -/
theorem Named.exists_executable (named : Named path before name artifacts)
    (ends : EndsAt path before name tail) (proper : name ≠ up) : ∃ piece, piece ≠ [] ∧
      Byte.slash ∉ piece ∧ piece ≠ name ∧ artifacts.executable = lead before ++ piece := by
  cases named with
  | extended =>
    exact ⟨_, by simp [ends.nonempty], List.not_mem_append ends.lastClean (by decide),
      by simp [Utf8.encode], rfl⟩
  | @replaced stem extension _ split nonempty other =>
    exact ⟨stem, nonempty, ends.clean_of_split split, by simp [split], rfl⟩
  | @appended stem _ split nonempty =>
    have other : stem ≠ name := fun same => append_o_ne stem (split.symm.trans same.symm)
    exact ⟨stem, nonempty, ends.clean_of_split split, other, rfl⟩
  | lost => exact ⟨up, by simp [up], by decide, proper.symm, rfl⟩

/-- The ending at the very end makes a name beside the assembly, or inside of it. -/
theorem appended_not_alike (ends : EndsAt path before name tail) {stem : Bytes}
    (split : name = stem ++ Utf8.encode ".o") :
    alike (lead before ++ stem) (path ++ Utf8.encode ".o") = false := by
  have clean := ends.clean_of_split split
  rcases ends.tail_cases with ⟨-, whole⟩ | ⟨idle, final, idles, -, whole⟩
  · exact (endsAt_append_o whole).not_alike (named_append_o name).2 clean (by simp [split, encode_dot_o])
  · refine Bool.eq_false_iff.mpr fun same => ?_
    have made := steps_of_alike same
    rw [steps_lead_append ends.clean clean, (endsAt_append_o whole).steps_eq, steps_append,
      steps_cons_of_active ends.active, steps_of_idle idles, List.append_assoc,
      List.append_cancel_left_eq] at made
    -- One piece makes one step at most, and the object file is two steps away.
    have few : (steps [stem]).length ≤ 1 := by
      rw [steps, List.length_map]
      exact List.length_filter_le _ _
    simp [made] at few

/-- The object file has the name of the executable only where the name is lost. -/
theorem Named.alike_iff (named : Named path before name artifacts)
    (ends : EndsAt path before name tail) :
    alike artifacts.object artifacts.executable = true ↔ path.LosesName := by
  cases named with
  | extended keeps =>
    have object := ends.sibling (clean_append_o ends.lastClean) (named_append_o name).1
    have apart : alike (lead before ++ (name ++ Utf8.encode ".out"))
        (lead before ++ (name ++ Utf8.encode ".o")) = false :=
      object.not_alike (named_append_o name).2 (List.not_mem_append ends.lastClean (by decide))
        (by simp [show Utf8.encode ".out" ≠ Utf8.encode ".o" by decide])
    exact iff_of_false (by simp [alike_comm _ (lead before ++ (name ++ Utf8.encode ".out")), apart]) keeps
  | @replaced stem extension keeps split _ _ =>
    have clean := ends.clean_of_split split
    have object := ends.sibling (clean_append_o clean) (named_append_o stem).1
    have apart := object.not_alike (named_append_o stem).2 clean (append_o_ne stem).symm
    exact iff_of_false (by simp [alike_comm _ (lead before ++ stem), apart]) keeps
  | @appended stem keeps split _ =>
    have apart := appended_not_alike ends split
    exact iff_of_false (by simp [alike_comm _ (lead before ++ stem), apart]) keeps
  | lost loses => exact iff_of_true (beq_self_eq_true _) loses

theorem appended_walk_ne (ends : EndsAt path before name tail) (proper : name ≠ up) {stem : Bytes}
    (split : name = stem ++ Utf8.encode ".o") (nonempty : stem ≠ []) (tree : FileTree) :
    tree.walk (lead before ++ stem) ≠ tree.walk (path ++ Utf8.encode ".o") := by
  have clean := ends.clean_of_split split
  rw [tree.walk_lead_append ends.clean nonempty clean]
  rcases ends.tail_cases with ⟨-, whole⟩ | ⟨idle, final, idles, -, whole⟩
  · rw [tree.walk_of_endsAt (endsAt_append_o whole) (named_append_o name).2]
    exact FileTree.enter_ne (by simp [split, encode_dot_o])
  · rw [tree.walk_of_endsAt (endsAt_append_o whole) (named_append_o final).2,
      FileTree.base_append (by simp [ends.nonempty]), List.foldl_cons,
      FileTree.enter_of_name ends.active proper, FileTree.foldl_enter_of_idle idles]
    intro same
    have lengths := congrArg List.length same
    have few := FileTree.length_enter_le (tree.base before) stem
    simp only [List.length_cons] at lengths
    omega

/-- In any tree the object file and the executable then have different places. -/
theorem Named.walk_ne (named : Named path before name artifacts) (ends : EndsAt path before name tail)
    (proper : name ≠ up) (keeps : ¬ path.LosesName) (tree : FileTree) :
    tree.walk artifacts.executable ≠ tree.walk artifacts.object := by
  cases named with
  | extended =>
    have object := ends.sibling (clean_append_o ends.lastClean) (named_append_o name).1
    rw [tree.walk_of_endsAt object (named_append_o name).2,
      tree.walk_lead_append ends.clean (by simp [ends.nonempty])
        (List.not_mem_append ends.lastClean (by decide))]
    exact FileTree.enter_ne (by simp [show Utf8.encode ".out" ≠ Utf8.encode ".o" by decide])
  | @replaced stem extension _ split nonempty _ =>
    have clean := ends.clean_of_split split
    have object := ends.sibling (clean_append_o clean) (named_append_o stem).1
    rw [tree.walk_of_endsAt object (named_append_o stem).2, tree.walk_lead_append ends.clean nonempty clean]
    exact FileTree.enter_ne (append_o_ne stem).symm
  | appended _ split nonempty => exact appended_walk_ne ends proper split nonempty tree
  | lost loses => exact absurd loses keeps

/-- What is lost is not removed, as it is a directory. -/
theorem Named.keeps_of_remove (named : Named path before name artifacts)
    (ends : EndsAt path before name tail) {tree after : FileTree}
    (removed : tree.remove artifacts.object = .ok after) : ¬ path.LosesName := by
  cases named with
  | extended keeps | replaced keeps | appended keeps => exact keeps
  | lost =>
    obtain ⟨target, node, resolves, undotted, unslashed, -⟩ := FileTree.remove_eq_ok_iff.mp removed
    obtain ⟨above, last, object, proper⟩ := FileTree.endsAt_of_resolve resolves unslashed undotted
    have single : pieces up = [up] := pieces_of_notMem (by decide)
    have shape : above ++ [last] = before ++ [up] := by
      rw [← single, ← pieces_lead_append ends.clean, object.pieces_eq]
      rfl
    exact absurd (List.singleton_inj.mp (List.append_inj_right' shape rfl)) proper

/-- Removing the object file leaves the executable. -/
theorem Named.executable_kept (named : Named path before name artifacts)
    (ends : EndsAt path before name tail) (proper : name ≠ up) {tree after : FileTree} {node : Node}
    (removed : tree.remove artifacts.object = .ok after)
    (held : tree.lookUp artifacts.executable = .ok node) :
    after.lookUp artifacts.executable = .ok node := by
  have apart := named.walk_ne ends proper (named.keeps_of_remove ends removed) tree
  refine (FileTree.keepsBut_of_remove removed).lookUp held fun other member => ?_
  obtain rfl := List.mem_singleton.mp member
  exact fun same => apart (FileTree.walk_of_sameFile same)

end Artifacts

/-- Neither derived name is that of the assembly, unless the assembly has no file name and so
names no file. -/
theorem derived_names_miss_assembly (path : Path) :
    alike (Artifacts.ofAssembly path).object path = false ∧
    (alike (Artifacts.ofAssembly path).executable path = true ↔ fileName? path = none) ∧
    (fileName? path = none ↔ (components path).getLast? ∈ [none, some .root, some .here, some .up]) ∧
    ∀ (tree : FileTree) (content : Bytes), tree.Grounded → tree.lookUp path = .ok (.file content) →
      alike (Artifacts.ofAssembly path).executable path = false := by
  have beside {before : List Bytes} {name tail : Bytes} (ends : EndsAt path before name tail)
      (proper : name ≠ up) : alike (Artifacts.ofAssembly path).executable path = false := by
    have named := Artifacts.named_of_endsAt ends proper
    obtain ⟨piece, -, clean, other, executable⟩ := named.exists_executable ends proper
    rw [executable]
    exact ends.not_alike proper clean other
  refine ⟨?_, ?_, fileName?_eq_none_iff, fun tree content grounded held => ?_⟩
  · rcases leaf?_cases path with nameless | ⟨before, name, tail, ends, proper⟩
    · rw [Artifacts.ofAssembly_of_none nameless]
      exact Artifacts.not_alike_append_o path
    · exact (Artifacts.named_of_endsAt ends proper).object_not_alike ends proper
  · rcases leaf?_cases path with nameless | ⟨before, name, tail, ends, proper⟩
    · rw [Artifacts.ofAssembly_of_none nameless]
      exact iff_of_true (beq_self_eq_true _) (by rw [fileName?, nameless, Option.map_none])
    · exact iff_of_false (by simp [beside ends proper]) (by simp [ends.fileName?_eq proper])
  · obtain ⟨before, name, ends, proper⟩ := grounded.endsAt_of_file held
    exact beside ends proper

/-- An assembly called `a.o`, in a directory called `b`. -/
theorem object_in_directory_is_missed :
    (FileTree.mk [] [([Utf8.encode "b"], .directory),
      ([Utf8.encode "a.o", Utf8.encode "b"], .file [])] []).Grounded ∧
    alike (Artifacts.ofAssembly (Utf8.encode "b/a.o")).executable (Utf8.encode "b/a.o") = false := by
  have grounded : (FileTree.mk [] [([Utf8.encode "b"], .directory),
      ([Utf8.encode "a.o", Utf8.encode "b"], .file [])] []).Grounded :=
    FileTree.grounded_of_nodes (by decide +kernel)
  exact ⟨grounded, (derived_names_miss_assembly _).2.2.2 _ [] grounded (by rfl)⟩

/-- An assembly with a file name has an object file and an executable of different names unless
the name is lost with its extension, and the executable outlives the object file in any case. -/
theorem object_is_executable_iff_name_lost {path : Path} {name : Bytes}
    (named : fileName? path = some name) :
    (alike (Artifacts.ofAssembly path).object (Artifacts.ofAssembly path).executable = true ↔
      path.LosesName) ∧
    ∀ (tree after : FileTree) (node : Node),
      tree.remove (Artifacts.ofAssembly path).object = .ok after →
      tree.lookUp (Artifacts.ofAssembly path).executable = .ok node →
      after.lookUp (Artifacts.ofAssembly path).executable = .ok node := by
  rcases leaf?_cases path with nameless | ⟨before, last, tail, ends, proper⟩
  · simp [fileName?, nameless] at named
  have derived := Artifacts.named_of_endsAt ends proper
  exact ⟨derived.alike_iff ends, fun tree after node => derived.executable_kept ends proper⟩

/-- A slash behind `a.o` makes the object file one inside of it, apart from the executable `a`. -/
theorem object_within_slashed_name_is_apart :
    fileName? (Utf8.encode "a.o/") = some (Utf8.encode "a.o") ∧
    alike (Artifacts.ofAssembly (Utf8.encode "a.o/")).object
      (Artifacts.ofAssembly (Utf8.encode "a.o/")).executable = false := by
  have named : fileName? (Utf8.encode "a.o/") = some (Utf8.encode "a.o") := by decide +kernel
  refine ⟨named, Bool.eq_false_iff.mpr fun same => ?_⟩
  obtain ⟨extension, -, -, final⟩ := (object_is_executable_iff_name_lost named).1.mp same
  cases (show (pieces (Utf8.encode "a.o/")).getLast? = some [] by decide +kernel).symm.trans final

/-- An assembly called `..o` has the directory above for its object file and its executable. -/
theorem two_dots_and_extension_lose_name :
    fileName? (Utf8.encode "..o") = some (Utf8.encode "..o") ∧
    Artifacts.ofAssembly (Utf8.encode "..o") = ⟨Utf8.encode "..o", up, up⟩ ∧
    alike (Artifacts.ofAssembly (Utf8.encode "..o")).object
      (Artifacts.ofAssembly (Utf8.encode "..o")).executable = true := by
  decide +kernel

end ArithAsm
