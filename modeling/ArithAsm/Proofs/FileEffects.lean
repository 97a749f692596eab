import ArithAsm.Host.FileTree

/-! What operations on files leave alone. A path is followed through directories
only, and creating, writing or removing a file neither makes nor unmakes a
directory and bars none, so a path leads to the same place before and after. An
operation on a path therefore changes what stands at one place and nothing else,
and what a series of operations leaves alone can be said in terms of the places at
its beginning. -/
namespace ArithAsm.FileTree

variable {tree before middle after : FileTree} {place other next : Place} {path : Path} {node : Node}
  {content : Bytes}

/-! ## Places -/

private theorem lookup_filter_ne (nodes : List (Place × Node)) (apart : other ≠ place) :
    (nodes.filter (·.1 != place)).lookup other = nodes.lookup other := by
  induction nodes with
  | nil => rfl
  | cons entry rest ih =>
    obtain ⟨listed, node⟩ := entry
    by_cases same : listed = place
    · subst listed
      have different : (other == place) = false := beq_eq_false_iff_ne.mpr apart
      simp [List.lookup_cons, different, ih]
    · simp [List.lookup_cons, same, ih]

private theorem lookup_filter_self (nodes : List (Place × Node)) :
    (nodes.filter (·.1 != place)).lookup place = none := by
  rw [List.lookup_eq_none_iff]
  intro entry member
  have apart : entry.1 ≠ place := by simpa using (List.mem_filter.mp member).2
  simpa using apart.symm

theorem node?_put_ne (apart : other ≠ place) : (tree.put place node).node? other = tree.node? other := by
  have different : (other == place) = false := beq_eq_false_iff_ne.mpr apart
  simp [node?, put, List.lookup_cons, different, lookup_filter_ne _ apart]

theorem node?_put_self (below : place ≠ []) : (tree.put place node).node? place = some node := by
  simp [node?, put, below]

theorem node?_erase_ne (apart : other ≠ place) : (tree.erase place).node? other = tree.node? other := by
  simp [node?, erase, lookup_filter_ne _ apart]

theorem node?_erase_self (below : place ≠ []) : (tree.erase place).node? place = none := by
  simp [node?, erase, below, lookup_filter_self]

theorem permits_makeFile_ne (apart : other ≠ place) (access : Access) :
    (tree.makeFile place).permits other access = tree.permits other access := by
  simp [permits, makeFile, apart]

/-- The root is a directory, so a place without one is below it. -/
theorem ne_nil_of_no_directory (absent : tree.node? place ≠ some .directory) : place ≠ [] := by
  rintro rfl
  exact absent rfl

theorem find_eq_ok_iff : tree.find place = .ok node ↔
    (place.headD []).length ≤ maxName ∧ tree.node? place = some node := by
  unfold find
  by_cases long : maxName < (place.headD []).length
  · rw [if_pos long]
    exact ⟨nofun, fun found => absurd found.1 (Nat.not_le.mpr long)⟩
  · rw [if_neg long]
    cases tree.node? place with
    | none => exact ⟨nofun, nofun⟩
    | some found => simp only [Option.elim, Except.ok.injEq, Option.some.injEq, Nat.not_lt.mp long, true_and]

theorem find_eq_notFound_iff : tree.find place = .error .notFound ↔
    (place.headD []).length ≤ maxName ∧ tree.node? place = none := by
  unfold find
  by_cases long : maxName < (place.headD []).length
  · rw [if_pos long]
    exact ⟨nofun, fun found => absurd found.1 (Nat.not_le.mpr long)⟩
  · rw [if_neg long]
    cases tree.node? place with
    | none => exact ⟨fun _ => ⟨Nat.not_lt.mp long, rfl⟩, fun _ => rfl⟩
    | some found => exact ⟨nofun, nofun⟩

theorem find_congr (same : after.node? place = before.node? place) : after.find place = before.find place := by
  simp only [find, same]

/-! ## Paths -/

/-- The two trees have the same directories, of which the same can be entered. -/
structure SameDirectories (before after : FileTree) : Prop where
  workingDirectory : after.workingDirectory = before.workingDirectory
  directories : ∀ place, after.node? place = some .directory ↔ before.node? place = some .directory
  entrances : ∀ place, before.node? place = some .directory →
    after.permits place .enter = before.permits place .enter

theorem SameDirectories.refl (tree : FileTree) : SameDirectories tree tree :=
  ⟨rfl, fun _ => Iff.rfl, fun _ _ => rfl⟩

theorem SameDirectories.symm (same : SameDirectories before after) : SameDirectories after before :=
  ⟨same.workingDirectory.symm, fun place => (same.directories place).symm,
    fun place held => (same.entrances place ((same.directories place).mp held)).symm⟩

theorem SameDirectories.trans (first : SameDirectories before middle)
    (second : SameDirectories middle after) : SameDirectories before after :=
  ⟨second.workingDirectory.trans first.workingDirectory,
    fun place => (second.directories place).trans (first.directories place),
    fun place held => (second.entrances place ((first.directories place).mpr held)).trans
      (first.entrances place held)⟩

theorem descend_of_ok {piece : Bytes} (same : SameDirectories before after)
    (steps : before.descend place piece = .ok next) : after.descend place piece = .ok next := by
  unfold descend at steps ⊢
  cases found : before.find place with
  | error cause => simp [found, Except.bind] at steps
  | ok node =>
    cases node with
    | file content => simp [found, Except.bind] at steps
    | device device => simp [found, Except.bind] at steps
    | directory =>
      obtain ⟨short, isDirectory⟩ := find_eq_ok_iff.mp found
      have foundAgain : after.find place = .ok .directory :=
        find_eq_ok_iff.mpr ⟨short, (same.directories place).mpr isDirectory⟩
      rw [found] at steps
      rw [foundAgain]
      simp only [Except.bind, same.entrances place isDirectory] at steps ⊢
      exact steps

/-- Trees with the same directories are followed alike. -/
theorem follow_of_ok {pieces : List Bytes} (same : SameDirectories before after)
    (follows : before.follow place pieces = .ok next) : after.follow place pieces = .ok next := by
  induction pieces generalizing place with
  | nil => exact follows
  | cons piece rest ih =>
    unfold follow at follows ⊢
    cases steps : before.descend place piece with
    | error cause => simp [steps, Except.bind] at follows
    | ok inner =>
      rw [descend_of_ok same steps]
      rw [steps] at follows
      exact ih follows

theorem resolve_of_ok {target : Target} (same : SameDirectories before after)
    (resolves : before.resolve path = .ok target) : after.resolve path = .ok target := by
  unfold resolve at resolves ⊢
  rw [same.workingDirectory]
  by_cases zero : path.contains 0 = true
  · rw [if_pos zero] at resolves
    cases resolves
  by_cases empty : path = []
  · rw [if_neg zero, if_pos empty] at resolves
    cases resolves
  by_cases long : maxPath < path.length
  · rw [if_neg zero, if_neg empty, if_pos long] at resolves
    cases resolves
  simp only [if_neg zero, if_neg empty, if_neg long] at resolves ⊢
  generalize (if path.head? = some Byte.slash then [] else before.workingDirectory) = origin at resolves ⊢
  cases pieces : (Path.pieces path).filter (· != []) with
  | nil => simpa only [pieces] using resolves
  | cons piece rest =>
    simp only [pieces] at resolves ⊢
    cases follows : before.follow origin (piece :: rest) with
    | error cause =>
      rw [follows] at resolves
      cases resolves
    | ok reached =>
      rw [follow_of_ok same follows]
      rw [follows] at resolves
      exact resolves

/-- Following the path comes to the place, whatever stands there. -/
def LeadsTo (tree : FileTree) (path : Path) (place : Place) : Prop :=
  ∃ target, tree.resolve path = .ok target ∧ target.place = place

/-- The two paths name one file. -/
def SameFile (tree : FileTree) (first second : Path) : Prop :=
  ∃ place, tree.LeadsTo first place ∧ tree.LeadsTo second place

theorem sameFile_iff {first second : Path} {target rival : Target}
    (resolves : tree.resolve first = .ok target) (resolvesAlso : tree.resolve second = .ok rival) :
    tree.SameFile first second ↔ target.place = rival.place := by
  constructor
  · rintro ⟨place, ⟨again, leads, rfl⟩, other, leadsAlso, same⟩
    obtain rfl := Except.ok.inj (resolves.symm.trans leads)
    obtain rfl := Except.ok.inj (resolvesAlso.symm.trans leadsAlso)
    exact same.symm
  · intro same
    exact ⟨target.place, ⟨target, resolves, rfl⟩, rival, resolvesAlso, same.symm⟩

instance (tree : FileTree) (first second : Path) : Decidable (tree.SameFile first second) :=
  match resolves : tree.resolve first, resolvesAlso : tree.resolve second with
  | .ok _, .ok _ => decidable_of_iff _ (sameFile_iff resolves resolvesAlso).symm
  | .error _, _ => .isFalse fun ⟨_, ⟨_, leads, _⟩, _⟩ => nomatch resolves.symm.trans leads
  | .ok _, .error _ => .isFalse fun ⟨_, _, _, leads, _⟩ => nomatch resolvesAlso.symm.trans leads

theorem SameDirectories.leadsTo_iff (same : SameDirectories before after) :
    after.LeadsTo path place ↔ before.LeadsTo path place := by
  constructor
  · rintro ⟨target, resolves, rfl⟩
    exact ⟨target, resolve_of_ok same.symm resolves, rfl⟩
  · rintro ⟨target, resolves, rfl⟩
    exact ⟨target, resolve_of_ok same resolves, rfl⟩

theorem leadsTo_of_locate (located : tree.locate path = .ok (place, node)) :
    tree.LeadsTo path place := by
  unfold locate at located
  cases resolves : tree.resolve path with
  | error cause =>
    rw [resolves] at located
    cases located
  | ok target =>
    rw [resolves] at located
    simp only [Except.bind] at located
    refine ⟨target, resolves, ?_⟩
    split at located
    · cases located
    split at located
    · cases located
      rfl
    · split at located <;> cases located
      rfl

theorem exists_located (held : tree.lookUp path = .ok node) :
    ∃ place, tree.locate path = .ok (place, node) := by
  unfold lookUp at held
  cases located : tree.locate path with
  | error cause =>
    rw [located] at held
    cases held
  | ok found =>
    rw [located] at held
    obtain rfl : found.2 = node := Except.ok.inj held
    exact ⟨found.1, rfl⟩

/-- What is no directory is reached by a path without a slash at its end. -/
theorem lookUp_eq_ok_iff (file : node ≠ .directory) : tree.lookUp path = .ok node ↔
    ∃ target, tree.resolve path = .ok target ∧ target.slashed = false ∧
      tree.find target.place = .ok node := by
  unfold lookUp locate
  cases resolves : tree.resolve path with
  | error cause => simp [Except.bind, Except.map]
  | ok target =>
    simp only [Except.bind, Except.ok.injEq, exists_eq_left']
    cases found : tree.find target.place with
    | error cause => simp [Except.map]
    | ok other =>
      cases other with
      | directory => simp [Except.map, Ne.symm file]
      | file content | device device => cases target.slashed <;> simp [Except.map]

/-! ## What is left alone -/

/-- Everything is as it was but at the places that the paths lead to, and the
directories are the same. -/
structure KeepsBut (paths : List Path) (before after : FileTree) : Prop
    extends SameDirectories before after where
  elsewhere : ∀ place, (∀ path ∈ paths, ¬ before.LeadsTo path place) →
    after.node? place = before.node? place
  permissions : ∀ place, (∀ path ∈ paths, ¬ before.LeadsTo path place) → ∀ access,
    after.permits place access = before.permits place access

namespace KeepsBut
variable {paths more : List Path}

theorem refl (paths : List Path) (tree : FileTree) : KeepsBut paths tree tree :=
  ⟨.refl tree, fun _ _ => rfl, fun _ _ _ => rfl⟩

theorem mono (keeps : KeepsBut paths before after) (among : ∀ path ∈ paths, path ∈ more) :
    KeepsBut more before after :=
  ⟨keeps.toSameDirectories,
    fun place apart => keeps.elsewhere place fun path member => apart path (among path member),
    fun place apart => keeps.permissions place fun path member => apart path (among path member)⟩

/-- The paths lead to the same places after the first change as before it. -/
theorem trans (first : KeepsBut paths before middle) (second : KeepsBut paths middle after) :
    KeepsBut paths before after := by
  have later {place : Place} (apart : ∀ path ∈ paths, ¬ before.LeadsTo path place) :
      ∀ path ∈ paths, ¬ middle.LeadsTo path place := fun path member leads =>
    apart path member (first.leadsTo_iff.mp leads)
  refine ⟨first.toSameDirectories.trans second.toSameDirectories, fun place apart => ?_,
    fun place apart access => ?_⟩
  · rw [second.elsewhere place (later apart), first.elsewhere place apart]
  · rw [second.permissions place (later apart), first.permissions place apart]

/-- A change at one place, where no directory stands before or after. -/
theorem of_place (leads : before.LeadsTo path place)
    (workingDirectory : after.workingDirectory = before.workingDirectory)
    (elsewhere : ∀ other, other ≠ place → after.node? other = before.node? other)
    (permissions : ∀ other, other ≠ place → ∀ access,
      after.permits other access = before.permits other access)
    (absentBefore : before.node? place ≠ some .directory)
    (absentAfter : after.node? place ≠ some .directory) : KeepsBut [path] before after := by
  have different {other : Place} (apart : ∀ named ∈ [path], ¬ before.LeadsTo named other) :
      other ≠ place := fun same => apart path List.mem_cons_self (same ▸ leads)
  refine ⟨⟨workingDirectory, fun other => ?_, fun other held => ?_⟩,
    fun other apart => elsewhere other (different apart),
    fun other apart => permissions other (different apart)⟩
  · by_cases same : other = place
    · subst other
      exact ⟨fun held => absurd held absentAfter, fun held => absurd held absentBefore⟩
    · rw [elsewhere other same]
  · refine permissions other (fun same => ?_) .enter
    subst other
    exact absentBefore held

/-- What none of the paths names is located as before. -/
theorem locate (keeps : KeepsBut paths before after) (located : before.locate path = .ok (place, node))
    (apart : ∀ other ∈ paths, ¬ before.SameFile path other) :
    after.locate path = .ok (place, node) ∧ ∀ other ∈ paths, ¬ before.LeadsTo other place := by
  obtain ⟨target, resolves, rfl⟩ := leadsTo_of_locate located
  have elsewhere : ∀ other ∈ paths, ¬ before.LeadsTo other target.place := fun other member leads =>
    apart other member ⟨_, ⟨target, resolves, rfl⟩, leads⟩
  refine ⟨?_, elsewhere⟩
  unfold FileTree.locate at located ⊢
  rw [resolves] at located
  rw [resolve_of_ok keeps.toSameDirectories resolves]
  show (after.find target.place).bind _ = _
  rw [find_congr (keeps.elsewhere _ elsewhere)]
  exact located

/-- A file that none of the paths names is still there, and has the content that it had. -/
theorem lookUp (keeps : KeepsBut paths before after) (held : before.lookUp path = .ok node)
    (apart : ∀ other ∈ paths, ¬ before.SameFile path other) : after.lookUp path = .ok node := by
  obtain ⟨place, located⟩ := exists_located held
  rw [FileTree.lookUp, (keeps.locate located apart).1]
  rfl

end KeepsBut

/-! ## Operations -/

/-- How the tree changes when the place is opened for writing. -/
inductive Created (tree : FileTree) (place : Place) : FileTree → Prop where
  | made (absent : tree.find place = .error .notFound) : Created tree place (tree.makeFile place)
  | emptied {content : Bytes} (held : tree.find place = .ok (.file content)) :
      Created tree place (tree.put place (.file []))
  | device {device : Device} (held : tree.find place = .ok (.device device)) :
      Created tree place tree

theorem create_cases (creates : tree.create path = .ok (after, place)) :
    ∃ target, tree.resolve path = .ok target ∧ target.slashed = false ∧ target.place = place ∧
      tree.Created place after := by
  unfold create at creates
  cases resolves : tree.resolve path with
  | error cause =>
    rw [resolves] at creates
    cases creates
  | ok target =>
    rw [resolves] at creates
    simp only [Except.bind] at creates
    split at creates
    · cases creates
    rename_i plain
    have unslashed : target.slashed = false := by
      simp only [Bool.or_eq_true, not_or, Bool.not_eq_true] at plain
      exact plain.1
    refine ⟨target, rfl, unslashed, ?_⟩
    split at creates
    · rename_i absent
      split at creates
      · cases creates
        exact ⟨rfl, .made absent⟩
      · cases creates
    · cases creates
    · cases creates
    · rename_i node other found
      split at creates
      · cases creates
      split at creates
      · cases creates
        exact ⟨rfl, .emptied found⟩
      · cases creates
        cases node with
        | directory => exact absurd rfl other
        | file content => rename_i regular; exact absurd rfl (regular content)
        | device device => exact ⟨rfl, .device found⟩

theorem Created.no_directory (created : tree.Created place after) :
    tree.node? place ≠ some .directory := by
  cases created with
  | made absent => simp [(find_eq_notFound_iff.mp absent).2]
  | emptied held | device held => simp [(find_eq_ok_iff.mp held).2]

theorem Created.short (created : tree.Created place after) :
    (place.headD []).length ≤ maxName := by
  cases created with
  | made absent => exact (find_eq_notFound_iff.mp absent).1
  | emptied held | device held => exact (find_eq_ok_iff.mp held).1

/-- What has been opened for writing is an empty file or a device. -/
theorem Created.node_cases (created : tree.Created place after) :
    after.node? place = some (.file []) ∨
      after = tree ∧ ∃ device, tree.node? place = some (.device device) := by
  have below := ne_nil_of_no_directory created.no_directory
  cases created with
  | made absent => exact .inl (node?_put_self below)
  | emptied held => exact .inl (node?_put_self below)
  | device held => exact .inr ⟨rfl, _, (find_eq_ok_iff.mp held).2⟩

theorem keepsBut_put (leads : tree.LeadsTo path place) (absent : tree.node? place ≠ some .directory)
    (file : node ≠ .directory) : KeepsBut [path] tree (tree.put place node) :=
  .of_place leads rfl (fun other apart => node?_put_ne apart) (fun _ _ _ => rfl) absent
    (by simp [node?_put_self (ne_nil_of_no_directory absent), file])

theorem keepsBut_of_create (creates : tree.create path = .ok (after, place)) :
    KeepsBut [path] tree after := by
  obtain ⟨target, resolves, -, rfl, created⟩ := create_cases creates
  have absent := created.no_directory
  have below := ne_nil_of_no_directory absent
  have leads : tree.LeadsTo path target.place := ⟨target, resolves, rfl⟩
  cases created with
  | made =>
    have made : (tree.makeFile target.place).node? target.place = some (.file []) :=
      node?_put_self below
    exact .of_place leads rfl (fun other apart => node?_put_ne apart)
      (fun other apart => permits_makeFile_ne apart) absent (by simp [made])
  | emptied => exact keepsBut_put leads absent nofun
  | device => exact .refl _ _

theorem keepsBut_store (leads : tree.LeadsTo path place) (content : Bytes) :
    KeepsBut [path] tree (tree.store place content) := by
  unfold store
  split
  · rename_i held
    exact keepsBut_put leads (by simp [held]) nofun
  · exact .refl _ _

/-- Writing to what has been created changes nothing else either. -/
theorem keepsBut_of_create_store (creates : tree.create path = .ok (after, place)) (content : Bytes) :
    KeepsBut [path] tree (after.store place content) := by
  have keeps := keepsBut_of_create creates
  obtain ⟨target, resolves, -, rfl, -⟩ := create_cases creates
  exact keeps.trans (keepsBut_store ⟨target, resolve_of_ok keeps.toSameDirectories resolves, rfl⟩ content)

/-- What has been written to a file stands there, and to a device nowhere. -/
theorem lookUp_of_create_store (creates : tree.create path = .ok (after, place)) (content : Bytes) :
    (after.store place content).lookUp path = .ok (.file content) ∨
      after.store place content = tree ∧ ∃ device, tree.lookUp path = .ok (.device device) := by
  have keeps := keepsBut_of_create_store creates content
  obtain ⟨target, resolves, unslashed, rfl, created⟩ := create_cases creates
  have short := created.short
  rcases created.node_cases with held | ⟨rfl, device, held⟩
  · left
    have stored : (after.store target.place content).node? target.place = some (.file content) := by
      have absent : after.node? target.place ≠ some .directory := by simp [held]
      have below := ne_nil_of_no_directory absent
      simp only [store, held, node?_put_self below]
    have file : Node.file content ≠ .directory := nofun
    exact (lookUp_eq_ok_iff file).mpr ⟨target, resolve_of_ok keeps.toSameDirectories resolves, unslashed,
      find_eq_ok_iff.mpr ⟨short, stored⟩⟩
  · right
    have file : Node.device device ≠ .directory := nofun
    refine ⟨by simp only [store, held], device, ?_⟩
    exact (lookUp_eq_ok_iff file).mpr ⟨target, resolves, unslashed, find_eq_ok_iff.mpr ⟨short, held⟩⟩

/-- Removed is what a path without a slash or a dot at its end leads to, if it is no directory and
stands in a directory that can be written. -/
theorem remove_eq_ok_iff : tree.remove path = .ok after ↔
    ∃ target node, tree.resolve path = .ok target ∧ target.dotted = false ∧ target.slashed = false ∧
      tree.find target.place = .ok node ∧ node ≠ .directory ∧
      tree.permits target.place.tail .write = true ∧ tree.erase target.place = after := by
  constructor
  · intro removed
    unfold remove at removed
    cases resolves : tree.resolve path with
    | error cause =>
      rw [resolves] at removed
      cases removed
    | ok target =>
      rw [resolves] at removed
      simp only [Except.bind] at removed
      split at removed
      · cases removed
      rename_i undotted
      cases found : tree.find target.place with
      | error cause =>
        rw [found] at removed
        cases removed
      | ok node =>
        rw [found] at removed
        simp only at removed
        split at removed
        · cases removed
        rename_i unslashed
        split at removed
        · cases removed
        rename_i permitted
        split at removed
        · cases removed
        rename_i file
        exact ⟨target, node, rfl, Bool.eq_false_iff.mpr undotted, Bool.eq_false_iff.mpr unslashed,
          found, file, by simpa using permitted, Except.ok.inj removed⟩
  · rintro ⟨target, node, resolves, undotted, unslashed, found, file, permitted, rfl⟩
    simp [remove, resolves, Except.bind, undotted, unslashed, found, file, permitted]

/-- What is removed stood at one place, and was no directory. -/
theorem remove_cases (removed : tree.remove path = .ok after) :
    ∃ target, tree.resolve path = .ok target ∧ tree.node? target.place ≠ some .directory ∧
      after = tree.erase target.place := by
  obtain ⟨target, node, resolves, -, -, found, file, -, erased⟩ := remove_eq_ok_iff.mp removed
  exact ⟨target, resolves, by simp [(find_eq_ok_iff.mp found).2, file], erased.symm⟩

theorem keepsBut_of_remove (removed : tree.remove path = .ok after) : KeepsBut [path] tree after := by
  obtain ⟨target, resolves, absent, rfl⟩ := remove_cases removed
  have below := ne_nil_of_no_directory absent
  exact .of_place ⟨target, resolves, rfl⟩ rfl (fun other apart => node?_erase_ne apart)
    (fun _ _ _ => rfl) absent (by simp [node?_erase_self below])

end ArithAsm.FileTree
