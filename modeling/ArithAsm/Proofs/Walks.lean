import ArithAsm.Proofs.FileEffects
import ArithAsm.Proofs.Path.Parts

/-! Where a path comes to. There are no links, so the place that a path leads to can be told from
its pieces and the place where it begins, whatever stands in the tree. In a tree that is grounded
everything stands in a directory, and then a path that leads to a file ends in the file's name. -/
namespace ArithAsm.FileTree

variable {tree before after : FileTree} {place next : Place} {path : Path} {target : Target}

/-! ## Walks -/

/-- Where a piece leads from a place. -/
def enter (place : Place) (piece : Bytes) : Place :=
  if Path.isIdle piece then place else if piece = Path.up then place.tail else piece :: place

theorem enter_of_idle {piece : Bytes} (idle : Path.isIdle piece = true) : enter place piece = place :=
  if_pos idle

theorem enter_up : enter place Path.up = place.tail := rfl

theorem enter_of_name {piece : Bytes} (active : Path.isIdle piece = false) (proper : piece ≠ Path.up) :
    enter place piece = piece :: place := by
  simp [enter, active, proper]

theorem foldl_enter_of_idle {pieces : List Bytes} (idle : ∀ piece ∈ pieces, Path.isIdle piece = true) :
    pieces.foldl enter place = place := by
  induction pieces with
  | nil => rfl
  | cons piece rest ih =>
    obtain ⟨first, others⟩ := List.forall_mem_cons.mp idle
    rw [List.foldl_cons, enter_of_idle first, ih others]

theorem foldl_enter_filter (pieces : List Bytes) :
    (pieces.filter (· != [])).foldl enter place = pieces.foldl enter place := by
  induction pieces generalizing place with
  | nil => rfl
  | cons piece rest ih =>
    by_cases empty : piece = []
    · subst empty
      exact ih
    · simp [empty, ih]

theorem descend_eq_ok_iff {piece : Bytes} : tree.descend place piece = .ok next ↔
    (tree.find place = .ok .directory ∧ tree.permits place .enter = true) ∧ enter place piece = next := by
  unfold descend
  cases tree.find place with
  | error cause => simp [Except.bind]
  | ok node => cases node <;> cases tree.permits place .enter <;> simp [Except.bind, enter]

theorem follow_cons_eq_ok_iff {piece : Bytes} {rest : List Bytes} :
    tree.follow place (piece :: rest) = .ok next ↔
      (tree.find place = .ok .directory ∧ tree.permits place .enter = true) ∧
        tree.follow (enter place piece) rest = .ok next := by
  rw [follow]
  cases steps : tree.descend place piece with
  | error cause =>
    simp only [Except.bind, reduceCtorEq, false_iff, not_and]
    intro entered
    rw [descend_eq_ok_iff.mpr ⟨entered, rfl⟩] at steps
    cases steps
  | ok inner =>
    obtain ⟨entered, rfl⟩ := descend_eq_ok_iff.mp steps
    simp only [entered, true_and]
    exact Iff.rfl

/-- The place comes from the pieces alone. -/
theorem foldl_enter_of_follow {pieces : List Bytes} (follows : tree.follow place pieces = .ok next) :
    pieces.foldl enter place = next := by
  induction pieces generalizing place with
  | nil => exact Except.ok.inj follows
  | cons piece rest ih => exact ih (follow_cons_eq_ok_iff.mp follows).2

/-- The last piece is entered from a directory. -/
theorem follow_last {first : List Bytes} {last : Bytes}
    (follows : tree.follow place (first ++ [last]) = .ok next) :
    ∃ middle, tree.find middle = .ok .directory ∧ enter middle last = next := by
  induction first generalizing place with
  | nil =>
    obtain ⟨⟨found, -⟩, ends⟩ := follow_cons_eq_ok_iff.mp follows
    exact ⟨place, found, Except.ok.inj ends⟩
  | cons piece rest ih => exact ih (follow_cons_eq_ok_iff.mp follows).2

/-- The place where following a path begins. -/
def origin (tree : FileTree) (path : Path) : Place :=
  if path.head? = some Byte.slash then [] else tree.workingDirectory

/-- The place that a path names. -/
def walk (tree : FileTree) (path : Path) : Place :=
  (Path.pieces path).foldl enter (tree.origin path)

theorem head_of_pieces_empty (nonempty : path ≠ []) (empty : ∀ piece ∈ Path.pieces path, piece = []) :
    path.head? = some Byte.slash := by
  obtain ⟨byte, rest, rfl⟩ := List.exists_cons_of_ne_nil nonempty
  obtain ⟨first, others, shape⟩ := Path.exists_pieces rest
  by_cases slash : byte = Byte.slash
  · rw [slash, List.head?_cons]
  · rw [Path.pieces_cons, if_neg slash, shape, List.modifyHead_cons] at empty
    cases empty _ List.mem_cons_self

/-- A path that can be followed is made of slashes, or has a last name. -/
theorem resolve_cases (resolves : tree.resolve path = .ok target) :
    (tree.origin path = [] ∧ (Path.pieces path).filter (· != []) = [] ∧ target = ⟨[], true, true⟩) ∨
    ∃ first last, (Path.pieces path).filter (· != []) = first ++ [last] ∧
      tree.follow (tree.origin path) (first ++ [last]) = .ok target.place ∧
      target.slashed = decide (path.getLast? = some Byte.slash) ∧
      target.dotted = (decide (last = Path.here) || decide (last = Path.up)) := by
  unfold resolve at resolves
  by_cases zero : path.contains 0 = true
  · rw [if_pos zero] at resolves
    cases resolves
  by_cases empty : path = []
  · rw [if_neg zero, if_pos empty] at resolves
    cases resolves
  by_cases long : maxPath < path.length
  · rw [if_neg zero, if_neg empty, if_pos long] at resolves
    cases resolves
  simp only [if_neg zero, if_neg empty, if_neg long] at resolves
  -- Empty pieces are left out, so a path made of slashes has none.
  rcases List.eq_nil_or_concat ((Path.pieces path).filter (· != [])) with none | ⟨first, last, shape⟩
  · simp only [none, Except.ok.injEq] at resolves
    have rooted := head_of_pieces_empty empty (by simpa using none)
    exact .inl ⟨if_pos rooted, none, resolves.symm⟩
  · rw [List.concat_eq_append] at shape
    refine .inr ⟨first, last, shape, ?_⟩
    obtain ⟨piece, rest, start⟩ : ∃ piece rest, first ++ [last] = piece :: rest :=
      List.exists_cons_of_ne_nil (by simp)
    rw [shape, start] at resolves
    simp only [← start] at resolves
    change Except.map _ (tree.follow (tree.origin path) (first ++ [last])) = _ at resolves
    cases follows : tree.follow (tree.origin path) (first ++ [last]) with
    | error cause =>
      rw [follows] at resolves
      cases resolves
    | ok reached =>
      rw [follows] at resolves
      obtain rfl := Except.ok.inj resolves
      simp

theorem walk_of_resolve (resolves : tree.resolve path = .ok target) : tree.walk path = target.place := by
  rw [walk, ← foldl_enter_filter]
  rcases resolve_cases resolves with ⟨rooted, empty, rfl⟩ | ⟨first, last, shape, follows, -, -⟩
  · rw [rooted, empty]
    rfl
  · rw [shape, foldl_enter_of_follow follows]

theorem walk_of_sameFile {other : Path} (same : tree.SameFile path other) :
    tree.walk path = tree.walk other := by
  obtain ⟨place, ⟨target, resolves, rfl⟩, rival, resolvesAlso, agree⟩ := same
  rw [walk_of_resolve resolves, walk_of_resolve resolvesAlso, agree]

/-- The place to which the pieces before the last one lead. -/
def base (tree : FileTree) (before : List Bytes) : Place :=
  before.foldl enter (if before.head? = some [] then [] else tree.workingDirectory)

theorem base_append {before more : List Bytes} (begins : more.head? ≠ some []) :
    tree.base (before ++ more) = more.foldl enter (tree.base before) := by
  cases before with
  | nil => simp [base, begins]
  | cons first others => simp [base]

/-- The last piece leads on from there, and a tail does not. -/
theorem walk_append_tail (tree : FileTree) {before : List Bytes} {piece tail : Bytes}
    (clean : ∀ piece ∈ before, Byte.slash ∉ piece) (nonempty : piece ≠ [])
    (pieceClean : Byte.slash ∉ piece) (idle : Path.IdleTail tail) :
    tree.walk (Path.lead before ++ (piece ++ tail)) = enter (tree.base before) piece := by
  have rest : ∀ piece ∈ (Path.pieces tail).tail, Path.isIdle piece = true := fun piece member =>
    idle.idle piece (List.mem_of_mem_tail member)
  have start : tree.origin (Path.lead before ++ (piece ++ tail)) =
      if before.head? = some [] then [] else tree.workingDirectory := by
    simp only [origin, Path.head?_eq_slash_iff clean nonempty pieceClean]
  rw [walk, Path.pieces_append_tail clean pieceClean idle, start, List.foldl_append, List.foldl_cons,
    foldl_enter_of_idle rest, base]

theorem walk_lead_append (tree : FileTree) {before : List Bytes} {piece : Bytes}
    (clean : ∀ piece ∈ before, Byte.slash ∉ piece) (nonempty : piece ≠ [])
    (pieceClean : Byte.slash ∉ piece) :
    tree.walk (Path.lead before ++ piece) = enter (tree.base before) piece := by
  have walked := tree.walk_append_tail clean nonempty pieceClean .nil
  rwa [List.append_nil] at walked

theorem walk_of_endsAt (tree : FileTree) {before : List Bytes} {name tail : Bytes}
    (ends : Path.EndsAt path before name tail) (proper : name ≠ Path.up) :
    tree.walk path = name :: tree.base before := by
  rw [ends.eq, tree.walk_append_tail ends.clean ends.nonempty ends.lastClean ends.tail,
    enter_of_name ends.active proper]

theorem length_enter_le (place : Place) (piece : Bytes) :
    (enter place piece).length ≤ place.length + 1 := by
  unfold enter
  split
  · omega
  split
  · rw [List.length_tail]
    omega
  · rw [List.length_cons]

/-- Another piece does not lead to where a name does. -/
theorem enter_ne {piece name : Bytes} (other : piece ≠ name) : enter place piece ≠ name :: place := by
  intro same
  unfold enter at same
  split at same
  · exact absurd (congrArg List.length same) (by simp)
  split at same
  · have lengths := congrArg List.length same
    simp only [List.length_tail, List.length_cons] at lengths
    omega
  · exact other (List.cons.inj same).1

/-! ## Grounded trees -/

/-- Whatever stands in the tree stands in a directory. -/
def Grounded (tree : FileTree) : Prop :=
  ∀ place, tree.node? place ≠ none → tree.node? place.tail = some .directory

/-- It is enough to look at the nodes that are listed. -/
theorem grounded_of_nodes (listed : ∀ entry ∈ tree.nodes, tree.node? entry.1.tail = some .directory) :
    tree.Grounded := by
  intro place held
  by_cases root : place = []
  · rw [root]
    rfl
  · rw [node?, if_neg root, ne_eq, List.lookup_eq_none_iff] at held
    simp only [not_forall] at held
    obtain ⟨entry, member, same⟩ := held
    have here : entry.1 = place := by simpa using Eq.symm (by simpa using same)
    exact here ▸ listed entry member

/-- A final dot, two of them or the root name a directory. -/
theorem Grounded.directory_of_dotted (grounded : tree.Grounded) (resolves : tree.resolve path = .ok target)
    (dotted : target.dotted = true) : tree.node? target.place = some .directory := by
  rcases resolve_cases resolves with ⟨-, -, rfl⟩ | ⟨first, last, -, follows, -, ends⟩
  · rfl
  obtain ⟨middle, found, entered⟩ := follow_last follows
  obtain ⟨-, directory⟩ := find_eq_ok_iff.mp found
  rw [ends, Bool.or_eq_true, decide_eq_true_eq, decide_eq_true_eq] at dotted
  rcases dotted with rfl | rfl
  · rw [← entered]
    exact directory
  · rw [← entered, enter_up]
    exact grounded middle (by simp [directory])

theorem Grounded.undotted_of_file (grounded : tree.Grounded) {node : Node} (file : node ≠ .directory)
    (resolves : tree.resolve path = .ok target) (found : tree.find target.place = .ok node) :
    target.dotted = false := by
  refine Bool.eq_false_iff.mpr fun dotted => ?_
  have directory := grounded.directory_of_dotted resolves dotted
  rw [(find_eq_ok_iff.mp found).2, Option.some.injEq] at directory
  exact file directory

/-- Where a path leads there is a directory to hold what stands there. -/
theorem Grounded.directory_of_leadsTo (grounded : tree.Grounded) (leads : tree.LeadsTo path place) :
    tree.node? place.tail = some .directory := by
  obtain ⟨target, resolves, rfl⟩ := leads
  rcases resolve_cases resolves with ⟨-, -, rfl⟩ | ⟨first, last, -, follows, -, -⟩
  · rfl
  obtain ⟨middle, found, entered⟩ := follow_last follows
  obtain ⟨-, directory⟩ := find_eq_ok_iff.mp found
  have above : tree.node? middle.tail = some .directory := grounded middle (by simp [directory])
  rw [← entered]
  unfold enter
  split
  · exact above
  split
  · exact grounded middle.tail (by simp [above])
  · exact directory

/-- Changes at the ends of paths leave a tree grounded. -/
theorem Grounded.keepsBut {paths : List Path} (grounded : before.Grounded)
    (keeps : KeepsBut paths before after) : after.Grounded := by
  intro place held
  apply (keeps.directories place.tail).mpr
  by_cases named : ∃ path ∈ paths, before.LeadsTo path place
  · obtain ⟨path, -, leads⟩ := named
    exact grounded.directory_of_leadsTo leads
  · have same := keeps.elsewhere place fun path member leads => named ⟨path, member, leads⟩
    exact grounded place (same ▸ held)

/-- A path that ends in no slash and no dot ends in a name. -/
theorem endsAt_of_resolve (resolves : tree.resolve path = .ok target) (unslashed : target.slashed = false)
    (undotted : target.dotted = false) :
    ∃ before name, Path.EndsAt path before name [] ∧ name ≠ Path.up := by
  obtain ⟨before, name, shape⟩ := Path.exists_last path
  obtain ⟨eq, clean, nameClean⟩ := Path.eq_lead_append shape
  rcases resolve_cases resolves with ⟨-, -, rfl⟩ | ⟨first, last, names, -, slash, dots⟩
  · cases unslashed
  rw [unslashed, eq_comm, decide_eq_false_iff_not] at slash
  have nonempty : name ≠ [] := by
    rintro rfl
    rcases List.eq_nil_or_concat before with rfl | ⟨front, piece, rfl⟩
    · simp [shape] at names
    · rw [eq] at slash
      simp [Path.lead] at slash
  have same : name = last := by
    have kept : [name].filter (· != []) = [name] := by simp [nonempty]
    rw [shape, List.filter_append, kept] at names
    exact List.singleton_inj.mp (List.append_inj_right' names rfl)
  rw [undotted, eq_comm, Bool.or_eq_false_iff, decide_eq_false_iff_not, decide_eq_false_iff_not,
    ← same] at dots
  have active : Path.isIdle name = false := by simp [Path.isIdle, nonempty, dots.1]
  exact ⟨before, name, ⟨by simpa using eq, clean, nameClean, active, .nil⟩, dots.2⟩

/-- A path that leads to a file ends in the file's name. -/
theorem Grounded.endsAt_of_file (grounded : tree.Grounded) {content : Bytes}
    (held : tree.lookUp path = .ok (.file content)) :
    ∃ before name, Path.EndsAt path before name [] ∧ name ≠ Path.up := by
  obtain ⟨target, resolves, unslashed, found⟩ := (lookUp_eq_ok_iff (by simp)).mp held
  exact endsAt_of_resolve resolves unslashed (grounded.undotted_of_file (by simp) resolves found)

end ArithAsm.FileTree
