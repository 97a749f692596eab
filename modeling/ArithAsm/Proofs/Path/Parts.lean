import ArithAsm.Host.Path
import Mathlib.Data.List.TakeDrop
import Mathlib.Data.List.TakeWhile

/-! The parts of a path. Cutting a path at its slashes and joining the pieces are inverse
to each other, so a path can be taken apart around the last piece that leads somewhere: what
leads to it, the piece, and a tail that goes nowhere. Two paths are alike only if they make
the same steps, and the file name is the last step if that is a name. -/
namespace ArithAsm.Path

/-! ## Pieces -/

/-- The beginning of a path that the given pieces make, each with the slash behind it. -/
def lead (pieces : List Bytes) : Bytes :=
  pieces.flatMap (· ++ [Byte.slash])

theorem ofPieces_append (before : List Bytes) (piece : Bytes) (more : List Bytes) :
    ofPieces (before ++ piece :: more) = lead before ++ ofPieces (piece :: more) := by
  induction before with
  | nil => simp [lead]
  | cons first rest ih =>
    obtain ⟨next, others, shape⟩ : ∃ next others, rest ++ piece :: more = next :: others :=
      List.exists_cons_of_ne_nil (by simp)
    rw [shape] at ih
    simp only [ofPieces, lead, List.cons_append, shape, List.flatMap_cons] at ih ⊢
    rw [List.intercalate_cons_cons, ih]
    simp

theorem ofPieces_singleton (piece : Bytes) : ofPieces [piece] = piece := by
  simp [ofPieces]

/-- What stands at the front of the first piece can be split off. -/
theorem ofPieces_cons (piece : Bytes) (more : List Bytes) :
    ofPieces (piece :: more) = piece ++ ofPieces ([] :: more) := by
  cases more with
  | nil => simp [ofPieces]
  | cons next others => simp [ofPieces, List.intercalate_cons_cons]

theorem ofPieces_pieces (path : Path) : ofPieces (pieces path) = path :=
  List.intercalate_splitOn Byte.slash

theorem pieces_cons (byte : UInt8) (rest : Bytes) : pieces (byte :: rest) =
    if byte = Byte.slash then [] :: pieces rest else (pieces rest).modifyHead (byte :: ·) := by
  simp only [pieces, List.splitOn_cons_eq_if_modifyHead, beq_iff_eq]

theorem exists_pieces (path : Path) : ∃ first others, pieces path = first :: others :=
  List.exists_cons_of_ne_nil (List.splitOn_ne_nil Byte.slash path)

theorem slash_notMem_of_mem {path : Path} {piece : Bytes} (member : piece ∈ pieces path) :
    Byte.slash ∉ piece := by
  induction path generalizing piece with
  | nil => simp_all [pieces]
  | cons byte rest ih =>
    rw [pieces_cons] at member
    by_cases slash : byte = Byte.slash
    · rw [if_pos slash] at member
      rcases List.mem_cons.mp member with rfl | later
      · exact List.not_mem_nil
      · exact ih later
    · obtain ⟨first, others, shape⟩ := exists_pieces rest
      rw [if_neg slash, shape, List.modifyHead_cons] at member
      rcases List.mem_cons.mp member with rfl | later
      · simp [Ne.symm slash, ih (shape ▸ List.mem_cons_self)]
      · exact ih (shape ▸ List.mem_cons_of_mem first later)

/-- Bytes without a slash go to the front of the first piece. -/
theorem pieces_append_of_notMem {front : Bytes} (clean : Byte.slash ∉ front) (rest : Bytes) :
    pieces (front ++ rest) = (pieces rest).modifyHead (front ++ ·) := by
  obtain ⟨first, others, shape⟩ := exists_pieces rest
  induction front with
  | nil => simp [shape]
  | cons byte front ih =>
    obtain ⟨other, clean⟩ := List.ne_and_not_mem_of_not_mem_cons clean
    rw [List.cons_append, pieces_cons, if_neg (Ne.symm other), ih clean, shape]
    rfl

theorem pieces_of_notMem {piece : Bytes} (clean : Byte.slash ∉ piece) : pieces piece = [piece] :=
  List.splitOn_eq_singleton clean

theorem pieces_lead_append {before : List Bytes} (clean : ∀ piece ∈ before, Byte.slash ∉ piece)
    (rest : Bytes) : pieces (lead before ++ rest) = before ++ pieces rest := by
  induction before with
  | nil => rfl
  | cons piece before ih =>
    obtain ⟨first, others⟩ := List.forall_mem_cons.mp clean
    have shape : lead (piece :: before) ++ rest = piece ++ Byte.slash :: (lead before ++ rest) := by
      simp [lead]
    rw [shape, pieces, List.splitOn_append_cons_self_of_not_mem first, ← pieces, ih others,
      List.cons_append]

theorem pieces_ofPieces {first : Bytes} {others : List Bytes}
    (clean : ∀ piece ∈ first :: others, Byte.slash ∉ piece) :
    pieces (ofPieces (first :: others)) = first :: others :=
  List.splitOn_intercalate Byte.slash clean (List.cons_ne_nil first others)

/-- A path is what leads to its last piece, and that piece. -/
theorem eq_lead_append {path : Path} {before : List Bytes} {last : Bytes}
    (shape : pieces path = before ++ [last]) : path = lead before ++ last ∧
      (∀ piece ∈ before, Byte.slash ∉ piece) ∧ Byte.slash ∉ last := by
  refine ⟨?_, fun piece member => ?_, ?_⟩
  · rw [← ofPieces_pieces path, shape, ofPieces_append, ofPieces_singleton]
  · have within : piece ∈ pieces path := by simp [shape, member]
    exact slash_notMem_of_mem within
  · have within : last ∈ pieces path := by simp [shape]
    exact slash_notMem_of_mem within

theorem exists_last (path : Path) : ∃ before last, pieces path = before ++ [last] := by
  rcases List.eq_nil_or_concat (pieces path) with none | ⟨before, last, shape⟩
  · cases List.splitOn_ne_nil Byte.slash path none
  · exact ⟨before, last, by rw [shape, List.concat_eq_append]⟩

/-! ## Tails -/

theorem isIdle_iff {piece : Bytes} : isIdle piece = true ↔ piece = [] ∨ piece = here := by
  simp [isIdle]

/-- The bytes can stand behind a piece without leading anywhere. -/
structure IdleTail (tail : Bytes) : Prop where
  head : (pieces tail).head? = some []
  idle : ∀ piece ∈ pieces tail, isIdle piece = true

theorem IdleTail.nil : IdleTail [] :=
  ⟨rfl, by simp [pieces, isIdle]⟩

/-- A piece of a beginning is the beginning of a piece. -/
theorem exists_piece_of_append {front : Bytes} (rest : Bytes) {piece : Bytes}
    (member : piece ∈ pieces front) : ∃ whole ∈ pieces (front ++ rest), piece <+: whole := by
  obtain ⟨before, last, shape⟩ := exists_last front
  obtain ⟨eq, clean, lastClean⟩ := eq_lead_append shape
  obtain ⟨first, others, more⟩ := exists_pieces rest
  rw [eq, List.append_assoc, pieces_lead_append clean, pieces_append_of_notMem lastClean, more,
    List.modifyHead_cons]
  rw [shape, List.mem_append, List.mem_singleton] at member
  rcases member with early | rfl
  · exact ⟨piece, by simp [early], List.prefix_rfl⟩
  · exact ⟨piece ++ first, by simp, List.prefix_append _ _⟩

theorem IdleTail.take {tail : Bytes} (idle : IdleTail tail) (count : Nat) :
    IdleTail (tail.take count) := by
  constructor
  · cases tail with
    | nil => simp [pieces]
    | cons byte rest =>
      cases count with
      | zero => rfl
      | succ count =>
        have head := idle.head
        rw [List.take_succ_cons, pieces_cons]
        rw [pieces_cons] at head
        by_cases slash : byte = Byte.slash
        · rw [if_pos slash, List.head?_cons]
        · obtain ⟨first, others, shape⟩ := exists_pieces rest
          simp [if_neg slash, shape] at head
  · intro piece member
    obtain ⟨whole, among, begins⟩ := exists_piece_of_append (tail.drop count) member
    rw [List.take_append_drop] at among
    rcases isIdle_iff.mp (idle.idle whole among) with rfl | rfl
    · rw [List.prefix_nil.mp begins]
      rfl
    · rcases List.prefix_cons_iff.mp begins with rfl | ⟨rest, rfl, nothing⟩
      · rfl
      · rw [List.prefix_nil.mp nothing]
        rfl

theorem IdleTail.eq_nil {tail : Bytes} (idle : IdleTail tail) (alone : (pieces tail).tail = []) :
    tail = [] := by
  obtain ⟨first, others, shape⟩ := exists_pieces tail
  have empty : first = [] := by simpa [shape] using idle.head
  have none : others = [] := by simpa [shape] using alone
  rw [← ofPieces_pieces tail, shape, empty, none, ofPieces_singleton]

/-- A tail adds idle pieces to those in front of it. -/
theorem pieces_append_tail {before : List Bytes} {piece tail : Bytes}
    (clean : ∀ piece ∈ before, Byte.slash ∉ piece) (pieceClean : Byte.slash ∉ piece)
    (idle : IdleTail tail) :
    pieces (lead before ++ (piece ++ tail)) = before ++ piece :: (pieces tail).tail := by
  obtain ⟨first, others, shape⟩ := exists_pieces tail
  have empty : first = [] := by simpa [shape] using idle.head
  rw [pieces_lead_append clean, pieces_append_of_notMem pieceClean, shape, empty]
  simp

/-! ## The last piece that leads somewhere -/

/-- The path leads through `before` to `last`, and its tail goes nowhere. -/
structure EndsAt (path : Path) (before : List Bytes) (last tail : Bytes) : Prop where
  eq : path = lead before ++ (last ++ tail)
  clean : ∀ piece ∈ before, Byte.slash ∉ piece
  lastClean : Byte.slash ∉ last
  active : isIdle last = false
  tail : IdleTail tail

variable {path : Path} {before : List Bytes} {last tail : Bytes}

theorem EndsAt.pieces_eq (ends : EndsAt path before last tail) :
    pieces path = before ++ last :: (pieces tail).tail := by
  rw [ends.eq, pieces_append_tail ends.clean ends.lastClean ends.tail]

theorem EndsAt.nonempty (ends : EndsAt path before last tail) : last ≠ [] := by
  rintro rfl
  cases ends.active

/-- Another name can stand for the last piece. -/
theorem EndsAt.sibling (ends : EndsAt path before last tail) {name : Bytes}
    (clean : Byte.slash ∉ name) (active : isIdle name = false) :
    EndsAt (lead before ++ name) before name [] :=
  ⟨by rw [List.append_nil], ends.clean, clean, active, .nil⟩

theorem EndsAt.idle_tail (ends : EndsAt path before last tail) :
    ∀ piece ∈ (pieces tail).tail, isIdle piece = true :=
  fun piece member => ends.tail.idle piece (List.mem_of_mem_tail member)

/-- There is no tail, or it ends in an idle piece. -/
theorem EndsAt.tail_cases (ends : EndsAt path before last tail) :
    tail = [] ∧ pieces path = before ++ [last] ∨
      ∃ idle final, (∀ piece ∈ idle, isIdle piece = true) ∧ isIdle final = true ∧
        pieces path = (before ++ last :: idle) ++ [final] := by
  rcases List.eq_nil_or_concat (pieces tail).tail with none | ⟨idle, final, shape⟩
  · exact .inl ⟨ends.tail.eq_nil none, by rw [ends.pieces_eq, none]⟩
  · rw [List.concat_eq_append] at shape
    refine .inr ⟨idle, final, fun piece member => ?_, ?_, ?_⟩
    · exact ends.idle_tail piece (by simp [shape, member])
    · exact ends.idle_tail final (by simp [shape])
    · rw [ends.pieces_eq, shape]
      simp

/-- A path leads to a last piece, or all of its pieces are idle. -/
theorem endsAt_or_idle (path : Path) : (∃ before last tail, EndsAt path before last tail) ∨
    ∀ piece ∈ pieces path, isIdle piece = true := by
  have parts : (pieces path).reverse.takeWhile isIdle ++ (pieces path).reverse.dropWhile isIdle =
      (pieces path).reverse := List.takeWhile_append_dropWhile
  cases rest : (pieces path).reverse.dropWhile isIdle with
  | nil => exact .inr fun piece member =>
      List.dropWhile_eq_nil_iff.mp rest piece (List.mem_reverse.mpr member)
  | cons last others =>
    obtain ⟨idle, taken⟩ : ∃ idle, idle = (pieces path).reverse.takeWhile isIdle := ⟨_, rfl⟩
    rw [rest, ← taken] at parts
    have whole : pieces path = others.reverse ++ last :: idle.reverse := by
      rw [← List.reverse_reverse (pieces path), ← parts]
      simp
    have clean : ∀ piece ∈ others.reverse ++ last :: idle.reverse, Byte.slash ∉ piece :=
      fun piece member => slash_notMem_of_mem (whole ▸ member)
    have trailing : pieces (ofPieces ([] :: idle.reverse)) = [] :: idle.reverse := by
      refine pieces_ofPieces (List.forall_mem_cons.mpr ⟨List.not_mem_nil, fun piece member => ?_⟩)
      exact clean piece (by simp [List.mem_reverse.mp member])
    refine .inl ⟨others.reverse, last, ofPieces ([] :: idle.reverse), ?_, ?_, ?_, ?_, ?_, ?_⟩
    · rw [← ofPieces_cons, ← ofPieces_append, ← whole, ofPieces_pieces]
    · exact fun piece member => clean piece (List.mem_append_left _ member)
    · exact clean last (by simp)
    · simpa [rest] using List.head_dropWhile_not isIdle (l := (pieces path).reverse) (by simp [rest])
    · simp [trailing]
    · rw [trailing]
      refine List.forall_mem_cons.mpr ⟨rfl, fun piece member => ?_⟩
      rw [List.mem_reverse, taken] at member
      exact List.mem_takeWhile_imp member

theorem EndsAt.leaf?_eq (ends : EndsAt path before last tail) :
    leaf? path = if last = up then none else some (before, last) := by
  have idle : ∀ piece ∈ (pieces tail).tail.reverse, isIdle piece = true :=
    fun piece member => ends.idle_tail piece (List.mem_reverse.mp member)
  have active : ¬ isIdle last = true := by simp [ends.active]
  rw [leaf?, ends.pieces_eq, List.reverse_append, List.reverse_cons, List.append_assoc,
    List.dropWhile_append_of_pos idle, List.singleton_append,
    List.dropWhile_cons_of_neg active]
  simp

theorem leaf?_of_idle (idle : ∀ piece ∈ pieces path, isIdle piece = true) : leaf? path = none := by
  have nothing : (pieces path).reverse.dropWhile isIdle = [] :=
    List.dropWhile_eq_nil_iff.mpr fun piece member => idle piece (List.mem_reverse.mp member)
  rw [leaf?, nothing]

/-- A path has no file name, or ends at one. -/
theorem leaf?_cases (path : Path) : leaf? path = none ∨
    ∃ before name tail, EndsAt path before name tail ∧ name ≠ up := by
  rcases endsAt_or_idle path with ⟨before, last, tail, ends⟩ | idle
  · by_cases above : last = up
    · exact .inl (by rw [ends.leaf?_eq, if_pos above])
    · exact .inr ⟨before, last, tail, ends, above⟩
  · exact .inl (leaf?_of_idle idle)

/-! ## Steps -/

/-- The steps that pieces make. -/
def steps (pieces : List Bytes) : List Component :=
  (pieces.filter (!isIdle ·)).map component

theorem steps_append (first second : List Bytes) :
    steps (first ++ second) = steps first ++ steps second := by
  simp [steps]

theorem steps_of_idle {pieces : List Bytes} (idle : ∀ piece ∈ pieces, isIdle piece = true) :
    steps pieces = [] := by
  simpa [steps] using idle

theorem steps_cons_of_active {piece : Bytes} (active : isIdle piece = false) (rest : List Bytes) :
    steps (piece :: rest) = component piece :: steps rest := by
  simp [steps, active]

theorem EndsAt.steps_eq (ends : EndsAt path before last tail) :
    steps (pieces path) = steps before ++ [component last] := by
  rw [ends.pieces_eq, steps_append, steps_cons_of_active ends.active, steps_of_idle ends.idle_tail]

theorem components_eq (path : Path) : ∃ front, (front = [] ∨ front = [.root] ∨ front = [.here]) ∧
    components path = front ++ steps (pieces path) := by
  refine ⟨_, ?_, rfl⟩
  split
  · simp
  split <;> simp

/-- The steps of a path can be told from its components. -/
theorem filter_components (path : Path) :
    (components path).filter (fun part => part != .root && part != .here) = steps (pieces path) := by
  have made : ∀ piece, (component piece != .root && component piece != .here) = true := by
    intro piece
    unfold component
    split <;> rfl
  have kept : (steps (pieces path)).filter (fun part => part != .root && part != .here) =
      steps (pieces path) := by
    simp [steps, List.filter_map, Function.comp_def, made]
  obtain ⟨front, rfl | rfl | rfl, shape⟩ := components_eq path <;>
    simp [shape, kept]

theorem steps_of_alike {other : Path} (same : alike path other = true) :
    steps (pieces path) = steps (pieces other) := by
  rw [← filter_components, ← filter_components, beq_iff_eq.mp same]

theorem steps_lead_append {piece : Bytes} (clean : ∀ piece ∈ before, Byte.slash ∉ piece)
    (pieceClean : Byte.slash ∉ piece) :
    steps (pieces (lead before ++ piece)) = steps before ++ steps [piece] := by
  rw [pieces_lead_append clean, pieces_of_notMem pieceClean, steps_append]

theorem alike_comm (path other : Path) : alike path other = alike other path := by
  simp only [alike, BEq.comm]

/-- Another piece in the place of the file name makes another path. -/
theorem EndsAt.not_alike (ends : EndsAt path before last tail) (proper : last ≠ up) {piece : Bytes}
    (clean : Byte.slash ∉ piece) (other : piece ≠ last) : alike (lead before ++ piece) path = false := by
  refine Bool.eq_false_iff.mpr fun same => ?_
  have made := steps_of_alike same
  rw [steps_lead_append ends.clean clean, ends.steps_eq, List.append_cancel_left_eq] at made
  by_cases idle : isIdle piece = true
  · rw [steps_of_idle (List.forall_mem_singleton.mpr idle)] at made
    cases made
  · rw [steps_cons_of_active (Bool.not_eq_true _ ▸ idle)] at made
    simp only [component, proper, ↓reduceIte] at made
    split at made
    · cases made
    · exact other (Component.name.inj (List.cons.inj made).1)

theorem head?_append_ne_slash {front : Bytes} (nonempty : front ≠ []) (clean : Byte.slash ∉ front)
    (rest : Bytes) : (front ++ rest).head? ≠ some Byte.slash := by
  obtain ⟨byte, others, rfl⟩ := List.exists_cons_of_ne_nil nonempty
  rintro ⟨⟩
  exact clean List.mem_cons_self

/-- Whether a path begins at the root can be told from what leads to its last piece. -/
theorem head?_eq_slash_iff {piece : Bytes} (clean : ∀ piece ∈ before, Byte.slash ∉ piece)
    (nonempty : piece ≠ []) (pieceClean : Byte.slash ∉ piece) (rest : Bytes) :
    (lead before ++ (piece ++ rest)).head? = some Byte.slash ↔ before.head? = some [] := by
  cases before with
  | nil => exact iff_of_false (head?_append_ne_slash nonempty pieceClean rest) nofun
  | cons first others =>
    have front : lead (first :: others) ++ (piece ++ rest) =
        first ++ (Byte.slash :: (lead others ++ (piece ++ rest))) := by simp [lead]
    rw [front]
    by_cases empty : first = []
    · simp [empty]
    · exact iff_of_false (head?_append_ne_slash empty (clean first List.mem_cons_self) _)
        (by simp [empty])

/-- A tail does not count. -/
theorem EndsAt.alike_without_tail (ends : EndsAt path before last tail) :
    alike (lead before ++ last) path = true := by
  have bare := ends.sibling ends.lastClean ends.active
  have heads : (lead before ++ last).head? = some Byte.slash ↔ path.head? = some Byte.slash := by
    rw [bare.eq, ends.eq, head?_eq_slash_iff ends.clean ends.nonempty ends.lastClean,
      head?_eq_slash_iff ends.clean ends.nonempty ends.lastClean]
  have firsts : (pieces (lead before ++ last)).head? = (pieces path).head? := by
    rw [bare.pieces_eq, ends.pieces_eq]
    cases before <;> rfl
  have sameSteps : steps (pieces (lead before ++ last)) = steps (pieces path) := by
    rw [bare.steps_eq, ends.steps_eq]
  rw [steps, steps] at sameSteps
  simp only [alike, beq_iff_eq, components, heads, firsts, sameSteps]

/-- The file name is the last component, if that is a name. -/
theorem fileName?_eq_some_iff {name : Bytes} :
    fileName? path = some name ↔ (components path).getLast? = some (.name name) := by
  obtain ⟨front, fronts, shape⟩ := components_eq path
  rw [fileName?, shape]
  rcases endsAt_or_idle path with ⟨before, last, tail, ends⟩ | idle
  · rw [ends.leaf?_eq, ends.steps_eq, ← List.append_assoc, List.getLast?_concat]
    unfold component
    split <;> simp
  · rw [leaf?_of_idle idle, steps_of_idle idle, List.append_nil]
    rcases fronts with rfl | rfl | rfl <;> simp

theorem fileName?_eq_none_iff : fileName? path = none ↔
    (components path).getLast? ∈ [none, some .root, some .here, some .up] := by
  rw [Option.eq_none_iff_forall_ne_some]
  simp only [ne_eq, fileName?_eq_some_iff]
  rcases (components path).getLast? with _ | (_ | _ | _ | name) <;> simp

end ArithAsm.Path
