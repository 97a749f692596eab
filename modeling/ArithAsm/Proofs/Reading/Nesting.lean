import ArithAsm.Proofs.Reading.Depth
import ArithAsm.Proofs.Reading.Descent
import ArithAsm.Proofs.Reading.Exactness

/-! How deep forms stand in each other. The levels that a descent counts are at every
moment those of the forms that have not returned, whichever way the forms before them
returned, so a form is refused exactly where it is too deep. -/
namespace ArithAsm

/-- Whether the caller of the call just left has a form or a fault at hand. -/
def Task.isReturn : Task → Bool
  | give _ | fail _ => true
  | proceed | enter | dispatch | collect _ | done _ => false

namespace Descent
variable {descent later : Descent} {outer : List Activation}

/-- What one moment can do to the calls and to the levels counted. -/
inductive Moves (descent later : Descent) : Prop where
  /-- A form is let in. -/
  | admitted (room : descent.depth < maxNesting) (calls : later.calls = .form :: descent.calls)
      (counted : later.depth = descent.depth + 1)
  /-- A form returns. -/
  | returned (finished : later.task.isReturn = true) (calls : descent.calls = .form :: later.calls)
      (counted : later.depth = descent.depth - 1)
  /-- No form is let in or returns. -/
  | kept (before after : List Activation) {outer : List Activation} (calls : descent.calls = before ++ outer)
      (changed : later.calls = after ++ outer) (others : (before ++ after).any Activation.isForm = false)
      (counted : later.depth = descent.depth)

theorem Moves.unchanged (calls : later.calls = descent.calls) (counted : later.depth = descent.depth) :
    descent.Moves later :=
  .kept [] [] rfl calls rfl counted

theorem moves_takeFirst (descent : Descent) : descent.Moves descent.takeFirst := by
  obtain ⟨list, stop, depth, calls, task⟩ := descent
  cases list with
  | nil => exact .unchanged rfl rfl
  | cons token rest =>
    obtain ⟨lexeme, offset⟩ := token
    cases lexeme with
    | openGroup => exact .kept [] [.group offset []] rfl rfl rfl rfl
    | closeGroup | plus | minus => exact .unchanged rfl rfl
    | numeral digits =>
      simp only [takeFirst]
      cases Literal.read offset digits with
      | ok number | error rejection => exact .unchanged rfl rfl
    | word name =>
      simp only [takeFirst]
      cases Keyword.ofWord? name with
      | none => exact .unchanged rfl rfl
      | some keyword =>
        cases keyword
        exact .kept [] [.dump] rfl rfl rfl rfl

theorem moves_takeOperand (descent : Descent) (run : OperandRun) :
    descent.Moves (descent.takeOperand run) := by
  have same : (descent.takeOperand run).calls = descent.calls ∧
      (descent.takeOperand run).depth = descent.depth := by
    unfold takeOperand
    repeat' split
    all_goals exact ⟨rfl, rfl⟩
  exact .unchanged same.1 same.2

theorem moves_of_next (follows : descent.next = some later) : descent.Moves later := by
  obtain ⟨list, stop, depth, calls, task⟩ := descent
  -- The cases are those of `next`: by the task, and then by the innermost call.
  cases task with
  | proceed =>
    cases calls with
    | nil => cases follows
    | cons call outer =>
      cases call with
      | form | dump => cases follows
      | program forms =>
        cases outer with
        | cons => cases follows
        | nil =>
          simp only [next] at follows
          split at follows <;> cases follows
          · exact .kept [.program forms] [] rfl rfl rfl rfl
          · exact .unchanged rfl rfl
          · exact .unchanged rfl rfl
      | group begins members =>
        simp only [next] at follows
        split at follows <;> cases follows
        · exact .kept [.group begins members] [] rfl rfl rfl rfl
        · exact .kept [.group begins members] [] rfl rfl rfl rfl
        · exact .unchanged rfl rfl
  | enter =>
    simp only [next] at follows
    split at follows
    · cases follows
      exact .unchanged rfl rfl
    · rename_i room
      cases follows
      exact .admitted (Nat.lt_of_not_le room) rfl rfl
  | dispatch =>
    cases follows
    exact moves_takeFirst _
  | collect run =>
    cases follows
    exact moves_takeOperand _ run
  | give form =>
    cases calls with
    | nil => cases follows
    | cons call outer =>
      cases call with
      | form =>
        cases follows
        exact .returned rfl rfl rfl
      | dump =>
        cases follows
        exact .kept [.dump] [] rfl rfl rfl rfl
      | program forms =>
        cases follows
        exact .kept [.program forms] [.program (form :: forms)] rfl rfl rfl rfl
      | group begins members =>
        cases follows
        exact .kept [.group begins members] [.group begins (form :: members)] rfl rfl rfl rfl
  | fail rejection =>
    cases calls with
    | nil =>
      cases follows
      exact .unchanged rfl rfl
    | cons call outer =>
      cases call with
      | form =>
        cases follows
        exact .returned rfl rfl rfl
      | program | dump | group =>
        cases follows
        exact .kept [_] [] rfl rfl rfl rfl
  | done result => cases follows

/-! ## Levels are counted one for one -/

/-- The levels counted are those of the forms that have not returned. -/
structure Counted (descent : Descent) : Prop where
  exact : descent.depth = descent.activeForms
  bounded : descent.depth ≤ maxNesting

theorem Counted.start (source : Bytes) : (Descent.start source).Counted :=
  ⟨rfl, Nat.zero_le _⟩

theorem Counted.next (counted : descent.Counted) (follows : descent.next = some later) :
    later.Counted := by
  obtain ⟨exact, bounded⟩ := counted
  unfold activeForms at exact
  cases moves_of_next follows with
  | admitted room calls deeper =>
    refine ⟨?_, by omega⟩
    rw [activeForms, calls, List.countP_cons_of_pos rfl, deeper, exact]
  | returned finished calls shallower =>
    rw [calls, List.countP_cons_of_pos rfl] at exact
    refine ⟨?_, by omega⟩
    rw [activeForms]
    omega
  | kept before after calls changed others same =>
    have none (list : List Activation) (among : list ⊆ before ++ after) :
        list.countP Activation.isForm = 0 :=
      List.countP_eq_zero.mpr fun call member => List.any_eq_false.mp others call (among member)
    refine ⟨?_, by omega⟩
    rw [calls, List.countP_append, none before (by simp)] at exact
    rw [activeForms, changed, List.countP_append, none after (by simp), same, exact]

/-- However far a descent has come, the levels are counted one for one. -/
theorem Counted.reaches (counted : descent.Counted) (reaches : descent.Reaches later) : later.Counted := by
  induction reaches with
  | refl => exact counted
  | tail _ follows ih => exact ih.next follows

/-! ## Every form returns -/

/-- The call made on top of `outer` is over. -/
structure Returned (outer : List Activation) (descent : Descent) : Prop where
  calls : descent.calls = outer
  finished : descent.task.isReturn = true

/-- A form that was let in on top of `outer` has not returned. -/
def Inside (outer : List Activation) (descent : Descent) : Prop :=
  ∃ inner, descent.calls = inner ++ .form :: outer

/-- From one moment to the next a form either stays on the stack or returns. -/
theorem Inside.next (inside : descent.Inside outer) (follows : descent.next = some later) :
    later.Inside outer ∨ later.Returned outer := by
  obtain ⟨inner, shape⟩ := inside
  cases moves_of_next follows with
  | admitted room calls deeper => exact .inl ⟨.form :: inner, by rw [calls, shape]; rfl⟩
  | returned finished calls shallower =>
    cases inner with
    | nil =>
      obtain ⟨-, same⟩ := List.cons.inj (calls.symm.trans shape)
      exact .inr ⟨same, finished⟩
    | cons call inner =>
      obtain ⟨-, same⟩ := List.cons.inj (calls.symm.trans shape)
      exact .inl ⟨inner, same⟩
  | kept before after calls changed others same =>
    -- The form is none of the calls that change, so it is below them.
    rcases List.append_eq_append_iff.mp (calls.symm.trans shape) with
      ⟨between, rfl, below⟩ | ⟨between, rfl, below⟩
    · exact .inl ⟨after ++ between, by rw [changed, below, List.append_assoc]⟩
    · cases between with
      | nil => exact .inl ⟨after, by rw [changed, below, List.nil_append]⟩
      | cons call between =>
        obtain ⟨rfl, -⟩ := List.cons.inj below
        exact absurd rfl (List.any_eq_false.mp others .form (by simp))

/-- A form returns if the descent leaves no call behind. -/
theorem Inside.returns (inside : descent.Inside outer) (reaches : descent.Reaches later)
    (bare : later.calls = []) : ∃ exit, descent.Reaches exit ∧ exit.Returned outer := by
  induction reaches using Relation.ReflTransGen.head_induction_on with
  | refl =>
    obtain ⟨inner, shape⟩ := inside
    simp [bare] at shape
  | head follows _ ih =>
    rcases inside.next follows with within | returned
    · obtain ⟨exit, onward, returned⟩ := ih within
      exact ⟨exit, .head follows onward, returned⟩
    · exact ⟨_, reaches_next follows, returned⟩

/-- A form that is called for is let in or refused, and either way the call returns. -/
theorem returns_of_enter {source : Bytes} (reached : (Descent.start source).Reaches descent)
    (called : descent.task = .enter) : ∃ exit, descent.Reaches exit ∧ exit.Returned descent.calls := by
  obtain ⟨final, ends, bare, done⟩ := ends_read source
  have single : Relator.RightUnique fun descent later : Descent => descent.next = some later := by
    intro descent later other first second
    exact Option.some.inj (first.symm.trans second)
  rcases Relation.ReflTransGen.total_of_right_unique single reached ends with onward | back
  · rcases onward.cases_head with rfl | ⟨later, follows, rest⟩
    · cases called.symm.trans done
    have begun := follows
    simp only [next, called] at begun
    split at begun <;> cases begun
    · exact ⟨_, reaches_next follows, rfl, rfl⟩
    · have inside : Inside descent.calls { descent with
          depth := descent.depth + 1, calls := .form :: descent.calls, task := .dispatch } := ⟨[], rfl⟩
      obtain ⟨exit, onward, returned⟩ := inside.returns rest bare
      exact ⟨exit, .head follows onward, returned⟩
  · -- Nothing comes behind the end, where no form is called for.
    rcases back.cases_head with rfl | ⟨later, follows, -⟩
    · cases called.symm.trans done
    · simp [next, done] at follows

end Descent

/-- The levels counted are at every moment of a descent those of the forms that have not
returned, never more than the limit, and every form that is called for leaves as many as it
found, whether it returns a form or a fault. So tokens that write a program are read as that
program if it is not too high, and otherwise refused at the first that begins a form inside
of as many others as the limit allows. -/
theorem nesting_is_counted_and_limited (source : Bytes) :
    (Descent.start source).Ends (read source) ∧
    (∀ descent, (Descent.start source).Reaches descent →
      descent.depth = descent.activeForms ∧ descent.depth ≤ maxNesting ∧
      (descent.task = .enter →
        (∃ exit, descent.Reaches exit ∧ exit.Returned descent.calls) ∧
        ∀ exit, descent.Reaches exit → exit.Returned descent.calls → exit.depth = descent.depth)) ∧
    ∀ program : Program, List.Forall₂ Leaf.WrittenBy program.leaves (tokens source) →
      program.Supplied → Separated program.leaves →
      (program.height ≤ maxNesting → parse source = .ok program) ∧
      (maxNesting < program.height → ∃ token,
        firstAtLimit? (program.levels 0) (tokens source) = some token ∧
        parse source =
          .error (.malformed (Location.of source token.start) (.nestingTooDeep maxNesting))) := by
  refine ⟨Descent.ends_read source, ?_, ?_⟩
  · intro descent reached
    have counted := (Descent.Counted.start source).reaches reached
    refine ⟨counted.exact, counted.bounded, fun called => ⟨Descent.returns_of_enter reached called, ?_⟩⟩
    intro exit onward returned
    rw [(counted.reaches onward).exact, counted.exact, Descent.activeForms, Descent.activeForms,
      returned.calls]
  · intro program spelled supplied separated
    constructor
    · intro low
      exact parse_eq_ok_iff_read.mpr (read_eq_ok_iff.mpr ⟨spelled, supplied, separated, low⟩)
    · intro deep
      obtain ⟨token, found, refused⟩ := read_of_deep spelled supplied separated deep
      exact ⟨token, found, parse_eq_error_iff.mpr ⟨_, refused, rfl⟩⟩

/-- Dumps around a literal, all of them in parentheses. -/
def dumpsInGroup (count : Nat) : Program :=
  [.group ⟨0, 5 * count + 3⟩ [Nat.repeat .dump count (.literal ⟨1, ⟨5 * count + 1, 5 * count + 2⟩⟩)]]

/-- How the dumps are written. -/
def dumpsInGroupSource (count : Nat) : Bytes :=
  Utf8.encode "(" ++ (List.replicate count (Utf8.encode "dump ")).flatten ++ Utf8.encode "1)"

/-- Behind 254 dumps the literal is as deep as it may be; one dump more, and it is refused. -/
theorem dumps_in_group_at_and_beyond_limit :
    (dumpsInGroup 254).height = maxNesting ∧
      parse (dumpsInGroupSource 254) = .ok (dumpsInGroup 254) ∧
    (dumpsInGroup 255).height = maxNesting + 1 ∧
      parse (dumpsInGroupSource 255) = .error (.malformed ⟨1, 1277⟩ (.nestingTooDeep 256)) := by
  have argument (count : Nat) (literal : Literal) :
      (Nat.repeat Form.dump count (.literal literal)).Supplied := by
    induction count with
    | zero => exact trivial
    | succ count ih => exact ih
  have supplied (count : Nat) : (dumpsInGroup count).Supplied := ⟨⟨argument count _, trivial⟩, trivial⟩
  have fits := ((nesting_is_counted_and_limited (dumpsInGroupSource 254)).2.2 (dumpsInGroup 254)
    (by decide +kernel) (supplied 254) (by decide +kernel)).1
  have exceeds := ((nesting_is_counted_and_limited (dumpsInGroupSource 255)).2.2 (dumpsInGroup 255)
    (by decide +kernel) (supplied 255) (by decide +kernel)).2
  have low : (dumpsInGroup 254).height = maxNesting := by decide +kernel
  have high : (dumpsInGroup 255).height = maxNesting + 1 := by decide +kernel
  refine ⟨low, fits low.le, high, ?_⟩
  obtain ⟨token, found, refused⟩ := exceeds (by omega)
  have first : firstAtLimit? ((dumpsInGroup 255).levels 0) (tokens (dumpsInGroupSource 255)) =
      some ⟨.numeral [0x31], 1276⟩ := by decide +kernel
  obtain rfl := Option.some.inj (found.symm.trans first)
  have place : Location.of (dumpsInGroupSource 255) 1276 = ⟨1, 1277⟩ := by decide +kernel
  rw [refused, place]
  rfl

end ArithAsm
