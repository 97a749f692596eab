import ArithAsm.Assembly.Compile
import ArithAsm.Proofs.Grammar

/-! Programs without regard to where they are written. Spans matter neither to
the shape of a tree nor to what it compiles to, so a tree can be moved to any
other place, and tokens that are moved along spell it there. -/
namespace ArithAsm

/-! ## Trees in other places -/

/-- The span between moved ends. -/
def Span.relocate (begins ends : Nat → Nat) (span : Span) : Span :=
  ⟨begins span.start, ends span.stop⟩

/-- The literal with its span moved. -/
def Literal.relocate (begins ends : Nat → Nat) (literal : Literal) : Literal :=
  { literal with span := literal.span.relocate begins ends }

mutual

/-- The form with every span moved, its start by `begins` and its stop by `ends`. -/
def Form.relocate (begins ends : Nat → Nat) : Form → Form
  | .literal number => .literal (number.relocate begins ends)
  | .group span members => .group (span.relocate begins ends) (Program.relocate begins ends members)
  | .dump argument => .dump (argument.relocate begins ends)
  | .add terms => .add (terms.map (Literal.relocate begins ends))
  | .sub seed terms => .sub (seed.relocate begins ends) (terms.map (Literal.relocate begins ends))

/-- The forms with every span moved. -/
def Program.relocate (begins ends : Nat → Nat) : Program → Program
  | [] => []
  | form :: rest => form.relocate begins ends :: Program.relocate begins ends rest

end

/-- The leaf with its place moved. -/
def Leaf.relocate (begins ends : Nat → Nat) : Leaf → Leaf
  | openGroup start => .openGroup (begins start)
  | closeGroup stop => .closeGroup (ends stop)
  | dump => .dump
  | operator sign => .operator sign
  | number literal endsRun => .number (literal.relocate begins ends) endsRun

section
variable (begins ends : Nat → Nat)

theorem Literal.operandLeaves_relocate (operands : List Literal) :
    operandLeaves (operands.map (Literal.relocate begins ends)) =
      (operandLeaves operands).map (Leaf.relocate begins ends) := by
  induction operands with
  | nil => rfl
  | cons operand rest ih =>
    cases rest with
    | nil => rfl
    | cons next rest => simpa [operandLeaves, Leaf.relocate] using ih

mutual

theorem Form.leaves_relocate : (form : Form) →
    (form.relocate begins ends).leaves = form.leaves.map (Leaf.relocate begins ends)
  | .literal _ => rfl
  | .group span members => by
    simp [Form.relocate, Form.leaves, Program.leaves_relocate members, Leaf.relocate, Span.relocate]
  | .dump argument => by simp [Form.relocate, Form.leaves, argument.leaves_relocate, Leaf.relocate]
  | .add terms => by
    simp [Form.relocate, Form.leaves, Literal.operandLeaves_relocate, Leaf.relocate]
  | .sub seed terms => by
    simpa [Form.relocate, Form.leaves, Leaf.relocate] using
      Literal.operandLeaves_relocate begins ends (seed :: terms)

theorem Program.leaves_relocate : (program : Program) →
    (Program.relocate begins ends program).leaves = program.leaves.map (Leaf.relocate begins ends)
  | [] => rfl
  | form :: rest => by
    simp [Program.relocate, Program.leaves, form.leaves_relocate, Program.leaves_relocate rest]

end

mutual

theorem Form.supplied_relocate : (form : Form) →
    ((form.relocate begins ends).Supplied ↔ form.Supplied)
  | .literal _ => Iff.rfl
  | .group _ members => Program.supplied_relocate members
  | .dump argument => argument.supplied_relocate
  | .add terms => by simp [Form.relocate, Form.Supplied]
  | .sub _ _ => Iff.rfl

theorem Program.supplied_relocate : (program : Program) →
    ((Program.relocate begins ends program).Supplied ↔ program.Supplied)
  | [] => Iff.rfl
  | form :: rest => and_congr form.supplied_relocate (Program.supplied_relocate rest)

end

mutual

theorem Form.height_relocate : (form : Form) → (form.relocate begins ends).height = form.height
  | .literal _ => rfl
  | .group _ members => congrArg (· + 1) (Program.height_relocate members)
  | .dump argument => congrArg (· + 1) argument.height_relocate
  | .add _ => rfl
  | .sub _ _ => rfl

theorem Program.height_relocate : (program : Program) →
    (Program.relocate begins ends program).height = program.height
  | [] => rfl
  | form :: rest => by
    simp [Program.relocate, Program.height, form.height_relocate, Program.height_relocate rest]

end

theorem Literal.combineLines_relocate (operation : Operation) (terms : List Literal) :
    (terms.map (Literal.relocate begins ends)).flatMap (Literal.combineLines operation) =
      terms.flatMap (Literal.combineLines operation) := by
  rw [List.flatMap_map]
  rfl

mutual

theorem Form.lines_relocate : (form : Form) → (form.relocate begins ends).lines = form.lines
  | .literal _ => rfl
  | .group _ members => Program.lines_relocate members
  | .dump argument => by simp [Form.relocate, Form.lines, argument.lines_relocate]
  | .add terms => by simp [Form.relocate, Form.lines, Literal.combineLines_relocate]
  | .sub seed terms => by
    simp [Form.relocate, Form.lines, Literal.combineLines_relocate, Literal.relocate]

theorem Program.lines_relocate : (program : Program) →
    (Program.relocate begins ends program).lines = program.lines
  | [] => rfl
  | form :: rest => by
    simp [Program.relocate, Program.lines, form.lines_relocate, Program.lines_relocate rest]

end

theorem separated_relocate (leaves : List Leaf) :
    Separated (leaves.map (Leaf.relocate begins ends)) ↔ Separated leaves := by
  have same (leaf : Leaf) : (leaf.relocate begins ends).endsRun = leaf.endsRun ∧
      (leaf.relocate begins ends).isNumber = leaf.isNumber := by
    cases leaf <;> exact ⟨rfl, rfl⟩
  rw [Separated, Separated, List.isChain_map]
  refine List.IsChain.iff fun earlier later => ?_
  rw [Leaf.Apart, Leaf.Apart, (same earlier).1, (same later).2]

end

/-! ## Moved tokens -/

/-- The second token is the first one in its new place. -/
structure Token.Moves (begins ends : Nat → Nat) (first second : Token) : Prop where
  lexeme : first.lexeme = second.lexeme
  start : begins first.start = second.start
  stop : ends first.stop = second.stop

/-- A token that has been moved writes the leaf that has been moved. -/
theorem Leaf.WrittenBy.relocate {begins ends : Nat → Nat} {leaf : Leaf} {first second : Token}
    (written : leaf.WrittenBy first) (moves : first.Moves begins ends second) :
    (leaf.relocate begins ends).WrittenBy second := by
  have lexeme := moves.lexeme
  cases leaf with
  | openGroup start => exact ⟨lexeme.symm.trans written.1, by rw [← moves.start, written.2]⟩
  | closeGroup stop => exact ⟨lexeme.symm.trans written.1, by rw [← moves.stop, written.2]⟩
  | dump | operator sign => exact lexeme.symm.trans written
  | number literal marked =>
    obtain ⟨digits, spelled, small, value, span⟩ := written
    refine ⟨digits, lexeme.symm.trans spelled, small, value, ?_⟩
    simp only [Literal.relocate, Span.relocate, span, Token.span, moves.start, moves.stop]

theorem Leaf.written_relocate {begins ends : Nat → Nat} {leaves : List Leaf} {first second : List Token}
    (spelled : List.Forall₂ WrittenBy leaves first)
    (moves : List.Forall₂ (Token.Moves begins ends) first second) :
    List.Forall₂ WrittenBy (leaves.map (Leaf.relocate begins ends)) second := by
  induction spelled generalizing second with
  | nil =>
    cases moves
    exact .nil
  | cons head tail ih =>
    cases moves with
    | cons moved rest => exact .cons (head.relocate moved) (ih rest)

/-- Tokens that have been moved spell the program that has been moved. -/
theorem Program.SpelledBy.relocate {begins ends : Nat → Nat} {program : Program}
    {first second : List Token} (spelled : program.SpelledBy first)
    (moves : List.Forall₂ (Token.Moves begins ends) first second) :
    (Program.relocate begins ends program).SpelledBy second where
  leaves := by
    rw [Program.leaves_relocate]
    exact Leaf.written_relocate spelled.leaves moves
  supplied := (Program.supplied_relocate begins ends program).mpr spelled.supplied
  separated := by
    rw [Program.leaves_relocate, separated_relocate]
    exact spelled.separated
  shallow := by
    rw [Program.height_relocate]
    exact spelled.shallow

/-! ## Trees without places -/

/-- The literal without its place. -/
def Literal.unplaced (literal : Literal) : Literal :=
  { literal with span := ⟨0, 0⟩ }

mutual

/-- The form without places. -/
def Form.unplaced : Form → Form
  | .literal number => .literal number.unplaced
  | .group _ members => .group ⟨0, 0⟩ (Program.unplaced members)
  | .dump argument => .dump argument.unplaced
  | .add terms => .add (terms.map Literal.unplaced)
  | .sub seed terms => .sub seed.unplaced (terms.map Literal.unplaced)

/-- The forms without places. -/
def Program.unplaced : Program → Program
  | [] => []
  | form :: rest => form.unplaced :: Program.unplaced rest

end

/-- The leaf without its place. -/
def Leaf.unplaced : Leaf → Leaf
  | openGroup _ => .openGroup 0
  | closeGroup _ => .closeGroup 0
  | dump => .dump
  | operator sign => .operator sign
  | number literal endsRun => .number literal.unplaced endsRun

/-- Where everything goes when places are forgotten. -/
private def nowhere (_ : Nat) : Nat := 0

mutual

private theorem Form.unplaced_eq : (form : Form) → form.unplaced = form.relocate nowhere nowhere
  | .literal _ => rfl
  | .group _ members => congrArg (Form.group ⟨0, 0⟩) (Program.unplaced_eq members)
  | .dump argument => congrArg Form.dump argument.unplaced_eq
  | .add _ => rfl
  | .sub _ _ => rfl

private theorem Program.unplaced_eq : (program : Program) →
    Program.unplaced program = Program.relocate nowhere nowhere program
  | [] => rfl
  | form :: rest => by
    simp only [Program.unplaced, Program.relocate, form.unplaced_eq, Program.unplaced_eq rest]

end

private theorem Leaf.unplaced_eq : Leaf.unplaced = Leaf.relocate nowhere nowhere := by
  funext leaf
  cases leaf <;> rfl

theorem Program.leaves_unplaced (program : Program) :
    (Program.unplaced program).leaves = program.leaves.map Leaf.unplaced := by
  rw [Program.unplaced_eq, Program.leaves_relocate, Leaf.unplaced_eq]

theorem Program.supplied_unplaced (program : Program) :
    (Program.unplaced program).Supplied ↔ program.Supplied := by
  rw [Program.unplaced_eq, Program.supplied_relocate]

theorem Program.height_unplaced (program : Program) :
    (Program.unplaced program).height = program.height := by
  rw [Program.unplaced_eq, Program.height_relocate]

theorem Program.lines_unplaced (program : Program) :
    (Program.unplaced program).lines = program.lines := by
  rw [Program.unplaced_eq, Program.lines_relocate]

theorem separated_unplaced (leaves : List Leaf) :
    Separated (leaves.map Leaf.unplaced) ↔ Separated leaves := by
  rw [Leaf.unplaced_eq, separated_relocate]

mutual

/-- Where a form was moved is forgotten with its place. -/
theorem Form.unplaced_relocate (begins ends : Nat → Nat) : (form : Form) →
    (form.relocate begins ends).unplaced = form.unplaced
  | .literal _ => rfl
  | .group _ members => congrArg (Form.group ⟨0, 0⟩) (Program.unplaced_relocate begins ends members)
  | .dump argument => congrArg Form.dump (argument.unplaced_relocate begins ends)
  | .add terms => by simp [Form.relocate, Form.unplaced, Literal.unplaced, Literal.relocate]
  | .sub seed terms => by simp [Form.relocate, Form.unplaced, Literal.unplaced, Literal.relocate]

theorem Program.unplaced_relocate (begins ends : Nat → Nat) : (program : Program) →
    Program.unplaced (Program.relocate begins ends program) = Program.unplaced program
  | [] => rfl
  | form :: rest => by
    simp only [Program.relocate, Program.unplaced, form.unplaced_relocate begins ends,
      Program.unplaced_relocate begins ends rest]

end

end ArithAsm
