import ArithAsm.Form.Read
import Mathlib.Data.List.Chain
import Mathlib.Data.List.Forall2

/-! Which token lists spell which programs, said without a reader. The leaves
of a tree, from left to right, stand for its tokens one by one; a program is
spelled by tokens that write its leaves, provided that every operator has
operands and takes all the numerals behind it, and that the tree is not too
high. -/
namespace ArithAsm

/-- What one token contributes to a tree of forms. -/
inductive Leaf where
  /-- The parenthesis at which the span of a group starts. -/
  | openGroup (start : Nat)
  /-- The parenthesis at which the span of a group stops. -/
  | closeGroup (stop : Nat)
  | dump
  | operator (sign : Operator)
  /-- A literal, and whether it is the last operand of an operator. -/
  | number (literal : Literal) (endsRun : Bool)
deriving DecidableEq, Repr

namespace Leaf

/-- Whether the leaf is a literal, as an operand or by itself. -/
def isNumber : Leaf → Bool
  | number _ _ => true
  | _ => false

/-- Whether the leaf is the last operand of an operator. -/
def endsRun : Leaf → Bool
  | number _ endsRun => endsRun
  | _ => false

/-- The token that writes the leaf. A literal has the span of its numeral and
the decimal value of its digits, which 64 bits can hold. -/
def WrittenBy : Leaf → Token → Prop
  | openGroup start, token => token.lexeme = .openGroup ∧ token.start = start
  | closeGroup stop, token => token.lexeme = .closeGroup ∧ token.stop = stop
  | dump, token => token.lexeme = .word (Utf8.encode "dump")
  | operator sign, token => token.lexeme = sign.lexeme
  | number literal _, token => ∃ digits, token.lexeme = .numeral digits ∧
    decimalValue digits < UInt64.size ∧ literal.value.toNat = decimalValue digits ∧
      literal.span = token.span

instance (leaf : Leaf) (token : Token) : Decidable (leaf.WrittenBy token) :=
  match leaf, token with
  | openGroup _, _ | closeGroup _, _ => inferInstanceAs (Decidable (_ ∧ _))
  | dump, _ | operator _, _ => inferInstanceAs (Decidable (_ = _))
  | number literal _, ⟨.numeral digits, offset⟩ =>
    decidable_of_iff (decimalValue digits < UInt64.size ∧ literal.value.toNat = decimalValue digits ∧
      literal.span = (Token.mk (.numeral digits) offset).span) (by simp [WrittenBy])
  | number _ _, ⟨.openGroup, _⟩ | number _ _, ⟨.closeGroup, _⟩ | number _ _, ⟨.plus, _⟩
  | number _ _, ⟨.minus, _⟩ | number _ _, ⟨.word _, _⟩ => .isFalse (by simp [WrittenBy])

/-- A literal does not follow the last operand of an operator. -/
def Apart (earlier later : Leaf) : Prop :=
  ¬(earlier.endsRun = true ∧ later.isNumber = true)

instance : DecidableRel Apart := fun _ _ => inferInstanceAs (Decidable (¬_))

end Leaf

/-- The leaves of an operator's operands, of which the last is marked. -/
def Literal.operandLeaves : List Literal → List Leaf
  | [] => []
  | [last] => [.number last true]
  | operand :: next :: rest => .number operand false :: operandLeaves (next :: rest)

mutual

/-- The leaves of a form from left to right. -/
def Form.leaves : Form → List Leaf
  | .literal number => [.number number false]
  | .group span members => .openGroup span.start :: (Program.leaves members ++ [.closeGroup span.stop])
  | .dump argument => .dump :: argument.leaves
  | .add terms => .operator .plus :: Literal.operandLeaves terms
  | .sub seed terms => .operator .minus :: Literal.operandLeaves (seed :: terms)

/-- The leaves of forms in order. -/
def Program.leaves : Program → List Leaf
  | [] => []
  | form :: rest => form.leaves ++ Program.leaves rest

end

mutual

/-- Every addition inside the form has an operand. -/
def Form.Supplied : Form → Prop
  | .literal _ => True
  | .group _ members => Program.Supplied members
  | .dump argument => argument.Supplied
  | .add terms => terms ≠ []
  | .sub _ _ => True

/-- Every addition inside the forms has an operand. -/
def Program.Supplied : Program → Prop
  | [] => True
  | form :: rest => form.Supplied ∧ Program.Supplied rest

end

mutual

/-- How many forms there are on the longest way down, the form itself included. -/
def Form.height : Form → Nat
  | .literal _ => 1
  | .group _ members => Program.height members + 1
  | .dump argument => argument.height + 1
  | .add _ => 1
  | .sub _ _ => 1

/-- The height of the highest form, zero if there is none. -/
def Program.height : Program → Nat
  | [] => 0
  | form :: rest => max form.height (Program.height rest)

end

/-- No literal directly follows the last operand of an operator. -/
def Separated (leaves : List Leaf) : Prop :=
  leaves.IsChain Leaf.Apart

instance (leaves : List Leaf) : Decidable (Separated leaves) :=
  inferInstanceAs (Decidable (leaves.IsChain Leaf.Apart))

/-- The tokens spell the program. -/
structure Program.SpelledBy (program : Program) (written : List Token) : Prop where
  /-- The leaves are written by the tokens, each by its own. -/
  leaves : List.Forall₂ Leaf.WrittenBy program.leaves written
  supplied : program.Supplied
  /-- Every operator takes all the numerals behind it. -/
  separated : Separated program.leaves
  shallow : program.height ≤ maxNesting

/-! ## Forms in a row -/

theorem Program.leaves_append (first second : Program) :
    Program.leaves (first ++ second) = first.leaves ++ second.leaves := by
  induction first with
  | nil => rfl
  | cons form rest ih => simp [Program.leaves, ih]

theorem Program.supplied_iff (program : Program) :
    program.Supplied ↔ ∀ form ∈ program, form.Supplied := by
  induction program with
  | nil => simp [Program.Supplied]
  | cons form rest ih => simp [Program.Supplied, ih]

theorem Program.height_le_iff (program : Program) (bound : Nat) :
    program.height ≤ bound ↔ ∀ form ∈ program, form.height ≤ bound := by
  induction program with
  | nil => simp [Program.height]
  | cons form rest ih => rw [Program.height, Nat.max_le, ih, List.forall_mem_cons]

theorem Form.height_pos (form : Form) : 0 < form.height := by
  cases form <;> simp [Form.height]

theorem Form.leaves_ne_nil (form : Form) : form.leaves ≠ [] := by
  cases form <;> simp [Form.leaves]

/-! ## Operands -/

theorem Literal.operandLeaves_concat (operands : List Literal) (last : Literal) :
    operandLeaves (operands ++ [last]) = operands.map (.number · false) ++ [.number last true] := by
  induction operands with
  | nil => rfl
  | cons operand rest ih =>
    cases rest with
    | nil => rfl
    | cons next rest => simpa [operandLeaves] using ih

/-- The same leaf without the mark of a last operand. -/
def Leaf.unmarked : Leaf → Leaf
  | .number literal _ => .number literal false
  | leaf => leaf

theorem Literal.operandLeaves_unmarked (operands : List Literal) :
    (operandLeaves operands).map Leaf.unmarked = operands.map (.number · false) := by
  induction operands with
  | nil => rfl
  | cons operand rest ih =>
    cases rest with
    | nil => rfl
    | cons next rest => simpa [operandLeaves, Leaf.unmarked] using ih

/-- Marks make no difference to what writes a leaf. -/
theorem Leaf.written_congr {first second : List Leaf} {written : List Token}
    (same : first.map unmarked = second.map unmarked) (spelled : List.Forall₂ WrittenBy first written) :
    List.Forall₂ WrittenBy second written := by
  have ignored (leaf : Leaf) (token : Token) : leaf.unmarked.WrittenBy token ↔ leaf.WrittenBy token := by
    cases leaf <;> rfl
  have unmarked : List.Forall₂ WrittenBy (first.map unmarked) written :=
    List.forall₂_map_left_iff.mpr (spelled.imp fun leaf token => (ignored leaf token).mpr)
  rw [same] at unmarked
  exact (List.forall₂_map_left_iff.mp unmarked).imp fun leaf token => (ignored leaf token).mp

private theorem operandLeaves_separated (operands : List Literal) :
    Separated (Literal.operandLeaves operands) := by
  induction operands with
  | nil => exact .nil
  | cons operand rest ih =>
    cases rest with
    | nil => exact .singleton _
    | cons next rest => exact List.IsChain.cons ih fun leaf first => by simp [Leaf.Apart, Leaf.endsRun]

/-- The operands of one operator are never apart from each other. -/
theorem separated_operands_iff (opening : List Leaf) (sign : Operator) (operands : List Literal) :
    Separated (opening ++ .operator sign :: Literal.operandLeaves operands) ↔ Separated opening := by
  have run : Separated (.operator sign :: Literal.operandLeaves operands) :=
    (operandLeaves_separated operands).cons fun leaf first => by simp [Leaf.Apart, Leaf.endsRun]
  refine ⟨fun separated => separated.left_of_append, fun separated => separated.append run ?_⟩
  intro earlier last later first
  obtain rfl : Leaf.operator sign = later := by simpa using first
  simp [Leaf.Apart, Leaf.isNumber]

end ArithAsm
