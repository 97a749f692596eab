import ArithAsm.Source.Span

/-! Programs as trees of forms. A program is evaluated from left to right
against one accumulator: a literal replaces it, `+` adds to it, `-` loads its
first operand and subtracts the others, `dump` prints what its argument left
there, and a group holds forms. -/
namespace ArithAsm

/-- A number and where it is written. -/
structure Literal where
  value : UInt64
  span : Span
deriving DecidableEq, Repr

/-- One item of a program. -/
inductive Form where
  | literal (number : Literal)
  /-- Forms between parentheses, both of which the span covers. -/
  | group (span : Span) (members : List Form)
  | dump (argument : Form)
  | add (terms : List Literal)
  | sub (seed : Literal) (terms : List Literal)
deriving Repr

/-- A whole source: its outermost forms in order. -/
abbrev Program := List Form

/-! ## Text of a program -/

/-- The decimal text of the value. -/
def Literal.text (literal : Literal) : String :=
  literal.value.toNat.repr

/-- Operands, each behind a space. -/
def Literal.operandText (literals : List Literal) : String :=
  String.join (literals.map fun literal => " " ++ literal.text)

mutual

/-- A form as source text. -/
def Form.text : Form → String
  | .literal number => number.text
  | .group _ members => "(" ++ " ".intercalate (Form.texts members) ++ ")"
  | .dump argument => "dump " ++ argument.text
  | .add terms => "+" ++ Literal.operandText terms
  | .sub seed terms => "- " ++ seed.text ++ Literal.operandText terms

/-- The text of each form of a list. -/
def Form.texts : List Form → List String
  | [] => []
  | form :: rest => form.text :: Form.texts rest

end

/-- A program as source text, each outermost form on a line of its own. -/
def Program.text (program : Program) : String :=
  "\n".intercalate (Form.texts program)

end ArithAsm
