import ArithAsm.Form
import ArithAsm.Log

/-! Lines of assembly. There is one live value at any time, held in the
accumulator register; a second register stages operands that are too wide for
an addition or subtraction to carry. -/
namespace ArithAsm

/-- The register that holds the live value, and that `dump` prints. -/
def accumulator : String := "rdi"

/-- The register that stages wide operands. -/
def scratch : String := "rax"

/-- What an operand does to the accumulator. -/
inductive Operation where
  | add
  | sub
deriving DecidableEq, Repr

/-- The operation's name as an instruction. -/
def Operation.mnemonic : Operation → String
  | add => "add"
  | sub => "sub"

/-- The remark in front of the operands. -/
def Operation.remark : Operation → String
  | add => "ADDITION"
  | sub => "SUBTRACTION"

/-- One line of assembly. -/
inductive Line where
  /-- A line that is the same in every program. -/
  | fixed (text : String)
  /-- Replaces the accumulator. -/
  | load (value : UInt64)
  /-- Puts a wide operand into the scratch register. -/
  | stage (value : UInt64)
  /-- Combines the accumulator with an operand that the instruction itself carries. -/
  | combine (operation : Operation) (value : UInt64)
  /-- Combines the accumulator with the staged operand. -/
  | combineStaged (operation : Operation)
  /-- A remark that an operator begins here. -/
  | operatorRemark (operation : Operation)
  /-- A remark that the accumulator is printed here. -/
  | dumpRemark
  /-- Prints the accumulator. -/
  | callDump
deriving DecidableEq, Repr

namespace Line

/-- The line as it is written, its newline apart. -/
def text : Line → String
  | fixed text => text
  | load value => s!"\tmov {accumulator}, {value.toNat}"
  | stage value => s!"\tmov {scratch}, {value.toNat}"
  | combine operation value => s!"\t{operation.mnemonic} {accumulator}, {value.toNat}"
  | combineStaged operation => s!"\t{operation.mnemonic} {accumulator}, {scratch}"
  | operatorRemark operation => s!"\t;; {operation.remark}"
  | dumpRemark => "\t;; CALL DUMP"
  | callDump => "\tcall dump"

/-- The record made when the line is about to be written. -/
def record? : Line → Option Record
  | stage value =>
    some ⟨.trace, .emitter, s!"staging wide immediate {value.toNat} through {scratch}"⟩
  | _ => none

end Line

/-- The largest operand that an addition or subtraction can carry: immediates
are 32 bits wide and signed. -/
def maxImmediate : UInt64 := 2147483647

/-- The lines that combine the accumulator with one operand. -/
def Literal.combineLines (operation : Operation) (number : Literal) : List Line :=
  if number.value ≤ maxImmediate then [.combine operation number.value]
  else [.stage number.value, .combineStaged operation]

mutual

/-- The lines that evaluate a form. The argument of a dump is in the accumulator
before it is printed. -/
def Form.lines : Form → List Line
  | .literal number => [.load number.value]
  | .group _ members => Program.lines members
  | .dump argument => argument.lines ++ [.dumpRemark, .callDump]
  | .add terms => .operatorRemark .add :: terms.flatMap (Literal.combineLines .add)
  | .sub seed terms =>
    .operatorRemark .sub :: .load seed.value :: terms.flatMap (Literal.combineLines .sub)

/-- The lines that evaluate forms in order. -/
def Program.lines : Program → List Line
  | [] => []
  | form :: rest => form.lines ++ Program.lines rest

end

end ArithAsm
