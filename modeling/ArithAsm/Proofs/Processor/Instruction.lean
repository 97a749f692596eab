import ArithAsm.Proofs.Machine.Instruction

/-! The instructions that the print routine is made of, and their decoding from text.
Where a compiled program only computes in whole registers, the routine also addresses
memory, uses the lower half and the lowest byte of a register, and branches. -/
namespace ArithAsm.Processor
open Machine (Register Operand Verb)

/-- How much of a register is computed with, from the lowest bit on. -/
inductive Width where
  /-- All 64 bits. -/
  | quad
  /-- 32 bits. The upper half of the result is zero. -/
  | double
deriving DecidableEq, Repr

/-- How that much of a register is written. -/
def Width.name : Width → Register → List Char
  | quad, register => register.name.toList
  | double, register =>
    match register.name.toList with
    | 'r' :: c :: rest => if c.isDigit then 'r' :: c :: rest ++ ['d'] else 'e' :: c :: rest
    | other => other

/-- How the lowest byte of a register is written. -/
def lowByteName (register : Register) : List Char :=
  match register.name.toList with
  | ['r', c, 'x'] => [c, 'l']
  | 'r' :: c :: rest => if c.isDigit then 'r' :: c :: rest ++ ['b'] else c :: rest ++ ['l']
  | other => other

/-- A place in memory: a base, an index times a factor, and a displacement. -/
structure Address where
  base : Register
  index : Option (Register × Nat)
  displacement : Nat
deriving DecidableEq, Repr

namespace Address

/-- An index with its factor, `index*factor`. -/
def index? (text : List Char) : Option (Register × Nat) :=
  match text.splitOn '*' with
  | [index, factor] => do
    let factor ← Machine.number? factor
    if factor ∈ [1, 2, 4, 8] then return (← Register.ofText? index, factor) else none
  | _ => none

/-- A displacement is carried as a signed number of 32 bits. -/
def displacement? (text : List Char) : Option Nat :=
  (Machine.number? text).filter (· ≤ 0x7FFFFFFF)

/-- The address whose parts stand between plus signs. -/
def ofText? (text : List Char) : Option Address :=
  match text.splitOn '+' with
  | [base] => do return ⟨← Register.ofText? base, none, 0⟩
  | [base, second] => do
    let base ← Register.ofText? base
    match displacement? second with
    | some displacement => return ⟨base, none, displacement⟩
    | none => return ⟨base, some (← index? second), 0⟩
  | [base, index, displacement] => do
    return ⟨← Register.ofText? base, some (← index? index), ← displacement? displacement⟩
  | _ => none

end Address

/-- What may stand between the commas behind a mnemonic. -/
inductive Argument where
  | register (width : Width) (register : Register)
  | lowByte (register : Register)
  | immediate (value : UInt64)
  | memory (address : Address)
  /-- A place in memory that is marked to be one byte. -/
  | byteMemory (address : Address)
  /-- The vector register `xmm0`. -/
  | vector
  | label (name : String)
deriving DecidableEq, Repr

/-- The number that a text of decimal digits writes, perhaps behind a minus sign, modulo
`2 ^ 64`. -/
def signed? : List Char → Option UInt64
  | '-' :: digits => ((Machine.number? digits).filter (· ≤ 0x8000000000000000)).map (-·.toUInt64)
  | digits => ((Machine.number? digits).filter (· < UInt64.size)).map (·.toUInt64)

namespace Argument

/-- The register that a text names, or a part of one. -/
def register? (text : List Char) : Option Argument :=
  let named (name : Register → List Char) := Register.all.find? fun register => name register == text
  ((named Width.quad.name).map (register .quad)).or
    (((named Width.double.name).map (register .double)).or ((named lowByteName).map lowByte))

/-- What a text stands for. A text that is nothing else is the name of a label. -/
def ofText (text : List Char) : Argument :=
  let place? (inner : List Char) := Address.ofText? (inner.takeWhile (· != ']'))
  let known := match text with
    | '[' :: inner => (place? inner).map memory
    | 'B' :: 'Y' :: 'T' :: 'E' :: ' ' :: '[' :: inner => (place? inner).map byteMemory
    | ['x', 'm', 'm', '0'] => some vector
    | _ => (register? text).or ((signed? text).map immediate)
  known.getD (label (String.ofList text))

end Argument

/-- A decoded line. -/
inductive Instruction where
  /-- A label, a remark or an empty line. -/
  | skip
  /-- Combines a register with an operand of the same width. -/
  | compute (width : Width) (verb : Verb) (target : Register) (operand : Operand)
  /-- Subtracts, and keeps the flags only. -/
  | compare (left : Register) (right : Operand)
  /-- Multiplies `rax` without loss, into `rdx` and `rax`. -/
  | multiply (factor : Register)
  | shiftRight (target : Register) (count : UInt64)
  | loadAddress (target : Register) (address : Address)
  /-- Stores the lowest byte of the operand. -/
  | storeByte (address : Address) (source : Operand)
  | clearVector
  /-- Stores the vector register, at a multiple of 16 only. -/
  | storeVector (address : Address)
  | push (source : Register)
  | pop (target : Register)
  | systemCall
  /-- Branches if the last comparison was of a larger number with a smaller one. -/
  | jumpAbove (label : String)
  /-- Goes back to the address on top of the stack. -/
  | leave
deriving DecidableEq, Repr

/-- The names of instructions. -/
inductive Mnemonic where
  | compute (verb : Verb)
  | cmp | mul | shr | lea | pxor | movaps | push | pop | syscall | ja | ret
deriving DecidableEq, Repr

namespace Mnemonic

/-- The mnemonic as it is written. -/
def name : Mnemonic → String
  | compute verb => verb.name
  | cmp => "cmp" | mul => "mul" | shr => "shr" | lea => "lea" | pxor => "pxor" | movaps => "movaps"
  | push => "push" | pop => "pop" | syscall => "syscall" | ja => "ja" | ret => "ret"

/-- Every mnemonic once. -/
def all : List Mnemonic :=
  [compute .move, compute .add, compute .subtract, compute .xor, cmp, mul, shr, lea, pxor, movaps,
    push, pop, syscall, ja, ret]

/-- The mnemonic that a text is. -/
def ofText? (text : List Char) : Option Mnemonic :=
  all.find? fun mnemonic => mnemonic.name.toList == text

/-- The instruction of a mnemonic with its arguments, if there is such an encoding. -/
def instruction? : Mnemonic → List Argument → Option Instruction
  | compute .move, [.memory address, .lowByte source] => some (.storeByte address (.register source))
  | compute .move, [.byteMemory address, .immediate value] =>
    if value < 0x100 then some (.storeByte address (.immediate value)) else none
  | compute verb, [.register .quad target, .register .quad source] =>
    some (.compute .quad verb target (.register source))
  | compute verb, [.register .quad target, .immediate value] =>
    if verb.carries (.immediate value) then some (.compute .quad verb target (.immediate value)) else none
  | compute verb, [.register .double target, .immediate value] =>
    if value < 0x100000000 then some (.compute .double verb target (.immediate value)) else none
  | cmp, [.register .quad left, .immediate right] =>
    if Verb.subtract.carries (.immediate right) then some (.compare left (.immediate right)) else none
  | mul, [.register .quad factor] => some (.multiply factor)
  | shr, [.register .quad target, .immediate count] =>
    if 0 < count ∧ count < 64 then some (.shiftRight target count) else none
  | lea, [.register .quad target, .memory address] => some (.loadAddress target address)
  | pxor, [.vector, .vector] => some .clearVector
  | movaps, [.memory address, .vector] => some (.storeVector address)
  | push, [.register .quad source] => some (.push source)
  | pop, [.register .quad target] => some (.pop target)
  | syscall, [] => some .systemCall
  | ja, [.label name] => some (.jumpAbove name)
  | ret, [] => some .leave
  | _, _ => none

end Mnemonic

/-- The instruction of a line. What stands behind a semicolon is a remark. -/
def Instruction.decode? (line : String) : Option Instruction :=
  let statement := (line.toList.takeWhile (· != ';')).dropWhile Machine.Instruction.isBlank
  if statement = [] ∨ statement.getLast? = some ':' then some .skip
  else
    let mnemonic := statement.takeWhile (!Machine.Instruction.isBlank ·)
    let rest := (statement.dropWhile (!Machine.Instruction.isBlank ·)).dropWhile Machine.Instruction.isBlank
    let arguments := if rest = [] then [] else
      (rest.splitOn ',').map fun text => Argument.ofText (text.dropWhile Machine.Instruction.isBlank)
    (Mnemonic.ofText? mnemonic).bind (·.instruction? arguments)

end ArithAsm.Processor
