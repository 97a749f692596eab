import ArithAsm.Text.Bytes
import ArithAsm.Proofs.Processor.Instruction
import Mathlib.Logic.Function.Basic

/-! A 64-bit processor that executes a listing line by line, with memory, flags and a
stack. What it does to the outside is recorded: every byte that is stored and every
system call. It stops short at a line that cannot be decoded, at a byte that is not
mapped, and at a vector that is stored at an address that is no multiple of 16. -/
namespace ArithAsm.Processor
open Machine (Register Operand Verb)

/-! ## Memory -/

/-- Which bytes there are, and what they hold. Addresses wrap around. -/
structure Memory where
  mapped : UInt64 → Bool
  byte : UInt64 → UInt8

/-- The lowest `count` bytes of a number, lowest first. -/
def littleEndian (count value : Nat) : Bytes :=
  (List.range count).map fun place => (value >>> (8 * place)).toUInt8

/-- The number of 64 bits whose bytes these are, lowest first. -/
def wordOf (bytes : Bytes) : UInt64 :=
  (bytes.foldr (fun (byte : UInt8) higher => byte.toNat + 256 * higher) 0).toUInt64

@[simp] theorem length_littleEndian (count value : Nat) : (littleEndian count value).length = count := by
  simp [littleEndian]

theorem wordOf_littleEndian (word : UInt64) : wordOf (littleEndian 8 word.toNat) = word := by
  have bound := word.toNat_lt
  apply UInt64.toNat_inj.mp
  simp [littleEndian, wordOf, List.range_succ, Nat.shiftRight_eq_div_pow]
  omega

namespace Memory
variable {memory : Memory} {start place : UInt64} {bytes : Bytes} {count : Nat}

/-- The `count` bytes from `start` on are mapped. -/
def Maps (memory : Memory) (start : UInt64) (count : Nat) : Prop :=
  ∀ index < count, memory.mapped (start + .ofNat index) = true

instance (memory : Memory) (start : UInt64) (count : Nat) : Decidable (memory.Maps start count) :=
  inferInstanceAs (Decidable (∀ index < count, _))

/-- The `count` bytes from `start` on. -/
def read (memory : Memory) (start : UInt64) (count : Nat) : Bytes :=
  (List.range count).map fun index => memory.byte (start + .ofNat index)

/-- The memory with other bytes from `start` on. -/
def write (memory : Memory) (start : UInt64) (bytes : Bytes) : Memory :=
  { memory with byte := fun place => bytes[(place - start).toNat]?.getD (memory.byte place) }

/-- Bytes elsewhere stay as they are. -/
theorem byte_write_of_le (behind : bytes.length ≤ (place - start).toNat) :
    (memory.write start bytes).byte place = memory.byte place := by
  simp only [write, List.getElem?_eq_none behind, Option.getD_none]

/-- So do bytes elsewhere in a row. -/
theorem read_write_of_le
    (behind : ∀ index < count, bytes.length ≤ (place + .ofNat index - start).toNat) :
    (memory.write start bytes).read place count = memory.read place count := by
  apply List.map_congr_left
  intro index member
  exact byte_write_of_le (behind index (List.mem_range.mp member))

/-- What has been written is read back. -/
theorem read_write_self (memory : Memory) (start : UInt64) (fits : bytes.length < UInt64.size) :
    (memory.write start bytes).read start bytes.length = bytes := by
  apply List.ext_getElem
  · simp [read]
  · intro index within inside
    have distance : (start + .ofNat index - start).toNat = index := by
      rw [UInt64.add_comm, UInt64.add_sub_cancel, UInt64.toNat_ofNat_of_lt' (Nat.lt_trans inside fits)]
    simp only [read, write, List.getElem_map, List.getElem_range, distance]
    rw [List.getElem?_eq_getElem inside, Option.getD_some]

theorem read_add (memory : Memory) (start : UInt64) (first second : Nat) :
    memory.read start (first + second) =
      memory.read start first ++ memory.read (start + .ofNat first) second := by
  simp only [read, List.range_add, List.map_append, List.map_map]
  refine congrArg (_ ++ ·) (List.map_congr_left fun index _ => ?_)
  simp only [Function.comp_apply, UInt64.ofNat_add, UInt64.add_assoc]

/-- Part of what is mapped is mapped. -/
theorem Maps.part {offset size : Nat} (maps : memory.Maps start count) (inside : offset + size ≤ count) :
    memory.Maps (start + .ofNat offset) size := by
  intro index within
  have mapped := maps (offset + index) (by omega)
  rwa [UInt64.ofNat_add, ← UInt64.add_assoc] at mapped

end Memory

/-! ## State -/

/-- The flags that are ever tested. -/
structure Flags where
  carry : Bool
  zero : Bool
deriving DecidableEq, Repr

/-- Something done to the outside. -/
inductive Event where
  /-- A byte was stored. -/
  | store (place : UInt64)
  /-- Bytes were written to an open file. -/
  | write (descriptor : UInt64) (bytes : Bytes)
deriving DecidableEq, Repr

/-- Everything but the place of the next instruction. -/
structure State where
  registers : Register → UInt64
  /-- The vector register `xmm0`. -/
  vector : BitVec 128
  flags : Flags
  memory : Memory
  /-- What has been done so far, in order. -/
  events : List Event

/-- What the processor and the system leave open. -/
structure Unspecified where
  /-- The zero flag after a multiplication. -/
  zeroFlag : State → Bool
  /-- What a system call leaves in `rcx`. -/
  rcx : State → UInt64
  /-- What a system call leaves in `r11`. -/
  r11 : State → UInt64

/-- The part of a value that is computed with. -/
def Width.truncate : Width → UInt64 → UInt64
  | quad, value => value
  | double, value => value % 0x100000000

/-- The flags after a computation. A move keeps them. -/
def Verb.flags (verb : Verb) (before operand result : UInt64) (flags : Flags) : Flags :=
  match verb with
  | .move => flags
  | .add => ⟨result < before, result = 0⟩
  | .subtract => ⟨before < operand, result = 0⟩
  | .xor => ⟨false, result = 0⟩

namespace State
variable {state : State}

/-- The state with another value in one register. -/
def assign (state : State) (target : Register) (value : UInt64) : State :=
  { state with registers := Function.update state.registers target value }

/-- The value of an operand. -/
def value (state : State) : Operand → UInt64
  | .immediate value => value
  | .register source => state.registers source

/-- Where an address is. -/
def locate (state : State) (address : Address) : UInt64 :=
  state.registers address.base +
    (address.index.elim 0 fun (index, factor) => state.registers index * .ofNat factor) +
      .ofNat address.displacement

/-- The state with other bytes from `start` on. -/
def stored (state : State) (start : UInt64) (bytes : Bytes) : State :=
  { state with
    memory := state.memory.write start bytes
    events := state.events ++ (List.range bytes.length).map fun index => .store (start + .ofNat index) }

/-- Stores bytes that are mapped. -/
def store? (state : State) (start : UInt64) (bytes : Bytes) : Option State :=
  if state.memory.Maps start bytes.length then some (state.stored start bytes) else none

/-- Loads bytes that are mapped. -/
def load? (state : State) (start : UInt64) (count : Nat) : Option Bytes :=
  if state.memory.Maps start count then some (state.memory.read start count) else none

/-- The state with a word on top of the stack. -/
def pushed (state : State) (word : UInt64) : State :=
  let top := state.registers .rsp - 8
  (state.assign .rsp top).stored top (littleEndian 8 word.toNat)

/-- Puts a word on top of the stack. -/
def push? (state : State) (word : UInt64) : Option State :=
  if state.memory.Maps (state.registers .rsp - 8) 8 then some (state.pushed word) else none

/-- Takes a word from the top of the stack. -/
def pop? (state : State) : Option (UInt64 × State) := do
  let bytes ← state.load? (state.registers .rsp) 8
  return (wordOf bytes, state.assign .rsp (state.registers .rsp + 8))

/-- Combines a register with an operand. -/
def compute (state : State) (width : Width) (verb : Verb) (target : Register) (operand : UInt64) : State :=
  let before := width.truncate (state.registers target)
  let operand := width.truncate operand
  let result := width.truncate (verb.apply before operand)
  { state.assign target result with flags := Verb.flags verb before operand result state.flags }

/-- Multiplies `rax`. The carry says whether the product has more than 64 bits. -/
def multiply (state : State) (unspecified : Unspecified) (factor : UInt64) : State :=
  let product := (state.registers .rax).toNat * factor.toNat
  let high := (product / UInt64.size).toUInt64
  { (state.assign .rax product.toUInt64).assign .rdx high with
    flags := ⟨high ≠ 0, unspecified.zeroFlag state⟩ }

/-- Shifts a register. The carry is the last bit that is shifted out. -/
def shiftRight (state : State) (target : Register) (count : UInt64) : State :=
  let result := state.registers target >>> count
  { state.assign target result with
    flags := ⟨(state.registers target >>> (count - 1)) % 2 = 1, result = 0⟩ }

/-- The state after all of the bytes have been written. -/
def written (state : State) (unspecified : Unspecified) (bytes : Bytes) : State :=
  (({ state with events := state.events ++ [.write (state.registers .rdi) bytes] } : State).assign .rax
    (.ofNat bytes.length)).assign .rcx (unspecified.rcx state) |>.assign .r11 (unspecified.r11 state)

/-- The system call that writes bytes to an open file, number 1. -/
def systemCall? (state : State) (unspecified : Unspecified) : Option State :=
  if state.registers .rax = 1 then
    (state.load? (state.registers .rsi) (state.registers .rdx).toNat).map (state.written unspecified)
  else none

/-- The effect of an instruction behind which the next line is executed. -/
def perform? (unspecified : Unspecified) (state : State) : Instruction → Option State
  | .skip => some state
  | .compute width verb target operand => some (state.compute width verb target (state.value operand))
  | .compare left right =>
    let before := state.registers left
    let operand := state.value right
    some { state with flags := Verb.flags .subtract before operand (before - operand) state.flags }
  | .multiply factor => some (state.multiply unspecified (state.registers factor))
  | .shiftRight target count => some (state.shiftRight target count)
  | .loadAddress target address => some (state.assign target (state.locate address))
  | .storeByte address source => state.store? (state.locate address) [(state.value source).toUInt8]
  | .clearVector => some { state with vector := 0 }
  | .storeVector address =>
    if state.locate address % 16 = 0 then
      state.store? (state.locate address) (littleEndian 16 state.vector.toNat)
    else none
  | .push source => state.push? (state.registers source)
  | .pop target => state.pop?.map fun (word, popped) => popped.assign target word
  | .systemCall => state.systemCall? unspecified
  | .jumpAbove _ | .leave => none

/-- Performs instructions in order. -/
def performAll? (unspecified : Unspecified) (state : State) : List Instruction → Option State
  | [] => some state
  | instruction :: rest => (state.perform? unspecified instruction).bind (·.performAll? unspecified rest)

@[simp] theorem registers_assign_self (target : Register) (value : UInt64) :
    (state.assign target value).registers target = value := by
  simp [assign]

@[simp] theorem registers_assign_of_ne {target other : Register} (different : other ≠ target)
    (value : UInt64) : (state.assign target value).registers other = state.registers other := by
  simp [assign, different]

@[simp] theorem value_immediate (value : UInt64) : state.value (.immediate value) = value := rfl

@[simp] theorem value_register (source : Register) :
    state.value (.register source) = state.registers source := rfl

@[simp] theorem registers_compute_quad (verb : Verb) (target : Register) (operand : UInt64) :
    (state.compute .quad verb target operand).registers target =
      verb.apply (state.registers target) operand := by
  simp [compute, Width.truncate]

@[simp] theorem registers_compute_double (verb : Verb) (target : Register) (operand : UInt64) :
    (state.compute .double verb target operand).registers target =
      verb.apply (state.registers target % 0x100000000) (operand % 0x100000000) % 0x100000000 := by
  simp [compute, Width.truncate]

@[simp] theorem registers_compute_of_ne {target other : Register} (different : other ≠ target)
    (width : Width) (verb : Verb) (operand : UInt64) :
    (state.compute width verb target operand).registers other = state.registers other := by
  simp [compute, different]

@[simp] theorem registers_multiply_rdx (unspecified : Unspecified) (factor : UInt64) :
    (state.multiply unspecified factor).registers .rdx =
      .ofNat ((state.registers .rax).toNat * factor.toNat / UInt64.size) := by
  simp [multiply]

@[simp] theorem registers_multiply_of_ne {other : Register} (notRax : other ≠ .rax)
    (notRdx : other ≠ .rdx) (unspecified : Unspecified) (factor : UInt64) :
    (state.multiply unspecified factor).registers other = state.registers other := by
  simp [multiply, notRax, notRdx]

@[simp] theorem registers_shiftRight_self (target : Register) (count : UInt64) :
    (state.shiftRight target count).registers target = state.registers target >>> count := by
  simp [shiftRight]

@[simp] theorem registers_shiftRight_of_ne {target other : Register} (different : other ≠ target)
    (count : UInt64) : (state.shiftRight target count).registers other = state.registers other := by
  simp [shiftRight, different]

section
variable {unspecified : Unspecified} {middle after : State}

theorem performAll_cons {instruction : Instruction} {rest : List Instruction}
    (first : state.perform? unspecified instruction = some middle)
    (others : middle.performAll? unspecified rest = some after) :
    state.performAll? unspecified (instruction :: rest) = some after := by
  rw [performAll?, first, Option.bind_some, others]

theorem performAll_append {instructions rest : List Instruction}
    (first : state.performAll? unspecified instructions = some middle)
    (others : middle.performAll? unspecified rest = some after) :
    state.performAll? unspecified (instructions ++ rest) = some after := by
  induction instructions generalizing state with
  | nil =>
    obtain rfl := Option.some.inj first
    exact others
  | cons instruction instructions ih =>
    obtain ⟨next, performed, remaining⟩ := Option.bind_eq_some_iff.mp first
    exact performAll_cons performed (ih remaining)

end

theorem store_of_maps {start : UInt64} {bytes : Bytes} (maps : state.memory.Maps start bytes.length) :
    state.store? start bytes = some (state.stored start bytes) :=
  if_pos maps

@[simp] theorem registers_stored (start : UInt64) (bytes : Bytes) :
    (state.stored start bytes).registers = state.registers := rfl

@[simp] theorem memory_stored (start : UInt64) (bytes : Bytes) :
    (state.stored start bytes).memory = state.memory.write start bytes := rfl

theorem load_of_maps {start : UInt64} {count : Nat} (maps : state.memory.Maps start count) :
    state.load? start count = some (state.memory.read start count) :=
  if_pos maps

theorem push_of_maps (word : UInt64) (maps : state.memory.Maps (state.registers .rsp - 8) 8) :
    state.push? word = some (state.pushed word) :=
  if_pos maps

@[simp] theorem registers_pushed_rsp (word : UInt64) :
    (state.pushed word).registers .rsp = state.registers .rsp - 8 := by
  simp [pushed]

@[simp] theorem registers_pushed_of_ne {other : Register} (different : other ≠ .rsp) (word : UInt64) :
    (state.pushed word).registers other = state.registers other := by
  simp [pushed, different]

/-- What has been pushed is on top of the stack. -/
theorem read_pushed (word : UInt64) :
    (state.pushed word).memory.read (state.registers .rsp - 8) 8 = littleEndian 8 word.toNat := by
  have fits : (littleEndian 8 word.toNat).length < UInt64.size := by
    rw [length_littleEndian, UInt64.size]
    omega
  have written := Memory.read_write_self state.memory (state.registers .rsp - 8) fits
  rwa [length_littleEndian] at written

theorem pop_of_maps (maps : state.memory.Maps (state.registers .rsp) 8) :
    state.pop? = some (wordOf (state.memory.read (state.registers .rsp) 8),
      state.assign .rsp (state.registers .rsp + 8)) := by
  rw [pop?, load_of_maps maps]
  rfl

theorem perform_systemCall (unspecified : Unspecified) (number : state.registers .rax = 1)
    (maps : state.memory.Maps (state.registers .rsi) (state.registers .rdx).toNat) :
    state.perform? unspecified .systemCall = some (state.written unspecified
      (state.memory.read (state.registers .rsi) (state.registers .rdx).toNat)) := by
  rw [perform?, systemCall?, if_pos number, load_of_maps maps, Option.map_some]

theorem registers_written {unspecified : Unspecified} {bytes : Bytes} {register : Register}
    (others : register ∉ [.rax, .rcx, .r11]) :
    (state.written unspecified bytes).registers register = state.registers register := by
  simp only [List.mem_cons, List.not_mem_nil, or_false, not_or] at others
  simp [written, others]

end State

/-! ## Execution -/

/-- Where execution goes on. -/
inductive Control where
  /-- At a line of the listing. -/
  | line (index : Nat)
  /-- At an address that a routine has returned to. -/
  | left (address : UInt64)
deriving DecidableEq, Repr

/-- A state and where execution goes on from it. -/
structure Execution where
  control : Control
  state : State

namespace Execution

/-- The line behind a label. -/
def lineOf (code : List String) (label : String) : Nat :=
  code.idxOf (label ++ ":")

/-- The first step of a call: the return address is pushed. -/
def call? (code : List String) (routine : String) (returnAddress : UInt64) (caller : State) :
    Option Execution :=
  (caller.push? returnAddress).map (⟨.line (lineOf code routine), ·⟩)

/-- One step: the next line is decoded and executed. -/
def step? (code : List String) (unspecified : Unspecified) (execution : Execution) : Option Execution :=
  match execution.control with
  | .left _ => none
  | .line index =>
    match code[index]?.bind Instruction.decode? with
    | none => none
    | some (.jumpAbove label) =>
      let flags := execution.state.flags
      let next := if flags.carry = false ∧ flags.zero = false then lineOf code label else index + 1
      some ⟨.line next, execution.state⟩
    | some .leave => execution.state.pop?.map fun (address, popped) => ⟨.left address, popped⟩
    | some instruction =>
      (execution.state.perform? unspecified instruction).map (⟨.line (index + 1), ·⟩)

/-- A number of steps. -/
def run? (code : List String) (unspecified : Unspecified) : Nat → Execution → Option Execution
  | 0, execution => some execution
  | steps + 1, execution => (execution.step? code unspecified).bind (run? code unspecified steps)

variable {code : List String} {unspecified : Unspecified} {index : Nat} {state after : State}

/-- Some number of steps leads from the first execution to the second. -/
def Reaches (code : List String) (unspecified : Unspecified) (before after : Execution) : Prop :=
  ∃ steps, run? code unspecified steps before = some after

theorem Reaches.refl (execution : Execution) : Reaches code unspecified execution execution :=
  ⟨0, rfl⟩

theorem Reaches.step {before middle after : Execution} (stepped : before.step? code unspecified = some middle)
    (reaches : Reaches code unspecified middle after) : Reaches code unspecified before after := by
  obtain ⟨steps, ran⟩ := reaches
  refine ⟨steps + 1, ?_⟩
  rw [run?, stepped, Option.bind_some, ran]

theorem Reaches.trans {before middle after : Execution} (first : Reaches code unspecified before middle)
    (second : Reaches code unspecified middle after) : Reaches code unspecified before after := by
  obtain ⟨steps, ran⟩ := first
  induction steps generalizing before with
  | zero =>
    obtain rfl := Option.some.inj ran
    exact second
  | succ steps ih =>
    obtain ⟨next, stepped, rest⟩ := Option.bind_eq_some_iff.mp ran
    exact (ih rest).step stepped

/-- The lines from `index` on begin with these instructions. -/
def Spells (code : List String) (index : Nat) (instructions : List Instruction) : Prop :=
  instructions.map some <+: (code.drop index).map Instruction.decode?

theorem Spells.here {instruction : Instruction} {rest : List Instruction}
    (spells : Spells code index (instruction :: rest)) :
    code[index]?.bind Instruction.decode? = some instruction ∧ Spells code (index + 1) rest := by
  obtain ⟨behind, lines⟩ := spells
  cases ahead : code.drop index with
  | nil => simp [ahead] at lines
  | cons line lines' =>
    rw [ahead] at lines
    obtain ⟨decoded, others⟩ := List.cons.inj lines
    have found : code[index]? = some line := by rw [← List.head?_drop, ahead, List.head?_cons]
    refine ⟨by rw [found, Option.bind_some, ← decoded], behind, ?_⟩
    rw [← List.tail_drop, ahead, List.tail_cons]
    exact others

theorem Spells.append {first second : List Instruction} (spells : Spells code index (first ++ second)) :
    Spells code index first ∧ Spells code (index + first.length) second := by
  constructor
  · obtain ⟨behind, lines⟩ := spells
    refine ⟨second.map some ++ behind, ?_⟩
    rw [← lines, List.map_append, List.append_assoc]
  · induction first generalizing index with
    | nil => exact spells
    | cons instruction rest ih =>
      have later := ih spells.here.2
      rwa [Nat.add_assoc, Nat.add_comm 1] at later

/-- Instructions that are performed one after the other lead to the line behind them. -/
theorem reaches_of_performAll {instructions : List Instruction} (spells : Spells code index instructions)
    (performed : state.performAll? unspecified instructions = some after) :
    Reaches code unspecified ⟨.line index, state⟩ ⟨.line (index + instructions.length), after⟩ := by
  induction instructions generalizing index state with
  | nil =>
    obtain rfl := Option.some.inj performed
    exact .refl _
  | cons instruction rest ih =>
    obtain ⟨next, first, others⟩ := Option.bind_eq_some_iff.mp performed
    obtain ⟨here, behind⟩ := spells.here
    have onward := ih behind others
    rw [Nat.add_assoc, Nat.add_comm 1] at onward
    refine onward.step ?_
    cases instruction with
    | jumpAbove label => cases first
    | leave => cases first
    | _ => simp only [step?, here, first, Option.map_some]

/-- A branch is taken after a comparison of a larger number with a smaller one. -/
theorem step_of_above (unspecified : Unspecified) {label : String} {rest : List Instruction}
    (spells : Spells code index (.jumpAbove label :: rest))
    (above : state.flags.carry = false ∧ state.flags.zero = false) :
    step? code unspecified ⟨.line index, state⟩ = some ⟨.line (lineOf code label), state⟩ := by
  simp only [step?, spells.here.1, above, and_self, ↓reduceIte]

theorem step_of_not_above (unspecified : Unspecified) {label : String} {rest : List Instruction}
    (spells : Spells code index (.jumpAbove label :: rest))
    (notAbove : ¬(state.flags.carry = false ∧ state.flags.zero = false)) :
    step? code unspecified ⟨.line index, state⟩ = some ⟨.line (index + 1), state⟩ := by
  simp only [step?, spells.here.1, notAbove, ↓reduceIte]

theorem step_of_leave (unspecified : Unspecified) {rest : List Instruction}
    (spells : Spells code index (.leave :: rest)) {address : UInt64} (popped : state.pop? = some (address, after)) :
    step? code unspecified ⟨.line index, state⟩ = some ⟨.left address, after⟩ := by
  simp only [step?, spells.here.1, popped, Option.map_some]

end Execution
end ArithAsm.Processor
