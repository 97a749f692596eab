import ArithAsm.Proofs.Machine.Instruction
import Mathlib.Logic.Relation

/-! Execution of a listing, line by line. Calling the print routine records the
accumulator and leaves arbitrary values in the registers that the routine may
destroy, so one configuration can have many successors; `Inevitably` speaks of
all of them. -/
namespace ArithAsm.Machine

/-- A running process. -/
structure Process where
  /-- The index of the next line. -/
  line : Nat
  registers : Register → UInt64
  /-- The vector register `xmm0`. -/
  vector : BitVec 128
  /-- The values printed so far, in order. -/
  printed : List UInt64
  /-- The exit status, once the process has ended. -/
  status : Option UInt64

/-- Values that a called routine leaves behind. -/
structure Leftovers where
  registers : Register → UInt64
  vector : BitVec 128

/-- The registers that the print routine may destroy, the vector register apart. -/
def volatile : List Register :=
  [.rax, .rcx, .rdx, .rsi, .r8, .r11]

namespace Process

/-- A process that is about to execute the line `line` of a listing. -/
def start (line : Nat) (registers : Register → UInt64) (vector : BitVec 128) : Process :=
  ⟨line, registers, vector, [], none⟩

/-- The value of an operand. -/
def value (process : Process) : Operand → UInt64
  | .immediate value => value
  | .register source => process.registers source

/-- The process with another value in one register, at the next line. -/
def assign (process : Process) (target : Register) (value : UInt64) : Process :=
  { process with
    line := process.line + 1
    registers := Function.update process.registers target value }

/-- What is left after the print routine has returned. -/
def afterPrint (process : Process) (leftovers : Leftovers) : Process :=
  { process with
    line := process.line + 1
    registers := fun register =>
      if register ∈ volatile then leftovers.registers register else process.registers register
    vector := leftovers.vector
    printed := process.printed ++ [process.registers .rdi] }

/-- The effect of one instruction. The only routine is `dump`, which the listing
must define, and the only system call is the exit, number 60. -/
def execute (code : List String) (leftovers : Leftovers) (process : Process) :
    Instruction → Option Process
  | .skip => some { process with line := process.line + 1 }
  | .compute verb target operand =>
    some (process.assign target (verb.apply (process.registers target) (process.value operand)))
  | .call routine =>
    if routine = "dump" ∧ "dump:" ∈ code then some (process.afterPrint leftovers) else none
  | .systemCall =>
    if process.registers .rax = 60 then some { process with status := some (process.registers .rdi) }
    else none

/-- One step: the next line is decoded and executed. A process that has ended
makes none, and neither does one whose line is missing or cannot be decoded. -/
def step? (code : List String) (leftovers : Leftovers) (process : Process) : Option Process :=
  match process.status with
  | some _ => none
  | none => do
    let line ← code[process.line]?
    let instruction ← Instruction.decode? line
    process.execute code leftovers instruction

/-- One step, whatever a called routine leaves behind. -/
def Advances (code : List String) (before after : Process) : Prop :=
  ∃ leftovers, before.step? code leftovers = some after

/-- Every run from here comes, without getting stuck on the way, to a process
with the property. -/
inductive Inevitably (code : List String) (goal : Process → Prop) : Process → Prop where
  | now (reached : goal process) : Inevitably code goal process
  | later (able : ∃ next, Advances code process next)
      (onward : ∀ next, Advances code process next → Inevitably code goal next) :
      Inevitably code goal process

variable {code : List String} {goal middle : Process → Prop} {process : Process}

theorem inevitably_trans (first : Inevitably code middle process)
    (second : ∀ process, middle process → Inevitably code goal process) :
    Inevitably code goal process := by
  induction first with
  | now reached => exact second _ reached
  | later able _ ih => exact .later able ih

/-- Whatever a called routine leaves behind, one decoded line is one step. -/
theorem inevitably_of_execute {text : String} {instruction : Instruction}
    {after : Leftovers → Process} (running : process.status = none)
    (here : code[process.line]? = some text) (decoded : Instruction.decode? text = some instruction)
    (effect : ∀ leftovers, process.execute code leftovers instruction = some (after leftovers))
    (onward : ∀ leftovers, Inevitably code goal (after leftovers)) :
    Inevitably code goal process := by
  have stepped (leftovers) : process.step? code leftovers = some (after leftovers) := by
    simpa [step?, running, here, decoded] using effect leftovers
  refine .later ⟨after ⟨process.registers, process.vector⟩, _, stepped _⟩ ?_
  rintro next ⟨leftovers, reached⟩
  obtain rfl := Option.some.inj ((stepped leftovers).symm.trans reached)
  exact onward leftovers

/-- On the way to the end of a process, every process that is reached has ended
or can take a further step. -/
theorem progress_of_inevitably (inevitable : Inevitably code goal process)
    (final : ∀ process, goal process → process.status.isSome)
    (reached : Relation.ReflTransGen (Advances code) process other) :
    other.status.isSome ∨ ∃ next, Advances code other next := by
  induction inevitable with
  | @now process holds =>
    have ended := final _ holds
    rcases Relation.ReflTransGen.cases_head reached with rfl | ⟨next, ⟨leftovers, stepped⟩, _⟩
    · exact .inl ended
    · obtain ⟨status, isStatus⟩ := Option.isSome_iff_exists.mp ended
      simp [step?, isStatus] at stepped
  | later able _ ih =>
    rcases Relation.ReflTransGen.cases_head reached with rfl | ⟨next, stepped, rest⟩
    · exact .inr able
    · exact ih next stepped rest

end Process
end ArithAsm.Machine
