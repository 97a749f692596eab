import ArithAsm.Form

/-! What a program means, without a machine: its forms are evaluated from left
to right against one 64-bit accumulator, whose arithmetic wraps around. -/
namespace ArithAsm

/-- The accumulator, and the values printed so far in order. -/
structure Evaluation where
  accumulator : UInt64
  printed : List UInt64
deriving DecidableEq, Repr

/-- The accumulator is printed and keeps its value. -/
def Evaluation.print (state : Evaluation) : Evaluation :=
  { state with printed := state.printed ++ [state.accumulator] }

/-- The accumulator receives another value. -/
def Evaluation.load (state : Evaluation) (value : UInt64) : Evaluation :=
  { state with accumulator := value }

mutual

/-- Evaluates one form. -/
def Form.evaluate : Form → Evaluation → Evaluation
  | .literal number, state => state.load number.value
  | .group _ members, state => Program.evaluate members state
  | .dump argument, state => (argument.evaluate state).print
  | .add terms, state =>
    state.load (terms.foldl (fun sum term => sum + term.value) state.accumulator)
  | .sub seed terms, state =>
    state.load (terms.foldl (fun difference term => difference - term.value) seed.value)

/-- Evaluates forms in order. -/
def Program.evaluate : Program → Evaluation → Evaluation
  | [], state => state
  | form :: rest, state => Program.evaluate rest (form.evaluate state)

end

/-- The evaluation of a whole program. The accumulator starts at zero. -/
def Program.meaning (program : Program) : Evaluation :=
  Program.evaluate program ⟨0, []⟩

end ArithAsm
