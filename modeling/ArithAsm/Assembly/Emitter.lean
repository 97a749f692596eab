import ArithAsm.Assembly.Boilerplate
import ArithAsm.Assembly.Sink

/-! Emitting assembly. A program is walked form by form, and every line is offered to the sink as
soon as it comes up. A refusal ends the walk at once, however deep inside of the forms it
happens, and is passed on to whoever asked for the walk. -/
namespace ArithAsm

variable {σ : Type}

/-- Nothing has been offered. -/
def Feed.idle (state : σ) : Feed σ :=
  ⟨state, [], none⟩

/-- Goes on with what comes next, unless there was a refusal. -/
def Feed.andThen (feed : Feed σ) (next : σ → Feed σ) : Feed σ :=
  match feed.refusal with
  | some _ => feed
  | none =>
    let later := next feed.state
    { later with offered := feed.offered ++ later.offered }

namespace Sink

/-- Offers one line. -/
def emitLine (sink : Sink σ) (state : σ) (line : Line) : Feed σ :=
  let (state, refusal) := sink.offer state line.text
  ⟨state, [line], refusal⟩

/-- Replaces the accumulator by a number. -/
def load (sink : Sink σ) (state : σ) (number : Literal) : Feed σ :=
  sink.emitLine state (.load number.value)

/-- Combines the accumulator with a number, which is staged if it is too wide. -/
def accumulate (sink : Sink σ) (operation : Operation) (state : σ) (number : Literal) : Feed σ :=
  if number.value ≤ maxImmediate then sink.emitLine state (.combine operation number.value)
  else
    (sink.emitLine state (.stage number.value)).andThen fun state =>
      sink.emitLine state (.combineStaged operation)

/-- Combines the accumulator with numbers in order. -/
def accumulateAll (sink : Sink σ) (operation : Operation) (state : σ) : List Literal → Feed σ
  | [] => .idle state
  | number :: rest =>
    (sink.accumulate operation state number).andThen fun state =>
      sink.accumulateAll operation state rest

mutual

/-- Emits a form. The argument of a dump is in the accumulator before it is printed. -/
def emitForm (sink : Sink σ) (state : σ) : Form → Feed σ
  | .literal number => sink.load state number
  | .group _ members => sink.emitProgram state members
  | .dump argument =>
    (sink.emitForm state argument).andThen fun state =>
      (sink.emitLine state .dumpRemark).andThen fun state => sink.emitLine state .callDump
  | .add terms =>
    (sink.emitLine state (.operatorRemark .add)).andThen fun state =>
      sink.accumulateAll .add state terms
  | .sub seed terms =>
    (sink.emitLine state (.operatorRemark .sub)).andThen fun state =>
      (sink.load state seed).andThen fun state => sink.accumulateAll .sub state terms

/-- Emits forms in order. -/
def emitProgram (sink : Sink σ) (state : σ) : Program → Feed σ
  | [] => .idle state
  | form :: rest =>
    (sink.emitForm state form).andThen fun state => sink.emitProgram state rest

end

/-- Emits what stands before the program's own lines. The accumulator starts at zero. -/
def emitPrologue (sink : Sink σ) (state : σ) : Feed σ :=
  (sink.emitLine state (.fixed "section .text")).andThen fun state =>
    (sink.emitLine state (.fixed "global _start")).andThen fun state =>
      (sink.feed state (dumpRoutine.map .fixed)).andThen fun state =>
        (sink.emitLine state (.fixed entryLabel)).andThen fun state =>
          sink.emitLine state (.fixed s!"\txor {accumulator}, {accumulator}")

/-- Emits what stands after the program's own lines. -/
def emitEpilogue (sink : Sink σ) (state : σ) : Feed σ :=
  sink.feed state epilogue

end Sink
end ArithAsm
