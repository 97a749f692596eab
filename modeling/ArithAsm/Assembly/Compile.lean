import ArithAsm.Assembly.Emitter
import ArithAsm.Form.Commentary

/-! Compiling a source into a sink. The whole source is read before the first
line is offered, so a malformed one leaves the sink as it was. -/
namespace ArithAsm

/-- What came of compiling: the condition the sink is left in, the records made,
and a copy of the program's own lines or the reason for giving up. -/
structure Compilation (σ : Type) where
  state : σ
  records : List Record
  result : Except Error Listing

/-- Writes the assembly of a program that has been read. The lines between
prologue and epilogue are copied on their way. -/
def Program.emit {σ : Type} (program : Program) (sink : Sink σ) (state : σ) : Compilation σ :=
  let opening := sink.emitPrologue state
  match opening.refusal with
  | some refusal => ⟨opening.state, opening.records, .error (.emit refusal)⟩
  | none =>
    let body := sink.tee.emitProgram (opening.state, .empty) program
    match body.refusal with
    | some refusal => ⟨body.state.1, body.records, .error (.emit refusal)⟩
    | none =>
      let closing := sink.emitEpilogue body.state.1
      match closing.refusal with
      | some refusal => ⟨closing.state, body.records, .error (.emit refusal)⟩
      | none =>
        let count : Record :=
          ⟨.info, .compiler, s!"emitted {body.state.2.length} instruction line(s)"⟩
        ⟨closing.state, body.records ++ [count], .ok body.state.2⟩

/-- Reads `source` and writes its assembly to `sink`. -/
def compile {σ : Type} (sink : Sink σ) (state : σ) (source : Bytes) : Compilation σ :=
  match parse source with
  | .error error => ⟨state, readRecords source, .error error⟩
  | .ok program =>
    let emitted := program.emit sink state
    { emitted with records := readRecords source ++ emitted.records }

/-! ## Single steps -/

/-- A part of an assembly that can be written on its own. -/
inductive Step where
  | line (text : String)
  | prologue
  | epilogue
  | form (item : Form)
  | program (forms : Program)
  /-- The own lines of the program that the bytes spell. -/
  | source (bytes : Bytes)
deriving Repr

/-- Why a step was not carried out to its end. -/
inductive Trouble where
  | refused (cause : IoError)
  | malformed (error : Error)
deriving DecidableEq, Repr

/-- What a step reports once its lines have been offered, after `records`. -/
def Feed.report {σ : Type} (feed : Feed σ) (records : List Record) :
    σ × List Record × Option Trouble :=
  (feed.state, records ++ feed.records, feed.refusal.map .refused)

/-- Carries out one step. -/
def Step.run {σ : Type} (step : Step) (sink : Sink σ) (state : σ) :
    σ × List Record × Option Trouble :=
  match step with
  | .line text => (sink.emitLine state (.fixed text)).report []
  | .prologue => (sink.emitPrologue state).report []
  | .epilogue => (sink.emitEpilogue state).report []
  | .form item => (sink.emitForm state item).report []
  | .program forms => (sink.emitProgram state forms).report []
  | .source bytes =>
    match parse bytes with
    | .error error => (state, readRecords bytes, some (.malformed error))
    | .ok forms => (sink.emitProgram state forms).report (readRecords bytes)

end ArithAsm
