import ArithAsm.Assembly.Compile

/-! The walk over a program as one list of lines. Offering one list and going on with another
unless there was a refusal is offering both as one list. A walk does nothing else at every form,
so by induction on the forms it offers the list of their lines, up to the first that is refused,
wherever in the program that line comes from. -/
namespace ArithAsm

variable {σ : Type} {sink : Sink σ} {state : σ}

/-! ## Lists of lines -/

/-- More lines are offered only where none of the earlier ones was refused. -/
theorem feed_append (first second : List Line) :
    sink.feed state (first ++ second) =
      (sink.feed state first).andThen fun next => sink.feed next second := by
  induction first generalizing state with
  | nil => rfl
  | cons line rest ih =>
    cases offer : sink.offer state line.text with
    | mk next answer =>
      cases answer with
      | some refusal => simp [Sink.feed, Feed.andThen, offer]
      | none =>
        cases refused : (sink.feed next rest).refusal <;>
          simp [Sink.feed, Feed.andThen, offer, ih, refused]

theorem emitLine_eq_feed (line : Line) : sink.emitLine state line = sink.feed state [line] := by
  unfold Sink.emitLine Sink.feed
  cases sink.offer state line.text with
  | mk next answer => cases answer <;> rfl

/-- A line and what comes behind it. -/
theorem emitLine_andThen_feed (line : Line) (rest : List Line) :
    ((sink.emitLine state line).andThen fun next => sink.feed next rest) =
      sink.feed state (line :: rest) := by
  rw [emitLine_eq_feed, ← feed_append, List.singleton_append]

/-! ## Walks -/

theorem load_eq_feed (number : Literal) :
    sink.load state number = sink.feed state [.load number.value] :=
  emitLine_eq_feed _

theorem accumulate_eq_feed (operation : Operation) (number : Literal) :
    sink.accumulate operation state number = sink.feed state (number.combineLines operation) := by
  unfold Sink.accumulate Literal.combineLines
  split
  · exact emitLine_eq_feed _
  · simp only [emitLine_eq_feed, ← feed_append, List.singleton_append]

theorem accumulateAll_eq_feed (operation : Operation) (numbers : List Literal) :
    sink.accumulateAll operation state numbers =
      sink.feed state (numbers.flatMap (Literal.combineLines operation)) := by
  induction numbers generalizing state with
  | nil => rfl
  | cons number rest ih =>
    simp only [Sink.accumulateAll, accumulate_eq_feed, ih, ← feed_append, List.flatMap_cons]

mutual

/-- Walking a form offers its lines. -/
theorem emitForm_eq_feed (state : σ) : (form : Form) →
    sink.emitForm state form = sink.feed state form.lines
  | .literal number => by rw [Sink.emitForm, Form.lines, load_eq_feed]
  | .group _ members => by rw [Sink.emitForm, Form.lines, emitProgram_eq_feed state members]
  | .dump argument => by
    simp only [Sink.emitForm, Form.lines, emitForm_eq_feed state argument, emitLine_eq_feed,
      ← feed_append, List.singleton_append]
  | .add terms => by
    simp only [Sink.emitForm, Form.lines, accumulateAll_eq_feed, emitLine_andThen_feed]
  | .sub seed terms => by
    simp only [Sink.emitForm, Form.lines, accumulateAll_eq_feed, Sink.load, emitLine_andThen_feed]

/-- Walking a program offers its own lines. -/
theorem emitProgram_eq_feed (state : σ) : (program : Program) →
    sink.emitProgram state program = sink.feed state program.lines
  | [] => by rw [Sink.emitProgram, Program.lines]; rfl
  | form :: rest => by
    simp only [Sink.emitProgram, Program.lines, emitForm_eq_feed state form,
      fun next => emitProgram_eq_feed next rest, ← feed_append]

end

theorem emitPrologue_eq_feed : sink.emitPrologue state = sink.feed state prologue := by
  have parts : prologue = .fixed "section .text" :: .fixed "global _start" ::
      (dumpRoutine.map .fixed ++ .fixed entryLabel ::
        [.fixed s!"\txor {accumulator}, {accumulator}"]) := by
    simp [prologue]
  simp only [Sink.emitPrologue, parts, emitLine_eq_feed, ← feed_append, List.singleton_append]

theorem emitEpilogue_eq_feed : sink.emitEpilogue state = sink.feed state epilogue := rfl

/-! ## Steps -/

/-- The lines of a step, unless its source is malformed. -/
def Step.lines : Step → Except Error (List Line)
  | .line text => .ok [.fixed text]
  | .prologue => .ok ArithAsm.prologue
  | .epilogue => .ok ArithAsm.epilogue
  | .form item => .ok item.lines
  | .program forms => .ok forms.lines
  | .source bytes => (parse bytes).map Program.lines

/-- The records made before the lines of a step are offered. -/
def Step.records : Step → List Record
  | .source bytes => readRecords bytes
  | _ => []

/-- Carrying out a step offers its lines. -/
theorem Step.run_eq_feed (step : Step) (sink : Sink σ) (state : σ) :
    step.run sink state =
      match step.lines with
      | .error error => (state, step.records, some (.malformed error))
      | .ok lines => (sink.feed state lines).report step.records := by
  cases step with
  | line text => rw [run, emitLine_eq_feed]; rfl
  | prologue => rw [run, emitPrologue_eq_feed]; rfl
  | epilogue => rfl
  | form item => rw [run, emitForm_eq_feed]; rfl
  | program forms => rw [run, emitProgram_eq_feed]; rfl
  | source bytes =>
    cases parsed : parse bytes with
    | error error => simp [run, lines, records, parsed, Except.map]
    | ok program => simp [run, lines, records, parsed, Except.map, emitProgram_eq_feed]

end ArithAsm
