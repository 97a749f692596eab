import ArithAsm.Proofs.Refusals

/-! What a copy holds. Whatever has been carried out through a copying sink, and whatever
came of it, the copy has the lines that the sink took and no others. Each step offers the
lines that it would offer on its own, up to the first that is refused; nothing is left
over from the steps before it. -/
namespace ArithAsm

/-- A line that a sink was offered, and its answer. -/
structure Exchange where
  line : String
  answer : Option IoError
deriving DecidableEq, Repr

/-- The line is offered and taken. -/
def Line.accepted (line : Line) : Exchange :=
  ⟨line.text, none⟩

/-- The line is offered and refused. -/
def Line.declined (line : Line) (cause : IoError) : Exchange :=
  ⟨line.text, some cause⟩

/-- The lines that were taken. -/
def Exchange.taken (exchanges : List Exchange) : List String :=
  (exchanges.filter (·.answer.isNone)).map line

/-- The same sink, with a record of what it was offered and how it answered. -/
def Sink.transcribed {σ : Type} (sink : Sink σ) : Sink (σ × List Exchange) where
  offer both line :=
    match sink.offer both.1 line with
    | (next, answer) => ((next, both.2 ++ [⟨line, answer⟩]), answer)

/-- Carries out steps in order, whatever comes of each. -/
def Step.runAll {σ : Type} (sink : Sink σ) (state : σ) : List Step → σ × List (Option Trouble)
  | [] => (state, [])
  | step :: rest =>
    let (next, _, trouble) := step.run sink state
    let (last, troubles) := Step.runAll sink next rest
    (last, trouble :: troubles)

/-- How a step can go: what is exchanged with the sink, and what is reported. -/
inductive Step.Exchanges (step : Step) : List Exchange → Option Trouble → Prop where
  /-- Every line is offered and taken. -/
  | taken {lines : List Line} (own : step.lines = .ok lines) :
      Exchanges step (lines.map Line.accepted) none
  /-- Lines are offered and taken up to one that is refused. -/
  | refused {front rest : List Line} {line : Line} (own : step.lines = .ok (front ++ line :: rest))
      (cause : IoError) :
      Exchanges step (front.map Line.accepted ++ [line.declined cause])
        (some (.refused cause))
  /-- There is nothing to offer. -/
  | malformed {error : Error} (own : step.lines = .error error) :
      Exchanges step [] (some (.malformed error))

variable {σ : Type} {sink : Sink σ}

theorem Exchange.taken_append (first second : List Exchange) :
    taken (first ++ second) = taken first ++ taken second := by
  simp [taken]

theorem Exchange.taken_all (lines : List Line) :
    taken (lines.map Line.accepted) = lines.map Line.text := by
  induction lines with
  | nil => rfl
  | cons line rest ih => simpa [taken, Line.accepted] using ih

/-! ## One step -/

/-- Feeding lines is recorded as it happens. -/
theorem transcribed_feed (sink : Sink σ) (state : σ) (exchanges : List Exchange) (lines : List Line) :
    (∃ last, sink.feed state lines = ⟨last, lines, none⟩ ∧
      sink.transcribed.feed (state, exchanges) lines =
        ⟨(last, exchanges ++ lines.map Line.accepted), lines, none⟩) ∨
    ∃ front line rest last cause, lines = front ++ line :: rest ∧
      sink.feed state lines = ⟨last, front ++ [line], some cause⟩ ∧
      sink.transcribed.feed (state, exchanges) lines =
        ⟨(last, exchanges ++ (front.map Line.accepted ++ [line.declined cause])),
          front ++ [line], some cause⟩ := by
  induction lines generalizing state exchanges with
  | nil => exact .inl ⟨state, rfl, by simp [Sink.feed]⟩
  | cons line rest ih =>
    cases offer : sink.offer state line.text with
    | mk next answer =>
      have recorded : sink.transcribed.offer (state, exchanges) line.text =
          ((next, exchanges ++ [⟨line.text, answer⟩]), answer) := by
        simp [Sink.transcribed, offer]
      cases answer with
      | some cause =>
        refine .inr ⟨[], line, rest, next, cause, rfl, ?_, ?_⟩
        · simp [Sink.feed, offer]
        · simp [Sink.feed, recorded, Line.declined]
      | none =>
        rcases ih next (exchanges ++ [⟨line.text, none⟩]) with ⟨last, fed, transcribed⟩ |
          ⟨front, refused, others, last, cause, rfl, fed, transcribed⟩
        · refine .inl ⟨last, ?_, ?_⟩
          · simp [Sink.feed, offer, fed]
          · simp [Sink.feed, recorded, transcribed, Line.accepted]
        · refine .inr ⟨line :: front, refused, others, last, cause, rfl, ?_, ?_⟩
          · simp [Sink.feed, offer, fed]
          · simp [Sink.feed, recorded, transcribed, Line.accepted]

/-- One step: what is exchanged is recorded, the copy gains what was taken, and without
the record all goes the same way. -/
theorem Step.run_transcribed (step : Step) (sink : Sink σ) (state : σ) (exchanges : List Exchange)
    (copy : Listing) :
    ∃ last more records trouble, step.Exchanges more trouble ∧
      step.run sink.transcribed.tee ((state, exchanges), copy) =
        (((last, exchanges ++ more), ⟨copy.lines ++ Exchange.taken more⟩), records, trouble) ∧
      step.run sink.tee (state, copy) =
        ((last, ⟨copy.lines ++ Exchange.taken more⟩), records, trouble) := by
  cases own : step.lines with
  | error error =>
    refine ⟨state, [], step.records, _, .malformed own, ?_, ?_⟩
    · simp [Step.run_eq_feed, own, Exchange.taken]
    · simp [Step.run_eq_feed, own, Exchange.taken]
  | ok lines =>
    rcases transcribed_feed sink state exchanges lines with ⟨last, fed, transcribed⟩ |
      ⟨front, line, rest, last, cause, rfl, fed, transcribed⟩
    · refine ⟨last, _, step.records ++ lines.filterMap Line.record?, none, .taken own, ?_, ?_⟩
      · simp [Step.run_eq_feed, Feed.report, own, tee_feed, transcribed, Feed.taken, Feed.records,
          Exchange.taken_all]
      · simp [Step.run_eq_feed, Feed.report, own, tee_feed, fed, Feed.taken, Feed.records,
          Exchange.taken_all]
    · have copied : Exchange.taken (front.map Line.accepted ++ [line.declined cause]) =
          front.map Line.text := by
        rw [Exchange.taken_append, Exchange.taken_all]
        simp [Exchange.taken, Line.declined]
      refine ⟨last, _, step.records ++ (front ++ [line]).filterMap Line.record?, _,
        .refused own cause, ?_, ?_⟩
      · simp [Step.run_eq_feed, Feed.report, own, tee_feed, transcribed, Feed.taken, Feed.records,
          copied]
      · simp [Step.run_eq_feed, Feed.report, own, tee_feed, fed, Feed.taken, Feed.records,
          copied]

/-! ## Steps in a row -/

theorem Step.runAll_concat (state : σ) (history : List Step) (step : Step) :
    Step.runAll sink state (history ++ [step]) =
      ((step.run sink (Step.runAll sink state history).1).1,
        (Step.runAll sink state history).2 ++ [(step.run sink (Step.runAll sink state history).1).2.2]) := by
  induction history generalizing state with
  | nil => simp [Step.runAll]
  | cons earlier rest ih => simp [Step.runAll, ih]

/-- A run of steps: the copy gains what was taken in all of them. -/
theorem Step.runAll_transcribed (sink : Sink σ) (state : σ) (exchanges : List Exchange)
    (copy : Listing) (steps : List Step) :
    ∃ last more troubles,
      Step.runAll sink.transcribed.tee ((state, exchanges), copy) steps =
        (((last, exchanges ++ more), ⟨copy.lines ++ Exchange.taken more⟩), troubles) ∧
      Step.runAll sink.tee (state, copy) steps =
        ((last, ⟨copy.lines ++ Exchange.taken more⟩), troubles) := by
  induction steps generalizing state exchanges copy with
  | nil => exact ⟨state, [], [], by simp [Step.runAll, Exchange.taken]⟩
  | cons step rest ih =>
    obtain ⟨next, first, records, trouble, -, recorded, plain⟩ :=
      step.run_transcribed sink state exchanges copy
    obtain ⟨last, later, troubles, recordedRest, plainRest⟩ :=
      ih next (exchanges ++ first) ⟨copy.lines ++ Exchange.taken first⟩
    have joined : copy.lines ++ Exchange.taken first ++ Exchange.taken later =
        copy.lines ++ Exchange.taken (first ++ later) := by
      apply Array.ext'
      simp [Exchange.taken_append]
    refine ⟨last, first ++ later, trouble :: troubles, ?_, ?_⟩
    · simp [Step.runAll, recorded, recordedRest, joined]
    · simp [Step.runAll, plain, plainRest, joined]

/-- After any steps through a copying sink the copy has, in order, the lines that the sink
took, and keeping a record of the exchanges has made no difference. A further step offers
its own lines in order, whatever was done before it: all of them are taken and nothing is
reported, or they are offered up to the first that is refused and that is reported. -/
theorem copy_holds_lines_taken (sink : Sink σ) (state : σ) (history : List Step) :
    let run := Step.runAll sink.transcribed.tee ((state, []), .empty) history
    run.1.2.lines.toList = Exchange.taken run.1.1.2 ∧
      Step.runAll sink.tee (state, .empty) history = ((run.1.1.1, run.1.2), run.2) ∧
      ∀ step : Step,
        let longer := Step.runAll sink.transcribed.tee ((state, []), .empty) (history ++ [step])
        ∃ more trouble, longer.1.1.2 = run.1.1.2 ++ more ∧ longer.2 = run.2 ++ [trouble] ∧
          step.Exchanges more trouble := by
  intro run
  obtain ⟨last, more, troubles, recorded, plain⟩ :=
    Step.runAll_transcribed sink state [] .empty history
  refine ⟨?_, ?_, fun step => ?_⟩
  · simp [run, recorded, Listing.empty]
  · simp [run, recorded, plain]
  · obtain ⟨next, added, records, trouble, exchanges, ran, -⟩ :=
      step.run_transcribed sink run.1.1.1 run.1.1.2 run.1.2
    refine ⟨added, trouble, ?_, ?_, exchanges⟩
    · rw [Step.runAll_concat]
      exact congrArg (·.1.1.2) ran
    · rw [Step.runAll_concat]
      exact congrArg (fun result => run.2 ++ [result.2.2]) ran

/-- A line that is refused has been offered, also where it is the last: then all the lines
of the step have been offered, and the refusal is reported nevertheless. -/
theorem refused_last_line_was_offered :
    let step := Step.form (.dump (.literal ⟨1, ⟨0, 0⟩⟩))
    let run := Step.runAll (Listing.sinkUpTo 2).transcribed.tee ((.empty, []), .empty) [step]
    step.lines = .ok [.load 1, .dumpRemark, .callDump] ∧
      run.1.1.2.map Exchange.line = [Line.load 1, .dumpRemark, .callDump].map Line.text ∧
      run.2 = [some (.refused (.other "sink full"))] := by
  refine ⟨rfl, ?_, ?_⟩ <;> decide +kernel

end ArithAsm
