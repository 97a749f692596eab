import ArithAsm.Proofs.Feeding

/-! What compiling asks of a sink. The three parts of an assembly are offered as
one list of lines, in order, up to and including the first line that is refused;
the refusal is what compiling reports. A sink that is never offered a line is in
the condition it was in. -/
namespace ArithAsm

/-- The same sink, with a record of the lines that it was offered. -/
def Sink.recorded {σ : Type} (sink : Sink σ) : Sink (σ × List String) where
  offer both line :=
    match sink.offer both.1 line with
    | (next, answer) => ((next, both.2 ++ [line]), answer)

/-- The sink takes all of the lines, one after the other. -/
inductive Sink.Takes {σ : Type} (sink : Sink σ) : σ → List String → σ → Prop where
  | nothing (state : σ) : Takes sink state [] state
  | line {state next last : σ} {line : String} {rest : List String}
      (taken : sink.offer state line = (next, none)) (later : Takes sink next rest last) :
      Takes sink state (line :: rest) last

/-- The lines that compiling offers to a sink, in order. -/
def linesOffered {σ : Type} (sink : Sink σ) (state : σ) (source : Bytes) : List String :=
  (compile sink.recorded (state, []) source).state.2

variable {σ : Type} {sink : Sink σ} {state : σ}

/-! ## Feeding -/

/-- Without a refusal every line was offered. -/
theorem offered_of_not_refused {lines : List Line} (unrefused : (sink.feed state lines).refusal = none) :
    (sink.feed state lines).offered = lines := by
  induction lines generalizing state with
  | nil => rfl
  | cons line rest ih =>
    cases offer : sink.offer state line.text with
    | mk next answer =>
      cases answer with
      | some refusal => simp [Sink.feed, offer] at unrefused
      | none =>
        simp only [Sink.feed, offer] at unrefused ⊢
        rw [ih unrefused]

/-- A sink is fed all of the lines, or it takes some and refuses the next one. -/
theorem feed_cases (sink : Sink σ) (state : σ) (lines : List Line) :
    (∃ last, sink.Takes state (lines.map Line.text) last ∧ sink.feed state lines = ⟨last, lines, none⟩) ∨
    ∃ taken line rest before after refusal, lines = taken ++ line :: rest ∧
      sink.Takes state (taken.map Line.text) before ∧
      sink.offer before line.text = (after, some refusal) ∧
      sink.feed state lines = ⟨after, taken ++ [line], some refusal⟩ := by
  induction lines generalizing state with
  | nil => exact .inl ⟨state, .nothing state, rfl⟩
  | cons line rest ih =>
    cases offer : sink.offer state line.text with
    | mk next answer =>
      cases answer with
      | some refusal =>
        exact .inr ⟨[], line, rest, state, next, refusal, rfl, .nothing state, offer, by
          simp [Sink.feed, offer]⟩
      | none =>
        rcases ih next with ⟨last, takes, fed⟩ |
          ⟨taken, refused, others, before, after, refusal, rfl, takes, refuses, fed⟩
        · exact .inl ⟨last, .line offer takes, by simp [Sink.feed, offer, fed]⟩
        · exact .inr ⟨line :: taken, refused, others, before, after, refusal, rfl, .line offer takes,
            refuses, by simp [Sink.feed, offer, fed]⟩

/-- Keeping a record of the calls makes no difference to them. -/
theorem recorded_feed (lines : List Line) (calls : List String) :
    sink.recorded.feed (state, calls) lines =
      ⟨((sink.feed state lines).state, calls ++ (sink.feed state lines).offered.map Line.text),
        (sink.feed state lines).offered, (sink.feed state lines).refusal⟩ := by
  induction lines generalizing state calls with
  | nil => simp [Sink.feed]
  | cons line rest ih =>
    cases offer : sink.offer state line.text with
    | mk next answer =>
      have passed : sink.recorded.offer (state, calls) line.text =
          ((next, calls ++ [line.text]), answer) := by
        simp [Sink.recorded, offer]
      cases answer with
      | some refusal => simp [Sink.feed, offer, passed]
      | none => simp [Sink.feed, offer, passed, ih]

/-! ## Whole assemblies -/

/-- Prologue, own lines and epilogue are fed as one list, and the copy is of the
own lines. -/
theorem emit_eq_feed (program : Program) :
    (program.emit sink state).state = (sink.feed state program.assembly).state ∧
      (program.emit sink state).result =
        match (sink.feed state program.assembly).refusal with
        | some refusal => .error (.emit refusal)
        | none => .ok ⟨(program.lines.map Line.text).toArray⟩ := by
  simp only [Program.emit, emitPrologue_eq_feed, emitProgram_eq_feed, emitEpilogue_eq_feed, tee_feed,
    Program.assembly, List.append_assoc, feed_append, Feed.andThen]
  cases opening : (sink.feed state prologue).refusal with
  | some refusal => simp [opening]
  | none =>
    cases body : (sink.feed (sink.feed state prologue).state program.lines).refusal with
    | some refusal => simp [body]
    | none =>
      have copied := offered_of_not_refused body
      cases closing : (sink.feed (sink.feed (sink.feed state prologue).state
        program.lines).state epilogue).refusal <;> simp [Feed.taken, body, copied, Listing.empty]

/-- The lines offered are those that the sink is fed of the whole assembly. -/
theorem linesOffered_of_parsed {source : Bytes} {program : Program} (parsed : parse source = .ok program) :
    linesOffered sink state source = (sink.feed state program.assembly).offered.map Line.text := by
  simp [linesOffered, compile, parsed, emit_eq_feed, recorded_feed]

/-- Whatever the sink, the lines handed back are the program's own. -/
theorem core_of_compile {source : Bytes} {core : Listing}
    (accepted : (compile sink state source).result = .ok core) :
    ∃ program, parse source = .ok program ∧ core.lines.toList = program.lines.map Line.text := by
  cases parsed : parse source with
  | error error => simp [compile, parsed] at accepted
  | ok program =>
    refine ⟨program, rfl, ?_⟩
    simp only [compile, parsed, emit_eq_feed] at accepted
    split at accepted
    · cases accepted
    · cases accepted
      rfl

/-- A program by itself writes its own lines. -/
theorem run_program_listing (program : Program) :
    ∃ records, (Step.program program).run Listing.sink .empty =
      (⟨(program.lines.map Line.text).toArray⟩, records, none) := by
  refine ⟨(Listing.sink.feed .empty program.lines).records, ?_⟩
  simp [Step.run_eq_feed, Step.lines, Step.records, Feed.report, listing_feed, Listing.empty]

/-- A source that does not parse is reported as such and no line is offered. For
one that does, there is one list of lines, the program's own lines between
prologue and epilogue, which every sink is offered in order: either it takes them
all and the own lines are handed back, or compiling stops at the first line that
is refused and reports that refusal. -/
theorem compile_offers_until_refused (source : Bytes) :
    (∃ error, parse source = .error error ∧
      ∀ (σ : Type) (sink : Sink σ) (state : σ), linesOffered sink state source = [] ∧
        (compile sink state source).state = state ∧
        (compile sink state source).result = .error error) ∨
    ∃ program core records lines, parse source = .ok program ∧
      (Step.program program).run Listing.sink .empty = (core, records, none) ∧
      lines = prologue.map Line.text ++ core.lines.toList ++ epilogue.map Line.text ∧
      ∀ (σ : Type) (sink : Sink σ) (state : σ),
        (∃ last, sink.Takes state lines last ∧ linesOffered sink state source = lines ∧
          (compile sink state source).state = last ∧
          (compile sink state source).result = .ok core) ∨
        ∃ taken line rest before after refusal, lines = taken ++ line :: rest ∧
          sink.Takes state taken before ∧ sink.offer before line = (after, some refusal) ∧
          linesOffered sink state source = taken ++ [line] ∧
          (compile sink state source).state = after ∧
          (compile sink state source).result = .error (.emit refusal) := by
  cases parsed : parse source with
  | error error =>
    exact .inl ⟨error, rfl, fun σ sink state => by simp [linesOffered, compile, parsed]⟩
  | ok program =>
    obtain ⟨records, written⟩ := run_program_listing program
    have whole : program.assembly.map Line.text =
        prologue.map Line.text ++ program.lines.map Line.text ++ epilogue.map Line.text := by
      simp [Program.assembly]
    refine .inr ⟨program, _, records, _, rfl, written, rfl, fun σ sink state => ?_⟩
    rw [List.toList_toArray, ← whole, linesOffered_of_parsed parsed]
    simp only [compile, parsed, emit_eq_feed]
    rcases feed_cases sink state program.assembly with ⟨last, takes, fed⟩ |
      ⟨taken, line, rest, before, after, refusal, split, takes, refuses, fed⟩
    · exact .inl ⟨last, takes, by simp [fed]⟩
    · refine .inr ⟨_, line.text, rest.map Line.text, before, after, refusal, ?_, takes, refuses, ?_⟩
      · simp [split]
      · simp [fed]

end ArithAsm
