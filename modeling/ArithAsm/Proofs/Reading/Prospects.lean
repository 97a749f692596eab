import ArithAsm.Proofs.Positions
import ArithAsm.Proofs.Reading.Exactness
import ArithAsm.Proofs.Reading.Refusal
import ArithAsm.Proofs.Scanning

/-! What more text can do for a source that is no program. A source that fails
for what its end leaves unfinished can be completed: the missing operand or
argument is supplied and every group that is open is closed. Every other failure
is final. The one that lies between is a dump at the limit of nesting, whose
argument no text can supply and which is blamed on whatever stands next. -/
namespace ArithAsm

/-! ## Closing what is open -/

/-- How many of the forms begun are groups. -/
def Frame.groups (frames : List Frame) : Nat :=
  frames.countP (! ·.isDump)

theorem Frame.groups_dropWhile (frames : List Frame) :
    groups (frames.dropWhile isDump) = groups frames := by
  induction frames with
  | nil => rfl
  | cons frame outer ih =>
    cases frame with
    | group start earlier => rfl
    | dump => simpa [groups, List.dropWhile_cons, isDump] using ih

theorem lexemes_closings (count : Nat) :
    lexemes (List.replicate count 0x29) = List.replicate count .closeGroup := by
  induction count with
  | zero => exact lexemes_nil
  | succ count ih => rw [List.replicate_succ, lexemes_token rfl, ih, List.replicate_succ]

namespace Reader
variable {reader middle after : Reader}

/-- Where only groups are open, as many `)` close them all. -/
theorem closes_groups {closings : List Token} (idle : reader.run = none)
    (settled : reader.frames.head? ≠ some .dump)
    (closers : closings.map Token.lexeme = List.replicate (Frame.groups reader.frames) .closeGroup) :
    ∃ after, reader.steps closings = .ok after ∧ after.run = none ∧ after.frames = [] := by
  induction closings generalizing reader with
  | nil =>
    cases frames : reader.frames with
    | nil => exact ⟨reader, rfl, idle, frames⟩
    | cons frame outer =>
      cases frame with
      | dump => simp [frames] at settled
      | group start earlier => simp [frames, Frame.groups, Frame.isDump] at closers
  | cons closing closings ih =>
    obtain ⟨lexeme, offset⟩ := closing
    cases frames : reader.frames with
    | nil => simp [frames, Frame.groups] at closers
    | cons frame outer =>
      cases frame with
      | dump => simp [frames] at settled
      | group start earlier =>
        have closer : lexeme = .closeGroup ∧
            closings.map Token.lexeme = List.replicate (Frame.groups outer) .closeGroup := by
          simpa [frames, Frame.groups, Frame.isDump, List.replicate_succ] using closers
        obtain ⟨rfl, remaining⟩ := closer
        simp only [steps, step_of_takes idle (.closed frames), Except.bind]
        refine ih idle (push_head _ _) ?_
        rw [push_frames, Frame.groups_dropWhile]
        exact remaining

/-- Behind a numeral a run can end, and no dump is waiting. -/
theorem settles_behind_numeral {token : Token} (numeral : token.lexeme.isNumeral = true)
    (taken : reader.step token = .ok after) :
    ∃ middle, after.endRun = .ok middle ∧ middle.frames.head? ≠ some .dump := by
  rcases step_cases taken with ⟨run, digits, offset, -, -, -, rfl⟩ | ⟨-, middle, ended, takes⟩
  · let extended : OperandRun := { run with operands := .ofNumeral offset digits :: run.operands }
    have supplied : extended.form? ≠ none := fun lacking =>
      List.cons_ne_nil _ _ (OperandRun.form?_eq_none_iff.mp lacking)
    obtain ⟨form, amounts⟩ := Option.ne_none_iff_exists'.mp supplied
    exact ⟨_, endRun_eq_ok_iff.mpr (.inr ⟨extended, form, rfl, amounts, rfl⟩), push_head _ form⟩
  · cases takes with
    | number room small =>
      have idle : middle.run = none := run_of_endRun ended
      exact ⟨_, endRun_of_none idle, push_head _ _⟩
    | operator sign room => cases sign <;> cases numeral
    | opened room | closed inside | dump room => cases numeral

/-- Before anything but a numeral, or the end, a run may as well be over. -/
theorem steps_finish_of_endRun {list : List Token} (ended : reader.endRun = .ok middle)
    (others : ∀ token ∈ list, token.lexeme.isNumeral = false) (stop : Nat) :
    (reader.steps list).bind (·.finish stop) = (middle.steps list).bind (·.finish stop) := by
  have idle := run_of_endRun ended
  cases list with
  | nil => simp only [steps, Except.bind, finish, ended, endRun_of_none idle]
  | cons token rest =>
    have other := others token List.mem_cons_self
    simp only [steps, step_of_endRun (.inr other) ended idle]

end Reader

/-- A source that leaves only groups open is completed by closing them. -/
theorem parse_closed {source : Bytes} {reader middle : Reader}
    (reads : Reader.start.steps (tokens source) = .ok reader) (ended : reader.endRun = .ok middle)
    (settled : middle.frames.head? ≠ some .dump) :
    ∃ closings program, parse (source ++ 0x20 :: closings) = .ok program := by
  let closings : Bytes := List.replicate (Frame.groups middle.frames) 0x29
  have closers : (tokensFrom (source.length + 1) closings).map Token.lexeme =
      List.replicate (Frame.groups middle.frames) .closeGroup := by
    rw [map_lexeme_tokensFrom, lexemes_closings]
  have others : ∀ token ∈ tokensFrom (source.length + 1) closings, token.lexeme.isNumeral = false := by
    intro token scanned
    have member : token.lexeme ∈ List.replicate (Frame.groups middle.frames) Lexeme.closeGroup :=
      closers ▸ List.mem_map_of_mem scanned
    rw [List.eq_of_mem_replicate member]
    rfl
  obtain ⟨after, closes, idle, nothingOpen⟩ :=
    Reader.closes_groups (Reader.run_of_endRun ended) settled closers
  refine ⟨closings, after.forms.reverse, ?_⟩
  rw [parse_eq_ok_iff_read, read, tokens_append_blank, Reader.steps_append, reads]
  show (reader.steps _).bind _ = _
  rw [Reader.steps_finish_of_endRun ended others, closes]
  exact Reader.finish_eq_ok_iff.mpr ⟨after, Reader.endRun_of_none idle, nothingOpen, rfl⟩

/-- Where a numeral fits, `0` followed by closing what is open completes a source. -/
theorem parse_supplied {source : Bytes} {reader supplied : Reader}
    (reads : Reader.start.steps (tokens source) = .ok reader)
    (takes : reader.step ⟨.numeral [0x30], source.length + 1⟩ = .ok supplied) :
    ∃ rest program, parse (source ++ 0x20 :: rest) = .ok program := by
  have zero : Lexeme.leading? 0x30 [] = some (.numeral [0x30], []) := rfl
  have reads : Reader.start.steps (tokens (source ++ [0x20, 0x30])) = .ok supplied := by
    rw [tokens_append_blank, tokensFrom_token _ zero, tokensFrom, Reader.steps_append, reads]
    simp only [Except.bind, Reader.steps, takes]
  obtain ⟨middle, ended, settled⟩ := Reader.settles_behind_numeral rfl takes
  obtain ⟨closings, program, parsed⟩ := parse_closed reads ended settled
  exact ⟨0x30 :: 0x20 :: closings, program, by simpa using parsed⟩

/-! ## Failures of either kind -/

/-- Whether the error that `source` gives is one that more text may mend: a group
still open, a form looked for at the end, or an operator that is the last token. -/
def Error.AwaitsMore (source : Bytes) : Error → Prop
  | .malformed _ .unclosedGroup => True
  | .malformed _ (.unexpected found) => found = "end of input"
  | .malformed location (.missingOperand operator) =>
    ∃ token ∈ (tokens source).getLast?, token.lexeme.text = operator ∧
      Location.of source token.start = location
  | _ => False

section
variable {source : Bytes} {reader : Reader} {rejection : Rejection}

/-- What can be supplied at the end is awaited, and some text supplies it. -/
theorem completes_of_unfinished (reads : Reader.start.steps (tokens source) = .ok reader)
    (unfinished : reader.Unfinished source.length rejection)
    (shallow : rejection.fault ≠ .nestingTooDeep maxNesting) :
    (rejection.error source).AwaitsMore source ∧
      ∃ rest program, parse (source ++ 0x20 :: rest) = .ok program := by
  have small : decimalValue [0x30] < UInt64.size := by decide
  cases unfinished with
  | @operand run running lacking =>
    obtain ⟨earlier, split⟩ := Reader.getLast_of_operands_nil reads running lacking
    refine ⟨⟨run.token, by simp [split], rfl, rfl⟩, ?_⟩
    exact parse_supplied reads ((Reader.step_operand running).trans
      (congrArg (Except.map _) (Literal.read_of_lt small)))
  | group ended inside =>
    exact ⟨trivial, parse_closed reads ended (by simp [inside])⟩
  | argument idle waiting room =>
    exact ⟨rfl, parse_supplied reads (Reader.step_of_takes idle (.number room small))⟩
  | tooDeep idle waiting full => exact absurd rfl shallow

/-- An argument beyond the limit of nesting cannot be supplied. -/
theorem read_of_deep_dump (reads : Reader.start.steps (tokens source) = .ok reader)
    (idle : reader.run = none) (waiting : reader.frames.head? = some .dump)
    (full : maxNesting ≤ reader.frames.length) (rest : Bytes) :
    ∃ offset, read (source ++ 0x20 :: rest) = .error ⟨.nestingTooDeep maxNesting, offset⟩ := by
  rw [read, tokens_append_blank, Reader.steps_append, reads]
  show ∃ offset, (reader.steps _).bind _ = _
  cases tokensFrom (source.length + 1) rest with
  | nil => exact ⟨_, Reader.finish_eq_error_iff.mpr (.tooDeep idle waiting full)⟩
  | cons token later =>
    have refused : reader.step token = .error ⟨.nestingTooDeep maxNesting, token.start⟩ := by
      rw [Reader.step_item (.inl idle), Reader.endRun_of_none idle]
      exact Reader.item_eq_error_iff.mpr ⟨.tooDeep full fun _ => waiting, rfl⟩
    exact ⟨token.start, by simp only [Reader.steps, refused, Except.bind]⟩

private theorem not_awaitsMore_of_refuses {token : Token} {fault : Fault} {location : Location}
    (refuses : reader.Refuses token fault) : ¬ (Error.malformed location fault).AwaitsMore source := by
  cases refuses with
  | unexpected waiting room =>
    have other : Lexeme.closeGroup.text ≠ "end of input" := by decide +kernel
    exact other
  | unmatched outermost | tooDeep full begins | tooLarge room large | unknown room other => exact not_false

/-- An operator that another token follows is not the last token. -/
private theorem not_awaitsMore_of_followed {run : OperandRun} {before later : List Token} {next : Token}
    (split : tokens source = before ++ next :: later) (followed : run.token ∈ before) :
    ¬ (run.rejection.error source).AwaitsMore source := by
  rintro ⟨last, member, -, same⟩
  have isLast : last ∈ next :: later := by
    apply List.mem_of_getLast?
    simpa [split, List.getLast?_append] using member
  have operatorWithin := tokens_within (split ▸ List.mem_append_left _ followed)
  have lastWithin := tokens_within (split ▸ List.mem_append_right _ isLast)
  have apart := (List.pairwise_append.mp (split ▸ tokens_pairwise source)).2.2 _ followed _ isLast
  have places : last.start = run.token.start := Location.of_inj (by omega) (by omega) same
  omega

/-- A token that is refused lies within the source and is no end of it. -/
theorem blame_of_refused (refused : Reader.start.steps (tokens source) = .error rejection) :
    rejection.offset ≤ source.length ∧ ¬ (rejection.error source).AwaitsMore source := by
  have inside {token : Token} (scanned : token ∈ tokens source) : token.start ≤ source.length := by
    have within := tokens_within scanned
    omega
  obtain ⟨before, token, rest, middle, split, read, refused⟩ := Reader.steps_error_split refused
  have scanned : token ∈ tokens source := by simp [split]
  rcases Reader.step_error_cases refused with ⟨run, running, lacking, -, rfl⟩ |
    ⟨run, digits, offset, running, rfl, large, rfl⟩ | ⟨-, ended, -, refuses, place⟩
  · obtain ⟨earlier, rfl⟩ := Reader.getLast_of_operands_nil read running lacking
    have followed : run.token ∈ earlier ++ [run.token] := by simp
    exact ⟨inside (split ▸ List.mem_append_left _ followed), not_awaitsMore_of_followed split followed⟩
  · exact ⟨inside scanned, not_false⟩
  · exact ⟨place ▸ inside scanned, not_awaitsMore_of_refuses refuses⟩

/-- A token that is refused is refused whatever follows. -/
theorem read_of_refused (refused : Reader.start.steps (tokens source) = .error rejection)
    (rest : Bytes) : read (source ++ 0x20 :: rest) = .error rejection := by
  refine read_eq_error_iff.mpr (.inl ?_)
  rw [tokens_append_blank, Reader.steps_append, refused]
  rfl

end

/-- A parse that fails for what the end of the source leaves unfinished succeeds
on some continuation of it. Any other failure recurs on every continuation, and
in the same place unless the nesting is too deep at the very end. -/
theorem failed_parse_completes_or_recurs {source : Bytes} {error : Error}
    (fails : parse source = .error error) :
    (error.AwaitsMore source → ∃ rest program, parse (source ++ 0x20 :: rest) = .ok program) ∧
    (¬ error.AwaitsMore source → ∃ location fault, error = .malformed location fault ∧
      ∀ rest, ∃ again, parse (source ++ 0x20 :: rest) = .error (.malformed again fault) ∧
        (again = location ∨
          fault = .nestingTooDeep maxNesting ∧ location = Location.of source source.length)) := by
  obtain ⟨rejection, failed, rfl⟩ := parse_eq_error_iff.mp fails
  rcases read_eq_error_iff.mp failed with refused | ⟨reader, reads, unfinished⟩
  · obtain ⟨inside, final⟩ := blame_of_refused refused
    refine ⟨fun awaits => absurd awaits final, fun _ => ⟨_, _, rfl, fun rest => ?_⟩⟩
    refine ⟨_, parse_eq_error_iff.mpr ⟨_, read_of_refused refused rest, rfl⟩, .inl ?_⟩
    exact Location.of_append inside (0x20 :: rest)
  · by_cases deep : rejection.fault = .nestingTooDeep maxNesting
    · cases unfinished with
      | operand running lacking | group ended inside | argument idle waiting room => cases deep
      | tooDeep idle waiting full =>
        refine ⟨False.elim, fun _ => ⟨_, _, rfl, fun rest => ?_⟩⟩
        obtain ⟨offset, again⟩ := read_of_deep_dump reads idle waiting full rest
        exact ⟨_, parse_eq_error_iff.mpr ⟨_, again, rfl⟩, .inr ⟨rfl, rfl⟩⟩
    · obtain ⟨awaits, completes⟩ := completes_of_unfinished reads unfinished deep
      exact ⟨fun _ => completes, fun final => absurd awaits final⟩

/-- An operator under two groups and a dump can be completed; a `)` in place of
an argument cannot. -/
theorem open_minus_completes_and_early_close_recurs :
    (∃ rest program, parse (Utf8.encode "(dump (-" ++ 0x20 :: rest) = .ok program) ∧
      ∀ rest, parse (Utf8.encode "(dump )" ++ 0x20 :: rest) =
        .error (.malformed ⟨1, 7⟩ (.unexpected ")")) := by
  have lacksOperand : parse (Utf8.encode "(dump (-") =
      .error (.malformed ⟨1, 8⟩ (.missingOperand "-")) := by
    rw [parse, read, show tokens (Utf8.encode "(dump (-") = [⟨.openGroup, 0⟩,
      ⟨.word (Utf8.encode "dump"), 1⟩, ⟨.openGroup, 6⟩, ⟨.minus, 7⟩] by decide +kernel]
    with_unfolding_all rfl
  have closesEarly : parse (Utf8.encode "(dump )") =
      .error (.malformed ⟨1, 7⟩ (.unexpected ")")) := by
    rw [parse, read, show tokens (Utf8.encode "(dump )") = [⟨.openGroup, 0⟩,
      ⟨.word (Utf8.encode "dump"), 1⟩, ⟨.closeGroup, 6⟩] by decide +kernel]
    with_unfolding_all rfl
  refine ⟨(failed_parse_completes_or_recurs lacksOperand).1 ?_, fun rest => ?_⟩
  · exact ⟨⟨.minus, 7⟩, by decide +kernel⟩
  · have final : ¬ (Error.malformed ⟨1, 7⟩ (.unexpected ")")).AwaitsMore (Utf8.encode "(dump )") := by
      show ")" ≠ "end of input"
      decide
    obtain ⟨_, _, same, recurs⟩ := (failed_parse_completes_or_recurs closesEarly).2 final
    cases same
    obtain ⟨again, fails, rfl | ⟨deep, _⟩⟩ := recurs rest
    · exact fails
    · cases deep

end ArithAsm
