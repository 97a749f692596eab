import ArithAsm.Proofs.Reading.Step

/-! What a reader refuses. Outside of a run of operands there are five grounds
for refusing a token, and it is always the token itself that is blamed; a run
that ends without an operand is blamed on its operator. At the end of the input
a reader fails for the innermost form that is still open. -/
namespace ArithAsm

theorem Literal.read_eq_error_iff {start : Nat} {digits : Bytes} {rejection : Rejection} :
    Literal.read start digits = .error rejection ↔ UInt64.size ≤ decimalValue digits ∧
      rejection = ⟨.literalOutOfRange (Lexeme.numeral digits).text, start⟩ := by
  simp only [Literal.read]
  split
  · rename_i small
    constructor
    · rintro ⟨⟩
    · rintro ⟨large, -⟩
      exact absurd small (Nat.not_lt.mpr large)
  · rename_i large
    constructor
    · rintro ⟨⟩
      exact ⟨Nat.not_lt.mp large, rfl⟩
    · rintro ⟨-, rfl⟩
      rfl

theorem OperandRun.form?_eq_none_iff {run : OperandRun} : run.form? = none ↔ run.operands = [] := by
  obtain ⟨operator, start, operands⟩ := run
  cases ordered : operands.reverse with
  | nil => simp [form?, List.reverse_eq_nil_iff.mp ordered]
  | cons seed terms =>
    have supplied : operands ≠ [] := fun lacking => by simp [lacking] at ordered
    cases operator <;> simp [form?, ordered, supplied]

/-- The operator of the run, where it stands. -/
def OperandRun.token (run : OperandRun) : Token :=
  ⟨run.operator.lexeme, run.start⟩

/-- The rejection of a run that has no operand. -/
def OperandRun.rejection (run : OperandRun) : Rejection :=
  ⟨.missingOperand run.token.lexeme.text, run.token.start⟩

namespace Reader

/-- The grounds on which a reader that collects no operands refuses a token. -/
inductive Refuses (reader : Reader) : Token → Fault → Prop where
  | unmatched {offset : Nat} (outermost : reader.frames = []) :
      Refuses reader ⟨.closeGroup, offset⟩ .unmatchedClose
  | unexpected {offset : Nat} (waiting : reader.frames.head? = some .dump)
      (room : reader.frames.length < maxNesting) :
      Refuses reader ⟨.closeGroup, offset⟩ (.unexpected Lexeme.closeGroup.text)
  | tooDeep {token : Token} (full : maxNesting ≤ reader.frames.length)
      (begins : token.lexeme = .closeGroup → reader.frames.head? = some .dump) :
      Refuses reader token (.nestingTooDeep maxNesting)
  | tooLarge {offset : Nat} {digits : Bytes} (room : reader.frames.length < maxNesting)
      (large : UInt64.size ≤ decimalValue digits) :
      Refuses reader ⟨.numeral digits, offset⟩ (.literalOutOfRange (Lexeme.numeral digits).text)
  | unknown {offset : Nat} {name : Bytes} (room : reader.frames.length < maxNesting)
      (other : name ≠ Utf8.encode "dump") :
      Refuses reader ⟨.word name, offset⟩ (.unknownIdentifier (Lexeme.word name).text)

variable {reader middle after : Reader} {token : Token} {rejection : Rejection}

private theorem refuses_of_beginForm (refused : reader.beginForm token = .error rejection)
    (begins : token.lexeme = .closeGroup → reader.frames.head? = some .dump) :
    reader.Refuses token rejection.fault ∧ rejection.offset = token.start := by
  obtain ⟨lexeme, offset⟩ := token
  simp only [beginForm] at refused
  split at refused
  · rename_i full
    cases refused
    exact ⟨.tooDeep full begins, rfl⟩
  rename_i shallow
  have room : reader.frames.length < maxNesting := Nat.lt_of_not_le shallow
  cases lexeme with
  | openGroup | plus | minus => cases refused
  | closeGroup =>
    cases refused
    exact ⟨.unexpected (begins rfl) room, rfl⟩
  | numeral digits =>
    cases value : Literal.read offset digits with
    | ok literal => simp [value, Except.map] at refused
    | error cause =>
      obtain ⟨large, rfl⟩ := Literal.read_eq_error_iff.mp value
      simp only [value, Except.map] at refused
      cases refused
      exact ⟨.tooLarge room large, rfl⟩
  | word name =>
    simp only [Keyword.ofWord?] at refused
    by_cases keyword : name = Utf8.encode "dump"
    · simp [keyword] at refused
    · simp only [keyword, ↓reduceIte] at refused
      cases refused
      exact ⟨.unknown room keyword, rfl⟩

theorem item_eq_error_iff : reader.item token = .error rejection ↔
    reader.Refuses token rejection.fault ∧ rejection.offset = token.start := by
  constructor
  · intro refused
    obtain ⟨lexeme, offset⟩ := token
    cases lexeme with
    | closeGroup =>
      cases frames : reader.frames with
      | nil =>
        simp only [item, frames] at refused
        cases refused
        exact ⟨.unmatched frames, rfl⟩
      | cons frame outer =>
        cases frame with
        | group start earlier => simp [item, frames] at refused
        | dump =>
          simp only [item, frames] at refused
          exact refuses_of_beginForm refused fun _ => by rw [frames, List.head?_cons]
    | openGroup | plus | minus | numeral | word =>
      simp only [item] at refused
      exact refuses_of_beginForm refused fun closes => by cases closes
  · obtain ⟨fault, place⟩ := rejection
    rintro ⟨refuses, rfl⟩
    cases refuses with
    | unmatched outermost => simp [item, outermost]
    | unexpected waiting room =>
      obtain ⟨outer, frames⟩ := List.head?_eq_some_iff.mp waiting
      have shallow : ¬ maxNesting ≤ outer.length + 1 := by simpa [frames] using room
      simp [item, frames, beginForm, shallow]
    | tooDeep full begins =>
      obtain ⟨lexeme, offset⟩ := token
      have begun : reader.beginForm ⟨lexeme, offset⟩ = .error ⟨.nestingTooDeep maxNesting, offset⟩ := by
        simp only [beginForm, full, ↓reduceIte]
      cases lexeme with
      | closeGroup =>
        obtain ⟨outer, frames⟩ := List.head?_eq_some_iff.mp (begins rfl)
        simpa only [item, frames] using begun
      | openGroup | plus | minus | numeral | word => simpa only [item] using begun
    | tooLarge room large =>
      simp [item, beginForm, Nat.not_le.mpr room, Literal.read_eq_error_iff.mpr ⟨large, rfl⟩, Except.map]
    | unknown room other => simp [item, beginForm, Nat.not_le.mpr room, Keyword.ofWord?, other]

theorem endRun_eq_error_iff : reader.endRun = .error rejection ↔
    ∃ run, reader.run = some run ∧ run.operands = [] ∧ rejection = run.rejection := by
  cases running : reader.run with
  | none => simp [endRun, running]
  | some run =>
    cases amounts : run.form? with
    | none =>
      have lacking := OperandRun.form?_eq_none_iff.mp amounts
      simp [endRun, running, amounts, lacking, OperandRun.rejection, OperandRun.token, eq_comm]
    | some form =>
      have supplied : run.operands ≠ [] := fun lacking => by
        simp [OperandRun.form?_eq_none_iff.mpr lacking] at amounts
      simp [endRun, running, amounts, supplied]

/-- A token is refused because a run ends without an operand, because it is an
operand that does not fit in 64 bits, or for what it is once the run is over. -/
theorem step_error_cases (refused : reader.step token = .error rejection) :
    (∃ run, reader.run = some run ∧ run.operands = [] ∧ token.lexeme.isNumeral = false ∧
      rejection = run.rejection) ∨
    (∃ run digits offset, reader.run = some run ∧ token = ⟨.numeral digits, offset⟩ ∧
      UInt64.size ≤ decimalValue digits ∧
      rejection = ⟨.literalOutOfRange (Lexeme.numeral digits).text, offset⟩) ∨
    (reader.run = none ∨ token.lexeme.isNumeral = false) ∧ ∃ middle, reader.endRun = .ok middle ∧
      middle.Refuses token rejection.fault ∧ rejection.offset = token.start := by
  obtain ⟨lexeme, offset⟩ := token
  by_cases free : reader.run = none ∨ lexeme.isNumeral = false
  · rw [step_item free] at refused
    cases ended : reader.endRun with
    | error cause =>
      simp only [ended, Except.bind, Except.error.injEq] at refused
      obtain ⟨run, running, lacking, rfl⟩ := endRun_eq_error_iff.mp ended
      have other : lexeme.isNumeral = false := free.resolve_left (by simp [running])
      exact .inl ⟨run, running, lacking, other, refused.symm⟩
    | ok middle =>
      simp only [ended, Except.bind] at refused
      exact .inr (.inr ⟨free, middle, rfl, item_eq_error_iff.mp refused⟩)
  · obtain ⟨busy, numeral⟩ := not_or.mp free
    obtain ⟨run, running⟩ := Option.ne_none_iff_exists'.mp busy
    cases lexeme with
    | numeral digits =>
      rw [step_operand running] at refused
      cases value : Literal.read offset digits with
      | ok literal => simp [value, Except.map] at refused
      | error cause =>
        obtain ⟨large, rfl⟩ := Literal.read_eq_error_iff.mp value
        simp only [value, Except.map, Except.error.injEq] at refused
        exact .inr (.inl ⟨run, digits, offset, running, rfl, large, refused.symm⟩)
    | openGroup | closeGroup | plus | minus | word => simp [Lexeme.isNumeral] at numeral

/-- What the end of the input at offset `stop` leaves unfinished. -/
inductive Unfinished (reader : Reader) (stop : Nat) : Rejection → Prop where
  | operand {run : OperandRun} (running : reader.run = some run) (lacking : run.operands = []) :
      Unfinished reader stop run.rejection
  | group {middle : Reader} {start : Nat} {earlier : List Form} {outer : List Frame}
      (ended : reader.endRun = .ok middle) (inside : middle.frames = .group start earlier :: outer) :
      Unfinished reader stop ⟨.unclosedGroup, start⟩
  | argument (idle : reader.run = none) (waiting : reader.frames.head? = some .dump)
      (room : reader.frames.length < maxNesting) :
      Unfinished reader stop ⟨.unexpected "end of input", stop⟩
  | tooDeep (idle : reader.run = none) (waiting : reader.frames.head? = some .dump)
      (full : maxNesting ≤ reader.frames.length) :
      Unfinished reader stop ⟨.nestingTooDeep maxNesting, stop⟩

/-- A dump that still waits when a run has ended waited without a run. -/
theorem eq_of_endRun_waiting (ended : reader.endRun = .ok middle)
    (waiting : middle.frames.head? = some .dump) : reader.run = none ∧ middle = reader := by
  rcases endRun_eq_ok_iff.mp ended with unchanged | ⟨run, form, -, -, rfl⟩
  · exact unchanged
  · exact absurd waiting (push_head _ form)

theorem finish_eq_error_iff {stop : Nat} :
    reader.finish stop = .error rejection ↔ reader.Unfinished stop rejection := by
  constructor
  · intro refused
    cases ended : reader.endRun with
    | error cause =>
      simp only [finish, ended, Except.bind, Except.error.injEq] at refused
      subst refused
      obtain ⟨run, running, lacking, rfl⟩ := endRun_eq_error_iff.mp ended
      exact .operand running lacking
    | ok middle =>
      cases frames : middle.frames with
      | nil => simp [finish, ended, Except.bind, frames] at refused
      | cons frame outer =>
        cases frame with
        | group start earlier =>
          simp only [finish, ended, Except.bind, frames, Except.error.injEq] at refused
          subst refused
          exact .group ended frames
        | dump =>
          have waiting : middle.frames.head? = some .dump := by rw [frames, List.head?_cons]
          obtain ⟨idle, rfl⟩ := eq_of_endRun_waiting ended waiting
          simp only [finish, ended, Except.bind, frames] at refused
          split at refused
          · rename_i full
            cases refused
            exact .tooDeep idle waiting (frames ▸ full)
          · rename_i shallow
            cases refused
            exact .argument idle waiting (frames ▸ Nat.lt_of_not_le shallow)
  · intro unfinished
    cases unfinished with
    | operand running lacking =>
      simp [finish, endRun_eq_error_iff.mpr ⟨_, running, lacking, rfl⟩, Except.bind]
    | group ended inside => simp [finish, ended, Except.bind, inside]
    | argument idle waiting room =>
      obtain ⟨outer, frames⟩ := List.head?_eq_some_iff.mp waiting
      have shallow : ¬ maxNesting ≤ outer.length + 1 := by simpa [frames] using room
      simp [finish, endRun_of_none idle, Except.bind, frames, shallow]
    | tooDeep idle waiting full =>
      obtain ⟨outer, frames⟩ := List.head?_eq_some_iff.mp waiting
      have deep : maxNesting ≤ outer.length + 1 := by simpa [frames] using full
      simp [finish, endRun_of_none idle, Except.bind, frames, deep]

/-! ## Runs over tokens -/

/-- A run over tokens fails at the first token that is refused. -/
theorem steps_error_split {list : List Token} (refused : reader.steps list = .error rejection) :
    ∃ before token rest middle, list = before ++ token :: rest ∧
      reader.steps before = .ok middle ∧ middle.step token = .error rejection := by
  induction list generalizing reader with
  | nil => cases refused
  | cons token rest ih =>
    cases taken : reader.step token with
    | error cause =>
      simp only [steps, taken, Except.bind, Except.error.injEq] at refused
      subst refused
      exact ⟨[], token, rest, reader, rfl, rfl, taken⟩
    | ok next =>
      simp only [steps, taken, Except.bind] at refused
      obtain ⟨before, culprit, after, middle, split, read, refused⟩ := ih refused
      refine ⟨token :: before, culprit, after, middle, by rw [split, List.cons_append], ?_, refused⟩
      simpa only [steps, taken, Except.bind] using read

/-- A token after which an operator has no operand yet is that operator. -/
theorem token_of_operands_nil {run : OperandRun} (taken : reader.step token = .ok after)
    (running : after.run = some run) (lacking : run.operands = []) :
    token = run.token := by
  rcases step_cases taken with ⟨earlier, digits, offset, -, -, -, rfl⟩ | ⟨-, middle, ended, takes⟩
  · cases running
    simp at lacking
  · have idle := run_of_endRun ended
    cases takes with
    | operator sign room => cases running; rfl
    | opened room | closed inside | number room small | dump room => simp [idle] at running

/-- When an operator has no operand yet it is the last token. -/
theorem getLast_of_operands_nil {list : List Token} {run : OperandRun}
    (read : start.steps list = .ok after) (running : after.run = some run)
    (lacking : run.operands = []) :
    ∃ earlier, list = earlier ++ [run.token] := by
  rcases list.eq_nil_or_concat with rfl | ⟨earlier, token, rfl⟩
  · cases read
    cases running
  · rw [List.concat_eq_append, steps_append] at read
    cases before : start.steps earlier with
    | error cause => simp [before, Except.bind] at read
    | ok middle =>
      cases taken : middle.step token with
      | error cause => simp [before, Except.bind, steps, taken] at read
      | ok last =>
        simp only [before, Except.bind, steps, taken, Except.ok.injEq] at read
        subst read
        exact ⟨earlier, by rw [List.concat_eq_append, token_of_operands_nil taken running lacking]⟩

end Reader

/-- Reading fails at a token that is refused or, where none is, at what the end
leaves unfinished. -/
theorem read_eq_error_iff {source : Bytes} {rejection : Rejection} :
    read source = .error rejection ↔ Reader.start.steps (tokens source) = .error rejection ∨
      ∃ reader, Reader.start.steps (tokens source) = .ok reader ∧
        reader.Unfinished source.length rejection := by
  cases taken : Reader.start.steps (tokens source) with
  | error cause => simp [read, taken, Except.bind]
  | ok reader => simp [read, taken, Except.bind, Reader.finish_eq_error_iff]

theorem parse_eq_error_iff {source : Bytes} {error : Error} : parse source = .error error ↔
    ∃ rejection, read source = .error rejection ∧ rejection.error source = error := by
  rw [parse]
  cases read source with
  | ok program =>
    constructor
    · rintro ⟨⟩
    · rintro ⟨_, ⟨⟩, _⟩
  | error rejection =>
    constructor
    · intro fails
      exact ⟨rejection, rfl, Except.error.inj fails⟩
    · rintro ⟨_, ⟨⟩, rfl⟩
      rfl

end ArithAsm
