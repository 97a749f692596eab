import ArithAsm.Form.Read

/-! What one token can do to a reader. Outside of a run of operands there are
five ways to take a token in; inside of one, a numeral is a further operand and
any other token ends the run first. -/
namespace ArithAsm

/-- Whether the lexeme is a numeral. -/
def Lexeme.isNumeral : Lexeme → Bool
  | numeral _ => true
  | _ => false

/-- The literal that a numeral at offset `start` writes, if 64 bits can hold it. -/
def Literal.ofNumeral (start : Nat) (digits : Bytes) : Literal :=
  ⟨(decimalValue digits).toUInt64, ⟨start, start + digits.length⟩⟩

theorem Literal.read_eq_ok_iff {start : Nat} {digits : Bytes} {literal : Literal} :
    Literal.read start digits = .ok literal ↔
      decimalValue digits < UInt64.size ∧ literal = .ofNumeral start digits := by
  simp only [Literal.read, Literal.ofNumeral]
  split
  · rename_i small
    constructor
    · rintro ⟨⟩
      exact ⟨small, rfl⟩
    · rintro ⟨-, rfl⟩
      rfl
  · rename_i large
    refine ⟨nofun, ?_⟩
    rintro ⟨small, -⟩
    exact absurd small large

theorem Literal.read_of_lt {start : Nat} {digits : Bytes} (small : decimalValue digits < UInt64.size) :
    Literal.read start digits = .ok (.ofNumeral start digits) :=
  Literal.read_eq_ok_iff.mpr ⟨small, rfl⟩

/-- Whether the form begun is a dump that waits for its argument. -/
def Frame.isDump : Frame → Bool
  | dump => true
  | group _ _ => false

/-- A finished form finishes the dumps that wait for it and nothing else. -/
theorem Frame.settle_frames (frames : List Frame) (form : Form) :
    (Frame.settle frames form).1 = frames.dropWhile Frame.isDump := by
  fun_induction Frame.settle frames form with
  | case1 frames form ih => simpa only [List.dropWhile_cons, isDump, ↓reduceIte] using ih
  | case2 frames form outermost =>
    cases frames with
    | nil => rfl
    | cons frame outer =>
      cases frame with
      | group start earlier => rfl
      | dump => exact absurd rfl (outermost outer)

namespace Reader

/-- The ways in which a reader that collects no operands takes a token in. -/
inductive Takes (reader : Reader) : Token → Reader → Prop where
  | opened {start : Nat} (room : reader.frames.length < maxNesting) :
      Takes reader ⟨.openGroup, start⟩
        { reader with frames := .group start reader.forms :: reader.frames, forms := [] }
  | closed {offset start : Nat} {earlier : List Form} {frames : List Frame}
      (inside : reader.frames = .group start earlier :: frames) :
      Takes reader ⟨.closeGroup, offset⟩ ({ reader with frames := frames, forms := earlier }.push
        (.group ⟨start, offset + 1⟩ reader.forms.reverse))
  | number {offset : Nat} {digits : Bytes} (room : reader.frames.length < maxNesting)
      (small : decimalValue digits < UInt64.size) :
      Takes reader ⟨.numeral digits, offset⟩ (reader.push (.literal (.ofNumeral offset digits)))
  | operator {offset : Nat} (sign : Operator) (room : reader.frames.length < maxNesting) :
      Takes reader ⟨sign.lexeme, offset⟩ { reader with run := some ⟨sign, offset, []⟩ }
  | dump {offset : Nat} (room : reader.frames.length < maxNesting) :
      Takes reader ⟨.word (Utf8.encode "dump"), offset⟩
        { reader with frames := .dump :: reader.frames }

variable {reader middle after : Reader} {token : Token}

private theorem takes_of_beginForm (begun : reader.beginForm token = .ok after) :
    reader.Takes token after := by
  obtain ⟨lexeme, offset⟩ := token
  simp only [beginForm] at begun
  split at begun
  · cases begun
  rename_i shallow
  have room : reader.frames.length < maxNesting := Nat.lt_of_not_le shallow
  cases lexeme with
  | openGroup => cases begun; exact .opened room
  | closeGroup => cases begun
  | plus => cases begun; exact .operator .plus room
  | minus => cases begun; exact .operator .minus room
  | numeral digits =>
    cases value : Literal.read offset digits with
    | error rejection => simp [value, Except.map] at begun
    | ok literal =>
      obtain ⟨small, rfl⟩ := Literal.read_eq_ok_iff.mp value
      simp only [value, Except.map] at begun
      cases begun
      exact .number room small
  | word name =>
    simp only [Keyword.ofWord?] at begun
    by_cases keyword : name = Utf8.encode "dump"
    · subst name
      simp only [↓reduceIte] at begun
      cases begun
      exact .dump room
    · simp [keyword] at begun

theorem item_eq_ok_iff : reader.item token = .ok after ↔ reader.Takes token after := by
  constructor
  · intro taken
    obtain ⟨lexeme, offset⟩ := token
    cases lexeme with
    | closeGroup =>
      cases frames : reader.frames with
      | nil => simp [item, frames] at taken
      | cons frame outer =>
        cases frame with
        | group start earlier =>
          simp only [item, frames] at taken
          cases taken
          exact .closed frames
        | dump =>
          simp only [item, frames] at taken
          exact takes_of_beginForm taken
    | openGroup | plus | minus | numeral | word =>
      simp only [item] at taken
      exact takes_of_beginForm taken
  · intro takes
    cases takes with
    | opened room => simp [item, beginForm, Nat.not_le.mpr room]
    | closed inside => simp [item, inside, Token.stop, Lexeme.spelling]
    | number room small => simp [item, beginForm, Nat.not_le.mpr room, Literal.read_of_lt small, Except.map]
    | operator sign room =>
      cases sign <;> simp [item, beginForm, Operator.lexeme, Nat.not_le.mpr room]
    | dump room => simp [item, beginForm, Nat.not_le.mpr room, Keyword.ofWord?]

/-- Without a run there is nothing to end. -/
theorem endRun_of_none (idle : reader.run = none) : reader.endRun = .ok reader := by
  simp [endRun, idle]

/-- A run with an operand amounts to a form, which takes its place. -/
theorem endRun_eq_ok_iff : reader.endRun = .ok middle ↔
    (reader.run = none ∧ middle = reader) ∨
      ∃ run form, reader.run = some run ∧ run.form? = some form ∧
        middle = ({ reader with run := none } : Reader).push form := by
  cases running : reader.run with
  | none => simp [endRun, running, eq_comm]
  | some run =>
    cases amounts : run.form? with
    | none => simp [endRun, running, amounts]
    | some form => simp [endRun, running, amounts, eq_comm]

/-- A numeral in a run is a further operand. -/
theorem step_operand {run : OperandRun} {digits : Bytes} {offset : Nat}
    (running : reader.run = some run) :
    reader.step ⟨.numeral digits, offset⟩ = (Literal.read offset digits).map fun number =>
      { reader with run := some { run with operands := number :: run.operands } } := by
  simp [step, running]

/-- Any other token ends the run, if there is one, and is then taken in. -/
theorem step_item (free : reader.run = none ∨ token.lexeme.isNumeral = false) :
    reader.step token = reader.endRun.bind (·.item token) := by
  obtain ⟨lexeme, offset⟩ := token
  cases running : reader.run with
  | none => simp [step, running]
  | some run =>
    cases lexeme with
    | numeral digits => simp [running, Lexeme.isNumeral] at free
    | openGroup | closeGroup | plus | minus | word => simp [step, running]

/-- Without a run a token is taken in as it is. -/
theorem step_of_takes (idle : reader.run = none) (takes : reader.Takes token after) :
    reader.step token = .ok after := by
  rw [step_item (.inl idle), endRun_of_none idle]
  exact item_eq_ok_iff.mpr takes

/-- Ending a run early makes no difference to a token that ends it anyway. -/
theorem step_of_endRun (free : reader.run = none ∨ token.lexeme.isNumeral = false)
    (ended : reader.endRun = .ok middle) (idle : middle.run = none) :
    reader.step token = middle.step token := by
  rw [step_item free, step_item (.inl idle), ended, endRun_of_none idle]

theorem step_cases (taken : reader.step token = .ok after) :
    (∃ run digits offset, reader.run = some run ∧ token = ⟨.numeral digits, offset⟩ ∧
      decimalValue digits < UInt64.size ∧ after = { reader with
        run := some { run with operands := .ofNumeral offset digits :: run.operands } }) ∨
    (reader.run = none ∨ token.lexeme.isNumeral = false) ∧
      ∃ middle, reader.endRun = .ok middle ∧ middle.Takes token after := by
  obtain ⟨lexeme, offset⟩ := token
  by_cases free : reader.run = none ∨ lexeme.isNumeral = false
  · rw [step_item free] at taken
    cases ended : reader.endRun with
    | error rejection => simp [ended, Except.bind] at taken
    | ok middle =>
      simp only [ended, Except.bind] at taken
      exact .inr ⟨free, middle, rfl, item_eq_ok_iff.mp taken⟩
  · obtain ⟨busy, numeral⟩ := not_or.mp free
    obtain ⟨run, running⟩ := Option.ne_none_iff_exists'.mp busy
    cases lexeme with
    | numeral digits =>
      rw [step_operand running] at taken
      cases value : Literal.read offset digits with
      | error rejection => simp [value, Except.map] at taken
      | ok literal =>
        obtain ⟨small, rfl⟩ := Literal.read_eq_ok_iff.mp value
        simp only [value, Except.map, Except.ok.injEq] at taken
        exact .inl ⟨run, digits, offset, running, rfl, small, taken.symm⟩
    | openGroup | closeGroup | plus | minus | word => simp [Lexeme.isNumeral] at numeral

@[simp] theorem push_run (reader : Reader) (form : Form) : (reader.push form).run = reader.run := rfl

theorem push_frames (reader : Reader) (form : Form) :
    (reader.push form).frames = reader.frames.dropWhile Frame.isDump :=
  Frame.settle_frames reader.frames form

/-- Behind a finished form no dump is waiting. -/
theorem push_head (reader : Reader) (form : Form) : (reader.push form).frames.head? ≠ some .dump := by
  intro waiting
  have settled := List.head?_dropWhile_not Frame.isDump reader.frames
  rw [← push_frames reader form, waiting] at settled
  simp [Frame.isDump] at settled

/-- Once a run has ended there is none. -/
theorem run_of_endRun (ended : reader.endRun = .ok middle) : middle.run = none := by
  rcases endRun_eq_ok_iff.mp ended with ⟨idle, rfl⟩ | ⟨run, form, -, -, rfl⟩
  · exact idle
  · exact push_run _ _

/-- A form that no dump waits for joins the innermost sequence. -/
theorem push_of_no_dump {frames : List Frame} (free : frames.head? ≠ some .dump) (forms : List Form)
    (run : Option OperandRun) (form : Form) :
    Reader.push ⟨frames, forms, run⟩ form = ⟨frames, form :: forms, run⟩ := by
  cases frames with
  | nil => rfl
  | cons frame frames =>
    cases frame with
    | group start earlier => rfl
    | dump => simp at free

/-- A reader ends with a program exactly when nothing is left open. -/
theorem finish_eq_ok_iff {stop : Nat} {program : Program} : reader.finish stop = .ok program ↔
    ∃ middle, reader.endRun = .ok middle ∧ middle.frames = [] ∧ program = middle.forms.reverse := by
  cases ended : reader.endRun with
  | error rejection => simp [finish, ended, Except.bind]
  | ok middle =>
    cases frames : middle.frames with
    | nil => simp [finish, ended, Except.bind, frames, eq_comm]
    | cons frame outer =>
      cases frame with
      | group start earlier => simp [finish, ended, Except.bind, frames]
      | dump =>
        simp only [finish, ended, Except.bind, frames]
        split <;> simp [frames]

theorem steps_append (reader : Reader) (first second : List Token) :
    reader.steps (first ++ second) = (reader.steps first).bind (·.steps second) := by
  induction first generalizing reader with
  | nil => rfl
  | cons token rest ih =>
    simp only [List.cons_append, steps]
    cases reader.step token with
    | error rejection => rfl
    | ok next => exact ih next

end Reader
end ArithAsm
