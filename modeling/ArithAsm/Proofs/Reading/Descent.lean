import ArithAsm.Proofs.Reading.Step
import Mathlib.Logic.Relation

/-! Reading by recursive descent, moment by moment. A program calls for its forms, and so
do a group and a dump; every call that has not returned is on a stack, and the levels of
the forms are counted apart from it, up when a form is let in and down when it returns, be
it with a form or with a fault. The descent always comes to an end, with the result that a
reader has. -/
namespace ArithAsm

/-- A call that has not returned. -/
inductive Activation where
  /-- The whole program, with the outermost forms so far, latest first. -/
  | program (forms : List Form)
  /-- A form that has been let in, and whose level is counted. -/
  | form
  /-- A `dump` that has called for its argument. -/
  | dump
  /-- A group opened at `start`, with its members so far, latest first. -/
  | group (start : Nat) (members : List Form)
deriving Repr

/-- Whether the call is for a form. -/
def Activation.isForm : Activation → Bool
  | form => true
  | program _ | dump | group _ _ => false

/-- What is to be done next. -/
inductive Task where
  /-- The innermost sequence looks at the next token. -/
  | proceed
  /-- A form is called for. -/
  | enter
  /-- A form that has been let in takes its first token. -/
  | dispatch
  /-- An operator takes the numerals that follow it. -/
  | collect (run : OperandRun)
  /-- The innermost call receives a form, or returns it. -/
  | give (form : Form)
  /-- The innermost call fails. -/
  | fail (rejection : Rejection)
  /-- All calls have returned. -/
  | done (result : Except Rejection Program)
deriving Repr

/-- One moment of a descent. -/
structure Descent where
  /-- The tokens that have not been taken. -/
  tokens : List Token
  /-- Where the source ends. -/
  stop : Nat
  /-- How many levels are counted. -/
  depth : Nat
  /-- The calls that have not returned, innermost first. -/
  calls : List Activation
  task : Task
deriving Repr

namespace Descent

/-- Before the first token. -/
def start (source : Bytes) : Descent :=
  ⟨ArithAsm.tokens source, source.length, 0, [.program []], .proceed⟩

/-- How many forms have been let in and have not returned. -/
def activeForms (descent : Descent) : Nat :=
  descent.calls.countP Activation.isForm

/-- Where the next token starts, or the source ends. -/
def here (descent : Descent) : Nat :=
  descent.tokens.head?.elim descent.stop Token.start

/-- A form takes its first token. -/
def takeFirst (descent : Descent) : Descent :=
  match descent.tokens with
  | [] => { descent with task := .fail ⟨.unexpected "end of input", descent.stop⟩ }
  | token :: rest =>
    let behind := { descent with tokens := rest }
    match token.lexeme with
    | .openGroup =>
      { behind with calls := .group token.start [] :: descent.calls, task := .proceed }
    | .closeGroup => { behind with task := .fail ⟨.unexpected Lexeme.closeGroup.text, token.start⟩ }
    | .numeral digits =>
      match Literal.read token.start digits with
      | .ok number => { behind with task := .give (.literal number) }
      | .error rejection => { behind with task := .fail rejection }
    | .plus => { behind with task := .collect ⟨.plus, token.start, []⟩ }
    | .minus => { behind with task := .collect ⟨.minus, token.start, []⟩ }
    | .word name =>
      match Keyword.ofWord? name with
      | some .dump => { behind with calls := .dump :: descent.calls, task := .enter }
      | none => { behind with task := .fail ⟨.unknownIdentifier (Lexeme.word name).text, token.start⟩ }

/-- An operator takes one more numeral, or its run is over. -/
def takeOperand (descent : Descent) (run : OperandRun) : Descent :=
  match descent.tokens with
  | ⟨.numeral digits, offset⟩ :: rest =>
    match Literal.read offset digits with
    | .ok number => { descent with
        tokens := rest, task := .collect { run with operands := number :: run.operands } }
    | .error rejection => { descent with tokens := rest, task := .fail rejection }
  | _ =>
    match run.form? with
    | some form => { descent with task := .give form }
    | none => { descent with task := .fail ⟨.missingOperand run.operator.lexeme.text, run.start⟩ }

/-- The next moment, until the descent is done. -/
def next (descent : Descent) : Option Descent :=
  match descent.task, descent.calls with
  | .proceed, [.program forms] =>
    match descent.tokens with
    | [] => some { descent with calls := [], task := .done (.ok forms.reverse) }
    | ⟨.closeGroup, offset⟩ :: _ => some { descent with task := .fail ⟨.unmatchedClose, offset⟩ }
    | _ :: _ => some { descent with task := .enter }
  | .proceed, .group begins members :: outer =>
    match descent.tokens with
    | [] => some { descent with calls := outer, task := .fail ⟨.unclosedGroup, begins⟩ }
    | ⟨.closeGroup, offset⟩ :: rest => some { descent with
        tokens := rest, calls := outer
        task := .give (.group ⟨begins, offset + 1⟩ members.reverse) }
    | _ :: _ => some { descent with task := .enter }
  | .enter, calls =>
    if maxNesting ≤ descent.depth then
      some { descent with task := .fail ⟨.nestingTooDeep maxNesting, descent.here⟩ }
    else some { descent with depth := descent.depth + 1, calls := .form :: calls, task := .dispatch }
  | .dispatch, _ => some descent.takeFirst
  | .collect run, _ => some (descent.takeOperand run)
  | .give _, .form :: outer => some { descent with depth := descent.depth - 1, calls := outer }
  | .give form, .dump :: outer => some { descent with calls := outer, task := .give (.dump form) }
  | .give form, .group begins members :: outer =>
    some { descent with calls := .group begins (form :: members) :: outer, task := .proceed }
  | .give form, .program forms :: outer =>
    some { descent with calls := .program (form :: forms) :: outer, task := .proceed }
  | .fail rejection, [] => some { descent with task := .done (.error rejection) }
  | .fail _, .form :: outer => some { descent with depth := descent.depth - 1, calls := outer }
  | .fail _, _ :: outer => some { descent with calls := outer }
  | .proceed, _ | .give _, [] | .done _, _ => none

/-- A descent comes from one moment to another. -/
def Reaches : Descent → Descent → Prop :=
  Relation.ReflTransGen fun descent later => descent.next = some later

/-- A descent comes to its end, with the result, when all calls have returned. -/
def Ends (descent : Descent) (result : Except Rejection Program) : Prop :=
  ∃ final, descent.Reaches final ∧ final.calls = [] ∧ final.task = .done result

variable {descent later : Descent}

theorem reaches_next (follows : descent.next = some later) : descent.Reaches later :=
  .single follows

theorem Reaches.ends {result : Except Rejection Program} (reaches : descent.Reaches later)
    (ends : later.Ends result) : descent.Ends result := by
  obtain ⟨final, onward, ended⟩ := ends
  exact ⟨final, reaches.trans onward, ended⟩

/-! ## The descent beside a reader -/

/-- A fault is handed from call to call until none is left. -/
theorem ends_of_fail (list : List Token) (stop depth : Nat) (calls : List Activation) (rejection : Rejection) :
    Descent.Ends ⟨list, stop, depth, calls, .fail rejection⟩ (.error rejection) := by
  induction calls generalizing depth with
  | nil => exact ⟨_, reaches_next rfl, rfl, rfl⟩
  | cons call outer ih =>
    cases call with
    | form => exact (reaches_next rfl).ends (ih (depth - 1))
    | program forms | dump | group begins members => exact (reaches_next rfl).ends (ih depth)

/-- At the limit a form that is called for is not let in. -/
theorem ends_of_full {depth : Nat} (full : maxNesting ≤ depth) (list : List Token) (stop : Nat)
    (calls : List Activation) :
    Descent.Ends ⟨list, stop, depth, calls, .enter⟩
      (.error ⟨.nestingTooDeep maxNesting, list.head?.elim stop Token.start⟩) := by
  have refused : Descent.next ⟨list, stop, depth, calls, .enter⟩ = some ⟨list, stop, depth, calls,
      .fail ⟨.nestingTooDeep maxNesting, list.head?.elim stop Token.start⟩⟩ := if_pos full
  exact (reaches_next refused).ends (ends_of_fail _ _ _ _ _)

/-- Below the limit a form that is called for is let in and takes its first token. -/
theorem reaches_first {depth : Nat} (room : ¬maxNesting ≤ depth) (list : List Token) (stop : Nat)
    (calls : List Activation) :
    Reaches ⟨list, stop, depth, calls, .enter⟩
      (takeFirst ⟨list, stop, depth + 1, .form :: calls, .dispatch⟩) := by
  have admitted : Descent.next ⟨list, stop, depth, calls, .enter⟩ =
      some ⟨list, stop, depth + 1, .form :: calls, .dispatch⟩ := if_neg room
  exact (reaches_next admitted).trans (reaches_next rfl)

end Descent

/-- The calls that have not returned when a reader has these frames and forms. -/
def Frame.calls : List Frame → List Form → List Activation
  | [], forms => [.program forms]
  | .dump :: frames, forms => .dump :: .form :: Frame.calls frames forms
  | .group start earlier :: frames, forms => .group start forms :: .form :: Frame.calls frames earlier

/-- Whether the innermost frame is a sequence, or a dump that calls for its argument. -/
def Frame.task : List Frame → Task
  | .dump :: _ => .enter
  | _ => .proceed

namespace Reader

/-- The moment at which a descent has come as far as the reader. -/
def moment (reader : Reader) (list : List Token) (stop : Nat) : Descent :=
  match reader.run with
  | none => ⟨list, stop, reader.frames.length, Frame.calls reader.frames reader.forms,
      Frame.task reader.frames⟩
  | some run => ⟨list, stop, reader.frames.length + 1,
      .form :: Frame.calls reader.frames reader.forms, .collect run⟩

/-- The descent goes on as the reader does, or fails as it does. -/
def Guides (rest : List Token) (stop : Nat) (descent : Descent) : Except Rejection Reader → Prop
  | .ok after => descent.Reaches (after.moment rest stop)
  | .error rejection => descent.Ends (.error rejection)

theorem Guides.of_reaches {rest : List Token} {stop : Nat} {descent later : Descent}
    {result : Except Rejection Reader} (reaches : descent.Reaches later)
    (guides : Guides rest stop later result) : Guides rest stop descent result := by
  cases result with
  | ok after => exact reaches.trans guides
  | error rejection => exact reaches.ends guides

open Descent

/-- Behind a reader the descent goes on with another. -/
theorem Guides.bind {list rest : List Token} {stop : Nat} {descent : Descent}
    {result : Except Rejection Reader} {onward : Reader → Except Rejection Reader}
    (guides : Guides list stop descent result)
    (goesOn : ∀ after, result = .ok after → Guides rest stop (after.moment list stop) (onward after)) :
    Guides rest stop descent (result.bind onward) := by
  cases result with
  | ok after => exact .of_reaches guides (goesOn after rfl)
  | error rejection => exact guides

/-- Behind a reader the descent comes to its end. -/
theorem Guides.ends {list : List Token} {stop : Nat} {descent : Descent}
    {result : Except Rejection Reader} {onward : Reader → Except Rejection Program}
    (guides : Guides list stop descent result)
    (goesOn : ∀ after, result = .ok after → (after.moment list stop).Ends (onward after)) :
    descent.Ends (result.bind onward) := by
  cases result with
  | ok after => exact Reaches.ends guides (goesOn after rfl)
  | error rejection => exact guides

/-- A form that returns is passed on through the dumps that wait for it. -/
theorem reaches_push (frames : List Frame) (forms : List Form) (form : Form) (list : List Token)
    (stop : Nat) :
    Reaches ⟨list, stop, frames.length + 1, .form :: Frame.calls frames forms, .give form⟩
      ((Reader.push ⟨frames, forms, none⟩ form).moment list stop) := by
  induction frames generalizing form with
  | nil => exact (reaches_next rfl).trans (reaches_next rfl)
  | cons frame frames ih =>
    cases frame with
    | group begins earlier => exact (reaches_next rfl).trans (reaches_next rfl)
    | dump =>
      have returned : Reaches
          ⟨list, stop, frames.length + 2, .form :: .dump :: .form :: Frame.calls frames forms, .give form⟩
          ⟨list, stop, frames.length + 1, .form :: Frame.calls frames forms, .give (.dump form)⟩ :=
        (reaches_next rfl).trans (reaches_next rfl)
      exact returned.trans (ih (.dump form))

/-- A form that is called for begins as a reader lets it. -/
theorem guides_beginForm (frames : List Frame) (forms : List Form) (token : Token) (rest : List Token)
    (stop : Nat) :
    Guides rest stop ⟨token :: rest, stop, frames.length, Frame.calls frames forms, .enter⟩
      (Reader.beginForm ⟨frames, forms, none⟩ token) := by
  by_cases full : maxNesting ≤ frames.length
  · simp only [beginForm, full, ↓reduceIte]
    exact ends_of_full full (token :: rest) stop _
  apply Guides.of_reaches (reaches_first full (token :: rest) stop _)
  obtain ⟨lexeme, offset⟩ := token
  simp only [beginForm, full, ↓reduceIte, Descent.takeFirst]
  cases lexeme with
  | openGroup | plus | minus => exact .refl
  | closeGroup => exact ends_of_fail _ _ _ _ _
  | numeral digits =>
    dsimp only
    cases Literal.read offset digits with
    | ok number => exact reaches_push frames forms (.literal number) rest stop
    | error rejection => exact ends_of_fail _ _ _ _ _
  | word name =>
    cases known : Keyword.ofWord? name with
    | none =>
      simp only [known]
      exact ends_of_fail _ _ _ _ _
    | some keyword =>
      cases keyword
      simp only [known]
      exact .refl

/-- Outside of a run a token is dealt with as a reader does. -/
theorem guides_item (frames : List Frame) (forms : List Form) (token : Token) (rest : List Token)
    (stop : Nat) :
    Guides rest stop ((⟨frames, forms, none⟩ : Reader).moment (token :: rest) stop)
      (Reader.item ⟨frames, forms, none⟩ token) := by
  have begun := guides_beginForm frames forms token rest stop
  obtain ⟨lexeme, offset⟩ := token
  cases frames with
  | nil =>
    cases lexeme with
    | closeGroup => exact (reaches_next rfl).ends (ends_of_fail _ _ _ _ _)
    | openGroup | plus | minus | numeral | word => exact .of_reaches (reaches_next rfl) begun
  | cons frame frames =>
    cases frame with
    | dump =>
      cases lexeme with
      | openGroup | closeGroup | plus | minus | numeral | word => exact begun
    | group begins earlier =>
      cases lexeme with
      | closeGroup =>
        exact (reaches_next rfl).trans (reaches_push frames earlier _ rest stop)
      | openGroup | plus | minus | numeral | word => exact .of_reaches (reaches_next rfl) begun

/-- A run of operands is over where no numeral follows. -/
theorem guides_endRun (reader : Reader) (list : List Token) (stop : Nat)
    (ended : ∀ token ∈ list.head?, reader.run = none ∨ token.lexeme.isNumeral = false) :
    Guides list stop (reader.moment list stop) reader.endRun := by
  obtain ⟨frames, forms, running⟩ := reader
  cases running with
  | none => exact .refl
  | some run =>
    have taken : Descent.next (Reader.moment ⟨frames, forms, some run⟩ list stop) =
        some (match run.form? with
          | some form => ⟨list, stop, frames.length + 1, .form :: Frame.calls frames forms, .give form⟩
          | none => ⟨list, stop, frames.length + 1, .form :: Frame.calls frames forms,
              .fail ⟨.missingOperand run.operator.lexeme.text, run.start⟩⟩) := by
      cases list with
      | nil => rfl
      | cons token rest =>
        obtain ⟨lexeme, offset⟩ := token
        cases lexeme with
        | numeral digits => simp [Lexeme.isNumeral] at ended
        | openGroup | closeGroup | plus | minus | word => rfl
    apply Guides.of_reaches (reaches_next taken)
    simp only [endRun]
    cases run.form? with
    | some form => exact reaches_push frames forms form list stop
    | none => exact ends_of_fail _ _ _ _ _

/-- One token takes a descent as far as a reader. -/
theorem guides_step (reader : Reader) (token : Token) (rest : List Token) (stop : Nat) :
    Guides rest stop (reader.moment (token :: rest) stop) (reader.step token) := by
  by_cases free : reader.run = none ∨ token.lexeme.isNumeral = false
  · rw [step_item free]
    apply (guides_endRun reader (token :: rest) stop (by simpa using free)).bind
    intro middle ended
    obtain ⟨frames, forms, running⟩ := middle
    obtain rfl : running = none := run_of_endRun ended
    exact guides_item frames forms token rest stop
  · obtain ⟨frames, forms, running⟩ := reader
    obtain ⟨lexeme, offset⟩ := token
    obtain ⟨busy, numeral⟩ := not_or.mp free
    obtain ⟨run, rfl⟩ := Option.ne_none_iff_exists'.mp busy
    cases lexeme with
    | numeral digits =>
      rw [step_operand rfl]
      apply Guides.of_reaches (reaches_next rfl)
      dsimp only [moment, Descent.takeOperand]
      cases Literal.read offset digits with
      | ok number => exact .refl
      | error rejection => exact ends_of_fail _ _ _ _ _
    | openGroup | closeGroup | plus | minus | word => simp [Lexeme.isNumeral] at numeral

/-- At the end of the source the descent ends as a reader does. -/
theorem ends_finish (reader : Reader) (stop : Nat) : (reader.moment [] stop).Ends (reader.finish stop) := by
  apply (guides_endRun reader [] stop (by simp)).ends
  intro middle ended
  obtain ⟨frames, forms, running⟩ := middle
  obtain rfl : running = none := run_of_endRun ended
  cases frames with
  | nil => exact ⟨_, reaches_next rfl, rfl, rfl⟩
  | cons frame frames =>
    cases frame with
    | group begins earlier => exact (reaches_next rfl).ends (ends_of_fail _ _ _ _ _)
    | dump =>
      by_cases full : maxNesting ≤ frames.length + 1
      · simp only [List.length_cons, full, ↓reduceIte]
        exact ends_of_full full [] stop _
      · simp only [List.length_cons, full, ↓reduceIte]
        exact Reaches.ends (reaches_first full [] stop _) (ends_of_fail _ _ _ _ _)

/-- Tokens are taken one after another. -/
theorem ends_steps (reader : Reader) (list : List Token) (stop : Nat) :
    (reader.moment list stop).Ends ((reader.steps list).bind (·.finish stop)) := by
  induction list generalizing reader with
  | nil => exact ends_finish reader stop
  | cons token rest ih =>
    have regrouped : (reader.steps (token :: rest)).bind (·.finish stop) =
        (reader.step token).bind fun after => (after.steps rest).bind (·.finish stop) := by
      simp only [Reader.steps]
      cases reader.step token <;> rfl
    rw [regrouped]
    exact (guides_step reader token rest stop).ends fun after _ => ih after

end Reader

/-- The descent of a source ends with what is read. -/
theorem Descent.ends_read (source : Bytes) : (Descent.start source).Ends (read source) :=
  Reader.ends_steps Reader.start (ArithAsm.tokens source) source.length

end ArithAsm
