import ArithAsm.Error
import ArithAsm.Form
import ArithAsm.Token.Scan

/-! Reading a program from its tokens, one token at a time. A `Reader` holds
what the tokens so far leave open: the enclosing groups and dumps, innermost
first, the forms already read in the innermost sequence, and the operator whose
operands are being collected. An operator takes every numeral that follows it;
the token that ends the run of numerals begins the next item. -/
namespace ArithAsm

/-- No form stands inside more than this many others. -/
def maxNesting : Nat := 256

/-- The two operators. -/
inductive Operator where
  | plus
  | minus
deriving DecidableEq, Repr

/-- The operator as it is written. -/
def Operator.lexeme : Operator → Lexeme
  | plus => .plus
  | minus => .minus

/-- An operator and the operands that have followed it, latest first. -/
structure OperandRun where
  operator : Operator
  start : Nat
  operands : List Literal
deriving DecidableEq, Repr

/-- The form that the run amounts to once it is over. There is none without an
operand; the first operand of `-` is the one subtracted from. -/
def OperandRun.form? (run : OperandRun) : Option Form :=
  match run.operator, run.operands.reverse with
  | _, [] => none
  | .plus, terms => some (.add terms)
  | .minus, seed :: terms => some (.sub seed terms)

/-- A form that has been begun and not finished. -/
inductive Frame where
  /-- A `(` at offset `start`, and the forms read before it in the sequence that
  the group stands in, latest first. -/
  | group (start : Nat) (earlier : List Form)
  /-- A `dump` whose argument is still to come. -/
  | dump
deriving Repr

/-- What the tokens read so far leave open. -/
structure Reader where
  /-- Forms that enclose the next token, innermost first. -/
  frames : List Frame
  /-- Forms read in the innermost group, or outside of all, latest first. -/
  forms : List Form
  /-- The operator whose operands are being collected. -/
  run : Option OperandRun
deriving Repr

/-- The literal that a numeral at offset `start` writes. -/
def Literal.read (start : Nat) (digits : Bytes) : Except Rejection Literal :=
  if decimalValue digits < UInt64.size then
    .ok ⟨(decimalValue digits).toUInt64, ⟨start, start + digits.length⟩⟩
  else .error ⟨.literalOutOfRange (Lexeme.numeral digits).text, start⟩

/-- A finished form is the argument of each dump that waits for it; what results
takes its place among the remaining frames. -/
def Frame.settle : List Frame → Form → List Frame × Form
  | .dump :: frames, form => Frame.settle frames (.dump form)
  | frames, form => (frames, form)

namespace Reader

/-- Before the first token. -/
def start : Reader :=
  ⟨[], [], none⟩

/-- Takes in a finished form. -/
def push (reader : Reader) (form : Form) : Reader :=
  let (frames, form) := Frame.settle reader.frames form
  { reader with frames := frames, forms := form :: reader.forms }

/-- Ends the run of operands, if there is one. -/
def endRun (reader : Reader) : Except Rejection Reader :=
  match reader.run with
  | none => .ok reader
  | some run =>
    match run.form? with
    | none => .error ⟨.missingOperand run.operator.lexeme.text, run.start⟩
    | some form => .ok ({ reader with run := none }.push form)

/-- Begins the form that starts with `token`, in a place where a form fits. -/
def beginForm (reader : Reader) (token : Token) : Except Rejection Reader :=
  if maxNesting ≤ reader.frames.length then .error ⟨.nestingTooDeep maxNesting, token.start⟩
  else
    match token.lexeme with
    | .openGroup =>
      .ok { reader with frames := .group token.start reader.forms :: reader.frames, forms := [] }
    | .closeGroup => .error ⟨.unexpected Lexeme.closeGroup.text, token.start⟩
    | .numeral digits => (Literal.read token.start digits).map fun number =>
      reader.push (.literal number)
    | .plus => .ok { reader with run := some ⟨.plus, token.start, []⟩ }
    | .minus => .ok { reader with run := some ⟨.minus, token.start, []⟩ }
    | .word name =>
      match Keyword.ofWord? name with
      | some .dump => .ok { reader with frames := .dump :: reader.frames }
      | none => .error ⟨.unknownIdentifier (Lexeme.word name).text, token.start⟩

/-- Takes in a token that no operator claims. A `)` closes the innermost group
unless a dump still waits for its argument. -/
def item (reader : Reader) (token : Token) : Except Rejection Reader :=
  match token.lexeme, reader.frames with
  | .closeGroup, [] => .error ⟨.unmatchedClose, token.start⟩
  | .closeGroup, .group start earlier :: frames =>
    let form := Form.group ⟨start, token.stop⟩ reader.forms.reverse
    .ok ({ reader with frames := frames, forms := earlier }.push form)
  | _, _ => reader.beginForm token

/-- Takes in one token. -/
def step (reader : Reader) (token : Token) : Except Rejection Reader :=
  match reader.run, token.lexeme with
  | some run, .numeral digits => (Literal.read token.start digits).map fun number =>
    { reader with run := some { run with operands := number :: run.operands } }
  | _, _ => reader.endRun.bind (·.item token)

/-- Takes in tokens in order, up to the first that does not fit. -/
def steps (reader : Reader) : List Token → Except Rejection Reader
  | [] => .ok reader
  | token :: rest => (reader.step token).bind (·.steps rest)

/-- The program, if the tokens end here, at offset `stop`. -/
def finish (reader : Reader) (stop : Nat) : Except Rejection Program :=
  reader.endRun.bind fun reader =>
    match reader.frames with
    | [] => .ok reader.forms.reverse
    | .group start _ :: _ => .error ⟨.unclosedGroup, start⟩
    | .dump :: _ =>
      if maxNesting ≤ reader.frames.length then .error ⟨.nestingTooDeep maxNesting, stop⟩
      else .error ⟨.unexpected "end of input", stop⟩

/-- The tokens, from the first on, that fit. -/
def accepted (reader : Reader) : List Token → List Token
  | [] => []
  | token :: rest =>
    match reader.step token with
    | .ok after => token :: after.accepted rest
    | .error _ => []

end Reader

/-- The program that `source` spells, or the reason why it spells none. -/
def read (source : Bytes) : Except Rejection Program :=
  (Reader.start.steps (tokens source)).bind (·.finish source.length)

/-- The program that `source` spells, or an error that names the place to blame. -/
def parse (source : Bytes) : Except Error Program :=
  (read source).mapError (·.error source)

end ArithAsm
