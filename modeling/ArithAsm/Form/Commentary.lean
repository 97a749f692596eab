import ArithAsm.Form.Read
import ArithAsm.Log

/-! The records that reading a program leaves: one for every `dump` that was
taken in, and on success one that counts the outermost forms. -/
namespace ArithAsm

/-- The record of a token that was taken in, if it is a `dump`. -/
def Token.dumpRecord? (token : Token) : Option Record :=
  match token.lexeme with
  | .word name =>
    match Keyword.ofWord? name with
    | some .dump => some ⟨.trace, .reader, s!"dump at offset {token.start}"⟩
    | none => none
  | _ => none

/-- The records that reading `source` leaves. -/
def readRecords (source : Bytes) : List Record :=
  (Reader.start.accepted (tokens source)).filterMap Token.dumpRecord? ++
    match read source with
    | .ok program => [⟨.debug, .reader, s!"parsed {program.length} top-level form(s)"⟩]
    | .error _ => []

end ArithAsm
