import ArithAsm.Host.Status
import ArithAsm.Source.Location
import ArithAsm.Text.Utf8

/-! Everything that can go wrong, by cause, and what is said about it. A fault
of the source text is reported the way an assembler would, with its line and
column in front. -/
namespace ArithAsm

/-- Why a text is no program. -/
inductive Fault where
  /-- A form was required and something else stood there. -/
  | unexpected (found : String)
  /-- A word that is no keyword. -/
  | unknownIdentifier (name : String)
  /-- An operator without operands. -/
  | missingOperand (operator : String)
  /-- A `)` that closes nothing. -/
  | unmatchedClose
  /-- A `(` that nothing closes. -/
  | unclosedGroup
  /-- A numeral of `2 ^ 64` or more. -/
  | literalOutOfRange (digits : String)
  /-- A form inside more forms than the limit. -/
  | nestingTooDeep (limit : Nat)
deriving DecidableEq, Repr

/-- What is said about the fault, its place apart. -/
def Fault.message : Fault → String
  | unexpected found => s!"unexpected `{found}`"
  | unknownIdentifier name => s!"unknown identifier `{name}`"
  | missingOperand operator => s!"`{operator}` expects at least one numeric literal"
  | unmatchedClose => "unmatched `)`"
  | unclosedGroup => "unclosed `(`"
  | literalOutOfRange digits => s!"literal `{digits}` does not fit in 64 bits"
  | nestingTooDeep limit => s!"forms nested deeper than {limit} levels"

/-- A fault and the offset of the token to blame for it. -/
structure Rejection where
  fault : Fault
  offset : Nat
deriving DecidableEq, Repr

/-- A reason for giving up. -/
inductive Error where
  | readSource (path : Bytes) (cause : IoError)
  | sourceTooLarge (path : Bytes) (limit : Nat)
  | writeOutput (path : Bytes) (cause : IoError)
  | emit (cause : IoError)
  /-- The program could not be started. -/
  | spawnTool (program : String) (cause : IoError)
  /-- The program ran and did not succeed. -/
  | toolFailed (program : String) (status : Status)
  | malformed (location : Location) (fault : Fault)
deriving DecidableEq, Repr

namespace Error

/-- The place in the source that is to blame, for a fault of the source. -/
def location? : Error → Option Location
  | malformed location _ => some location
  | _ => none

/-- What is said about the error. -/
def message : Error → String
  | readSource path cause => s!"unable to read input file `{Utf8.lossy path}`: {cause.message}"
  | sourceTooLarge path limit =>
    s!"input too large: `{Utf8.lossy path}` exceeds the {limit} byte limit"
  | writeOutput path cause => s!"unable to write output file `{Utf8.lossy path}`: {cause.message}"
  | emit cause => s!"unable to emit assembly: {cause.message}"
  | spawnTool program cause => s!"unable to run `{program}`: {cause.message}"
  | toolFailed program status => s!"`{program}` exited with {status.text}"
  | malformed location fault => s!"{location.text}: {fault.message}"

end Error

/-- Why there is no going on, not even to report an error. -/
inductive Abort where
  /-- One more than the limit is not a 64-bit number. -/
  | limitOverflow
  /-- An argument is asked for as a text, and its bytes are none. -/
  | notText
deriving DecidableEq, Repr

/-- The error that reports a rejection of `source`. -/
def Rejection.error (rejection : Rejection) (source : Bytes) : Error :=
  .malformed (Location.of source rejection.offset) rejection.fault

end ArithAsm
