/-! The size limit as it is given on the command line: decimal digits, with a
plus sign in front if one likes. -/
namespace ArithAsm

/-- Why a text is no limit. -/
inductive LimitError where
  | empty
  | invalidDigit
  /-- The number is `2 ^ 64` or more. -/
  | tooLarge
deriving DecidableEq, Repr

namespace LimitError

/-- What is said about the text. -/
def message : LimitError → String
  | empty => "cannot parse integer from empty string"
  | invalidDigit => "invalid digit found in string"
  | tooLarge => "number too large to fit in target type"

end LimitError

/-- Reads on behind digits of the value `sofar`. The first character that is no
digit, or that makes the number too large, decides what is wrong. -/
def readDigits (sofar : Nat) : List Char → Except LimitError Nat
  | [] => .ok sofar
  | c :: rest =>
    if c.isDigit then
      let value := 10 * sofar + (c.toNat - '0'.toNat)
      if value < UInt64.size then readDigits value rest else .error .tooLarge
    else .error .invalidDigit

/-- The number that a text writes. A sign needs digits after it. -/
def readNumber : List Char → Except LimitError Nat
  | [] => .error .empty
  | ['+'] => .error .invalidDigit
  | '+' :: digits => readDigits 0 digits
  | digits => readDigits 0 digits

/-- Reads a limit. -/
def readLimit (text : String) : Except LimitError UInt64 :=
  (readNumber text.toList).map Nat.toUInt64

end ArithAsm
