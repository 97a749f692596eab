import ArithAsm.Log
import ArithAsm.Text.Blank
import ArithAsm.Text.Utf8

/-! Simulation: a quick look at a source without reading it as a program. The
text is split at parentheses and spaces only, and the last piece is taken for
the value. Newlines do not split, so a newline at the end is a piece of its own
and counts as zero. -/
namespace ArithAsm

/-- What simulating a source shows. -/
structure Simulation where
  text : String
  /-- The length of the source in bytes. -/
  length : Nat
  value : Int
deriving DecidableEq, Repr

namespace Simulation

/-- The characters between which pieces stand. -/
def isDelimiter (c : Char) : Bool :=
  c == '(' || c == ')' || c == ' '

/-- The last piece of a text that is not empty. -/
def lastPiece? (text : List Char) : Option (List Char) :=
  ((text.splitOnP isDelimiter).filter (!·.isEmpty)).getLast?

/-- The sign at the front of a text, and what follows it. -/
def splitSign : List Char → Int × List Char
  | '+' :: rest => (1, rest)
  | '-' :: rest => (-1, rest)
  | text => (1, text)

/-- The number itself, or zero when it is no signed 64-bit number. -/
def orZero (n : Int) : Int :=
  if Int64.minValue.toInt ≤ n ∧ n ≤ Int64.maxValue.toInt then n else 0

/-- The integer at the front of a piece, after blanks and with its sign. It is
zero when there is none or it does not fit in 64 bits. -/
def leadingInteger (piece : List Char) : Int :=
  let (sign, rest) := splitSign (piece.dropWhile Text.isBlank)
  orZero (sign * Nat.ofDigitChars 10 (rest.takeWhile Char.isDigit) 0)

/-- Simulates a source. -/
def of (source : Bytes) : Simulation :=
  { text := Utf8.lossy source
    length := source.length
    value := ((lastPiece? (Utf8.lossyChars source)).map leadingInteger).getD 0 }

/-- The record that a simulation leaves. -/
def record (simulation : Simulation) : Record :=
  ⟨.debug, .simulator,
    s!"simulated {simulation.length} byte(s), result {simulation.value}"⟩

end Simulation
end ArithAsm
