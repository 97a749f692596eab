import ArithAsm.Text.Printable
import ArithAsm.Text.Utf8

/-! Names shown between double quotes, so that a reader can tell where each
ends and which characters it holds. -/
namespace ArithAsm.Text

/-- The lower-case hexadecimal digits of `n`. -/
def hexDigits (n : Nat) : List Char :=
  Nat.toDigits 16 n

/-- Two upper-case hexadecimal digits. -/
def hexByte (b : UInt8) : List Char :=
  let digits := (hexDigits b.toNat).map Char.toUpper
  if digits.length < 2 then '0' :: digits else digits

/-- How one character stands between the quotes: double quotes and backslashes behind
a backslash, the common controls by letter, and what has no visible form of its
own by number. -/
def escapedChar (c : Char) : List Char :=
  match c.toNat with
  | 0x00 => ['\\', '0']
  | 0x09 => ['\\', 't']
  | 0x0A => ['\\', 'n']
  | 0x0D => ['\\', 'r']
  | 0x22 | 0x5C => ['\\', c]
  | n => if isPlain c then [c] else ['\\', 'u', '\x7b'] ++ hexDigits n ++ ['\x7d']

/-- A broken sequence shows byte by byte, in hexadecimal. -/
def escapedPiece : Utf8.Piece → List Char
  | .scalar c => escapedChar c
  | .broken bytes => bytes.flatMap fun b => ['\\', 'x'] ++ hexByte b

/-- A name between double quotes. -/
def quoted (name : Bytes) : String :=
  String.ofList (['"'] ++ (Utf8.pieces name).flatMap escapedPiece ++ ['"'])

/-- A list of names, each between double quotes. -/
def quotedList (names : List Bytes) : String :=
  "[" ++ ", ".intercalate (names.map quoted) ++ "]"

end ArithAsm.Text
