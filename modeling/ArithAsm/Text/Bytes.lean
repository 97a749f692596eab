/-! Byte strings. Source text, file contents and path names are sequences of
octets that need not spell valid UTF-8; the classes below are the ASCII ones
the source language is written in. -/
namespace ArithAsm

/-- A sequence of octets. -/
abbrev Bytes := List UInt8

namespace Byte

/-- The byte that ends a line. -/
def newline : UInt8 := 0x0A

/-- The byte that separates the parts of a path. -/
def slash : UInt8 := 0x2F

/-- The byte that stands before a file name's extension. -/
def dot : UInt8 := 0x2E

/-- The byte that options begin with. -/
def dash : UInt8 := 0x2D

/-- The byte between an option and its value. -/
def equals : UInt8 := 0x3D

/-- The digits `0` to `9`. -/
def isDigit (b : UInt8) : Bool :=
  0x30 ≤ b && b ≤ 0x39

/-- The letters `A` to `Z` and `a` to `z`. -/
def isLetter (b : UInt8) : Bool :=
  (0x41 ≤ b && b ≤ 0x5A) || (0x61 ≤ b && b ≤ 0x7A)

/-- A byte that may begin a word: a letter or `_`. -/
def isWordStart (b : UInt8) : Bool :=
  b == 0x5F || isLetter b

/-- A byte that may continue a word: a letter, a digit or `_`. -/
def isWordByte (b : UInt8) : Bool :=
  isWordStart b || isDigit b

end Byte

/-- The number that a run of ASCII digits writes, most significant first. -/
def decimalValue (digits : Bytes) : Nat :=
  digits.foldl (fun n d => 10 * n + (d.toNat - 0x30)) 0

end ArithAsm
