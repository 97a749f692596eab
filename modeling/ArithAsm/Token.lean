import ArithAsm.Source.Span

/-! Tokens of the source language: parentheses, the two operators, numerals
and words, each with the offset at which it starts. -/
namespace ArithAsm

/-- A token without its position. -/
inductive Lexeme where
  | openGroup
  | closeGroup
  | plus
  | minus
  | numeral (digits : Bytes)
  | word (name : Bytes)
deriving DecidableEq, Repr

namespace Lexeme

/-- The bytes that the lexeme is written with. -/
def spelling : Lexeme → Bytes
  | openGroup => [0x28]
  | closeGroup => [0x29]
  | plus => [0x2B]
  | minus => [0x2D]
  | numeral digits => digits
  | word name => name

/-- The spelling as text. -/
def text (lexeme : Lexeme) : String :=
  (Utf8.decode? lexeme.spelling).getD ""

/-- What a token list calls this kind of lexeme. -/
def label : Lexeme → String
  | openGroup => "OpenGroup"
  | closeGroup => "CloseGroup"
  | plus => "Plus"
  | minus => "Minus"
  | numeral _ => "NumericLiteral"
  | word _ => "Identifier"

end Lexeme

/-- A lexeme and the offset of its first byte. -/
structure Token where
  lexeme : Lexeme
  start : Nat
deriving DecidableEq, Repr

namespace Token

/-- The offset after the last byte. -/
def stop (token : Token) : Nat :=
  token.start + token.lexeme.spelling.length

/-- The bytes of the source that the token was read from. -/
def span (token : Token) : Span :=
  ⟨token.start, token.stop⟩

/-- The same token of a text that has `offset` more bytes in front. -/
def shift (token : Token) (offset : Nat) : Token :=
  { token with start := token.start + offset }

end Token

/-- The words that mean something. -/
inductive Keyword where
  | dump
deriving DecidableEq, Repr

/-- The keyword that a word spells. Case matters. -/
def Keyword.ofWord? (name : Bytes) : Option Keyword :=
  if name = Utf8.encode "dump" then some .dump else none

end ArithAsm
