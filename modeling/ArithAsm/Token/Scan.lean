import ArithAsm.Token

/-! Scanning. A token is the longest run that its first byte allows, and a
byte that begins no token is skipped. `tokens` is the whole token list of a
source; a `Cursor` pulls the same tokens one at a time. -/
namespace ArithAsm

/-- The lexeme at the front of a text whose first byte is `first`, and what
stands after it. -/
def Lexeme.leading? (first : UInt8) (rest : Bytes) : Option (Lexeme × Bytes) :=
  if first = 0x28 then some (.openGroup, rest)
  else if first = 0x29 then some (.closeGroup, rest)
  else if first = 0x2B then some (.plus, rest)
  else if first = 0x2D then some (.minus, rest)
  else if Byte.isWordStart first then
    some (.word (first :: rest.takeWhile Byte.isWordByte), rest.dropWhile Byte.isWordByte)
  else if Byte.isDigit first then
    some (.numeral (first :: rest.takeWhile Byte.isDigit), rest.dropWhile Byte.isDigit)
  else none

theorem Lexeme.length_after_le {first : UInt8} {rest after : Bytes} {lexeme : Lexeme}
    (leads : Lexeme.leading? first rest = some (lexeme, after)) : after.length ≤ rest.length := by
  simp only [leading?] at leads
  have dropped (p : UInt8 → Bool) : (rest.dropWhile p).length ≤ rest.length :=
    (List.dropWhile_sublist p).length_le
  split at leads
  · simp_all
  split at leads
  · simp_all
  split at leads
  · simp_all
  split at leads
  · simp_all
  split at leads
  · simp only [Option.some.injEq, Prod.mk.injEq] at leads
    exact leads.2 ▸ dropped _
  split at leads
  · simp only [Option.some.injEq, Prod.mk.injEq] at leads
    exact leads.2 ▸ dropped _
  · cases leads

/-- The tokens of a text whose first byte has offset `offset`. -/
def tokensFrom (offset : Nat) : Bytes → List Token
  | [] => []
  | first :: rest =>
    match leads : Lexeme.leading? first rest with
    | none => tokensFrom (offset + 1) rest
    | some (lexeme, after) =>
      ⟨lexeme, offset⟩ :: tokensFrom (offset + lexeme.spelling.length) after
termination_by text => text.length
decreasing_by
  · simp
  · simpa using Nat.lt_succ_of_le (Lexeme.length_after_le leads)

/-- The tokens of a source, in order. -/
def tokens (source : Bytes) : List Token :=
  tokensFrom 0 source

/-- A place in a source from which tokens are pulled: its offset, and the bytes
from there on. -/
structure Cursor where
  offset : Nat
  ahead : Bytes
deriving DecidableEq, Repr

namespace Cursor

/-- The beginning of a source. -/
def start (source : Bytes) : Cursor :=
  ⟨0, source⟩

/-- The next token of a text whose first byte has offset `offset`, if there is
one, and the cursor behind it. -/
def pullFrom (offset : Nat) : Bytes → Option Token × Cursor
  | [] => (none, ⟨offset, []⟩)
  | first :: rest =>
    match Lexeme.leading? first rest with
    | none => pullFrom (offset + 1) rest
    | some (lexeme, after) =>
      (some ⟨lexeme, offset⟩, ⟨offset + lexeme.spelling.length, after⟩)

/-- Pulls one token. At the end there is none, and the cursor stays there. -/
def pull (cursor : Cursor) : Option Token × Cursor :=
  pullFrom cursor.offset cursor.ahead

/-- What may be asked of a cursor. -/
inductive Request where
  /-- The next token, or the mark of the end. -/
  | nextToken
  /-- The next token, if there is one. -/
  | next
  /-- Where the cursor stands. -/
  | position
deriving DecidableEq, Repr

/-- What a cursor answers. -/
inductive Reply where
  | token (token : Token)
  /-- The end of the input, an empty span at the given offset. -/
  | endOfInput (offset : Nat)
  | nothing
deriving DecidableEq, Repr

/-- Serves one request. -/
def serve (cursor : Cursor) : Request → Reply × Cursor
  | .position => (.nothing, cursor)
  | .next =>
    match cursor.pull with
    | (some token, behind) => (.token token, behind)
    | (none, behind) => (.nothing, behind)
  | .nextToken =>
    match cursor.pull with
    | (some token, behind) => (.token token, behind)
    | (none, behind) => (.endOfInput behind.offset, behind)

/-- Serves requests in order; each reply comes with the offset reached by it. -/
def serveAll (cursor : Cursor) : List Request → List (Reply × Nat)
  | [] => []
  | request :: rest =>
    let (reply, behind) := cursor.serve request
    (reply, behind.offset) :: behind.serveAll rest

end Cursor
end ArithAsm
