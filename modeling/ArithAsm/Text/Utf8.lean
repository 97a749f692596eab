import ArithAsm.Text.Bytes

/-! UTF-8 text and byte strings that only resemble it. A byte string is cut
into scalar values and broken sequences, where a broken sequence is the
longest beginning of a character that the bytes still allow. Strict decoding
refuses broken sequences; lossy decoding writes U+FFFD for each of them. -/
namespace ArithAsm.Utf8

/-- The bytes that spell `text`. -/
def encode (text : String) : Bytes :=
  text.toList.flatMap String.utf8EncodeChar

/-- What the first byte of a character announces: how many continuation bytes
follow it, and the bounds of the first of them. -/
structure Lead where
  following : Nat
  low : UInt8
  high : UInt8

/-- The bounds after `E0`, `ED`, `F0` and `F4` keep out overlong spellings,
surrogates and values past U+10FFFF. -/
def Lead.ofByte? (b : UInt8) : Option Lead :=
  if b ≤ 0x7F then some ⟨0, 0x80, 0xBF⟩
  else if b < 0xC2 then none
  else if b ≤ 0xDF then some ⟨1, 0x80, 0xBF⟩
  else if b = 0xE0 then some ⟨2, 0xA0, 0xBF⟩
  else if b = 0xED then some ⟨2, 0x80, 0x9F⟩
  else if b ≤ 0xEF then some ⟨2, 0x80, 0xBF⟩
  else if b = 0xF0 then some ⟨3, 0x90, 0xBF⟩
  else if b ≤ 0xF3 then some ⟨3, 0x80, 0xBF⟩
  else if b = 0xF4 then some ⟨3, 0x80, 0x8F⟩
  else none

/-- Up to `count` continuation bytes from the front, the first of them within
`low` and `high`. -/
def continuation : (count : Nat) → (low high : UInt8) → Bytes → Bytes
  | count + 1, low, high, b :: rest =>
    if low ≤ b ∧ b ≤ high then b :: continuation count 0x80 0xBF rest else []
  | _, _, _, _ => []

/-- The value spelled by a lead byte and all of its continuation bytes. Each
continuation byte brings six bits; the lead byte brings the rest. -/
def scalarValue (first : UInt8) (tail : Bytes) : Nat :=
  let payload :=
    match tail.length with
    | 0 => first.toNat
    | 1 => first.toNat % 0x20
    | 2 => first.toNat % 0x10
    | _ => first.toNat % 0x08
  tail.foldl (fun n b => n * 0x40 + b.toNat % 0x40) payload

/-- A unit of decoded text. -/
inductive Piece where
  | scalar (c : Char)
  | broken (bytes : Bytes)
deriving DecidableEq, Repr

/-- Cuts a byte string into characters and broken sequences, losing nothing. -/
def pieces : Bytes → List Piece
  | [] => []
  | b :: rest =>
    match Lead.ofByte? b with
    | none => .broken [b] :: pieces rest
    | some lead =>
      let tail := continuation lead.following lead.low lead.high rest
      let piece :=
        if tail.length = lead.following then .scalar (Char.ofNat (scalarValue b tail))
        else .broken (b :: tail)
      piece :: pieces (rest.drop tail.length)
termination_by bytes => bytes.length

/-- The character shown for a piece; a broken one shows as U+FFFD. -/
def Piece.shown : Piece → Char
  | .scalar c => c
  | .broken _ => Char.ofNat 0xFFFD

/-- The character that a piece spells, if it spells one. -/
def Piece.char? : Piece → Option Char
  | .scalar c => some c
  | .broken _ => none

/-- The characters of a byte string, U+FFFD standing for each broken sequence. -/
def lossyChars (bytes : Bytes) : List Char :=
  (pieces bytes).map Piece.shown

/-- The text of a byte string, U+FFFD standing for each broken sequence. -/
def lossy (bytes : Bytes) : String :=
  String.ofList (lossyChars bytes)

/-- The text that a byte string spells, if no sequence in it is broken. -/
def decode? (bytes : Bytes) : Option String :=
  ((pieces bytes).mapM Piece.char?).map String.ofList

/-- Whether a byte string spells a text. -/
def isText (bytes : Bytes) : Bool :=
  (decode? bytes).isSome

end ArithAsm.Utf8
