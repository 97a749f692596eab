import ArithAsm.Proofs.Scanning

/-! The text of a token. Every token is written in ASCII, so its text is never
lost to decoding: encoded again it gives the bytes that the token was read from. -/
namespace ArithAsm

namespace Utf8

/-- The character that an ASCII byte spells. -/
def asciiChar (byte : UInt8) : Char :=
  Char.ofNat byte.toNat

theorem pieces_ascii {byte : UInt8} (ascii : byte ≤ 0x7F) (rest : Bytes) :
    pieces (byte :: rest) = .scalar (asciiChar byte) :: pieces rest := by
  have lead : Lead.ofByte? byte = some ⟨0, 0x80, 0xBF⟩ := by simp [Lead.ofByte?, ascii]
  rw [pieces]
  simp [lead, continuation, scalarValue, asciiChar]

theorem decode_ascii {bytes : Bytes} (ascii : ∀ byte ∈ bytes, byte ≤ 0x7F) :
    decode? bytes = some (String.ofList (bytes.map asciiChar)) := by
  have chars : (pieces bytes).mapM Piece.char? = some (bytes.map asciiChar) := by
    induction bytes with
    | nil => simp [pieces]
    | cons byte rest ih =>
      obtain ⟨first, others⟩ := List.forall_mem_cons.mp ascii
      rw [pieces_ascii first, List.mapM_cons, ih others]
      rfl
  rw [decode?, chars, Option.map_some]

theorem asciiChar_toNat {byte : UInt8} (ascii : byte ≤ 0x7F) :
    (asciiChar byte).toNat = byte.toNat := by
  have small : byte.toNat ≤ 0x7F := UInt8.le_iff_toNat_le.mp ascii
  have valid : byte.toNat.isValidChar := .inl (by omega)
  rw [asciiChar, Char.ofNat, dif_pos valid]
  rfl

theorem encode_asciiChar {byte : UInt8} (ascii : byte ≤ 0x7F) :
    String.utf8EncodeChar (asciiChar byte) = [byte] := by
  have small : byte.toNat ≤ 127 := UInt8.le_iff_toNat_le.mp ascii
  have code : (asciiChar byte).val.toNat = byte.toNat := asciiChar_toNat ascii
  have size : (asciiChar byte).utf8Size = 1 :=
    Char.utf8Size_eq_one_iff.mpr (UInt32.le_iff_toNat_le.mpr (code ▸ small))
  rw [String.utf8EncodeChar_eq_singleton size, List.singleton_inj, ← UInt8.toNat_inj,
    UInt32.toNat_toUInt8, code]
  omega

theorem encode_append (first second : String) :
    encode (first ++ second) = encode first ++ encode second := by
  simp [encode]

theorem encode_ascii {bytes : Bytes} (ascii : ∀ byte ∈ bytes, byte ≤ 0x7F) :
    encode (String.ofList (bytes.map asciiChar)) = bytes := by
  rw [encode, String.toList_ofList]
  induction bytes with
  | nil => rfl
  | cons byte rest ih =>
    obtain ⟨first, others⟩ := List.forall_mem_cons.mp ascii
    rw [List.map_cons, List.flatMap_cons, encode_asciiChar first, ih others, List.singleton_append]

end Utf8

theorem Byte.isWordByte_ascii {byte : UInt8} (wordByte : Byte.isWordByte byte = true) : byte ≤ 0x7F := by
  simp only [Byte.isWordByte, Byte.isWordStart, Byte.isLetter, Byte.isDigit, Bool.or_eq_true,
    Bool.and_eq_true, beq_iff_eq, decide_eq_true_eq, UInt8.le_iff_toNat_le, ← UInt8.toNat_inj] at wordByte ⊢
  simp only [UInt8.reduceToNat] at wordByte ⊢
  omega

/-- A lexeme at the front of a text is written in ASCII. -/
theorem Lexeme.spelling_ascii {first : UInt8} {rest after : Bytes} {lexeme : Lexeme}
    (leads : leading? first rest = some (lexeme, after)) : ∀ byte ∈ lexeme.spelling, byte ≤ 0x7F := by
  have run {p : UInt8 → Bool} (included : ∀ byte, p byte = true → byte ≤ 0x7F) :
      ∀ byte ∈ rest.takeWhile p, byte ≤ 0x7F := fun byte member =>
    included byte (List.mem_takeWhile_imp member)
  have alone {sign : UInt8} (small : sign ≤ 0x7F) : ∀ byte ∈ [sign], byte ≤ 0x7F :=
    List.forall_mem_singleton.mpr small
  simp only [leading?] at leads
  split at leads
  · cases leads
    exact alone (by decide)
  split at leads
  · cases leads
    exact alone (by decide)
  split at leads
  · cases leads
    exact alone (by decide)
  split at leads
  · cases leads
    exact alone (by decide)
  split at leads
  · rename_i start
    cases leads
    exact List.forall_mem_cons.mpr ⟨Byte.isWordByte_ascii (by simp [Byte.isWordByte, start]),
      run fun _ => Byte.isWordByte_ascii⟩
  split at leads
  · rename_i digit
    have included (byte : UInt8) (digit : Byte.isDigit byte = true) : byte ≤ 0x7F :=
      Byte.isWordByte_ascii (by simp [Byte.isWordByte, digit])
    cases leads
    exact List.forall_mem_cons.mpr ⟨included first digit, run included⟩
  · cases leads

/-- Every token is written in ASCII. -/
theorem tokensFrom_ascii {offset : Nat} {text : Bytes} {token : Token}
    (scanned : token ∈ tokensFrom offset text) : ∀ byte ∈ token.lexeme.spelling, byte ≤ 0x7F := by
  fun_induction tokensFrom offset text with
  | case1 offset => simp at scanned
  | case2 offset first rest leads ih => exact ih scanned
  | case3 offset first rest lexeme after leads ih =>
    rcases List.mem_cons.mp scanned with rfl | later
    · exact Lexeme.spelling_ascii leads
    · exact ih later

/-- Encoded again, the text of a token is what the token was read from. -/
theorem encode_text_of_scanned {source : Bytes} {lexeme : Lexeme} {offset : Nat}
    (scanned : ⟨lexeme, offset⟩ ∈ tokens source) : Utf8.encode lexeme.text = lexeme.spelling := by
  have ascii := tokensFrom_ascii scanned
  rw [Lexeme.text, Utf8.decode_ascii ascii, Option.getD_some, Utf8.encode_ascii ascii]

end ArithAsm
