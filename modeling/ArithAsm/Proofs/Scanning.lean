import ArithAsm.Token.Scan
import Mathlib.Data.List.TakeWhile

/-! Scanning piece by piece. No token reaches across a byte that cannot continue
a word, so the tokens of a text are those in front of such a byte and those from
it on; where the scan begins only moves the tokens. -/
namespace ArithAsm

namespace Lexeme
variable {first boundary : UInt8} {rest after following : Bytes} {lexeme : Lexeme}

/-- A lexeme is spelled by the bytes that are taken off the text. -/
theorem spelling_append_of_leading (leads : leading? first rest = some (lexeme, after)) :
    lexeme.spelling ++ after = first :: rest := by
  simp only [leading?] at leads
  split at leads
  · cases leads; simp [spelling, *]
  split at leads
  · cases leads; simp [spelling, *]
  split at leads
  · cases leads; simp [spelling, *]
  split at leads
  · cases leads; simp [spelling, *]
  split at leads
  · cases leads; simp [spelling]
  split at leads
  · cases leads; simp [spelling]
  · cases leads

private theorem takeWhile_boundary {p : UInt8 → Bool} (stops : p boundary = false) :
    (rest ++ boundary :: following).takeWhile p = rest.takeWhile p := by
  induction rest with
  | nil => simp [stops]
  | cons byte rest ih => simp [List.takeWhile_cons, ih]

private theorem dropWhile_boundary {p : UInt8 → Bool} (stops : p boundary = false) :
    (rest ++ boundary :: following).dropWhile p = rest.dropWhile p ++ boundary :: following := by
  induction rest with
  | nil => simp [stops]
  | cons byte rest ih =>
    simp only [List.cons_append, List.dropWhile_cons]
    split <;> simp [ih]

/-- What follows a byte that cannot continue a word is left alone. -/
theorem leading_append (stops : Byte.isWordByte boundary = false) :
    leading? first (rest ++ boundary :: following) =
      (leading? first rest).map fun found => (found.1, found.2 ++ boundary :: following) := by
  have noDigit : Byte.isDigit boundary = false := (Bool.or_eq_false_iff.mp stops).2
  simp only [leading?, takeWhile_boundary stops, dropWhile_boundary stops,
    takeWhile_boundary noDigit, dropWhile_boundary noDigit]
  split_ifs <;> rfl

end Lexeme

section
variable {first : UInt8} {rest after : Bytes} {lexeme : Lexeme} (offset : Nat)

theorem tokensFrom_skip (leads : Lexeme.leading? first rest = none) :
    tokensFrom offset (first :: rest) = tokensFrom (offset + 1) rest := by
  rw [tokensFrom]
  split <;> simp_all

theorem tokensFrom_token (leads : Lexeme.leading? first rest = some (lexeme, after)) :
    tokensFrom offset (first :: rest) =
      ⟨lexeme, offset⟩ :: tokensFrom (offset + lexeme.spelling.length) after := by
  rw [tokensFrom]
  split <;> simp_all

end

/-- No token reaches across a byte that cannot continue a word. -/
theorem tokensFrom_append {boundary : UInt8} (stops : Byte.isWordByte boundary = false)
    (offset : Nat) (text following : Bytes) :
    tokensFrom offset (text ++ boundary :: following) =
      tokensFrom offset text ++ tokensFrom (offset + text.length) (boundary :: following) := by
  fun_induction tokensFrom offset text with
  | case1 offset => simp
  | case2 offset first rest leads ih =>
    have skipped : Lexeme.leading? first (rest ++ boundary :: following) = none := by
      rw [Lexeme.leading_append stops, leads, Option.map_none]
    rw [List.cons_append, tokensFrom_skip offset skipped, ih, List.length_cons, Nat.add_assoc,
      Nat.add_comm 1]
  | case3 offset first rest lexeme after leads ih =>
    have taken : Lexeme.leading? first (rest ++ boundary :: following) =
        some (lexeme, after ++ boundary :: following) := by
      rw [Lexeme.leading_append stops, leads, Option.map_some]
    have length := congrArg List.length (Lexeme.spelling_append_of_leading leads)
    rw [List.length_append] at length
    rw [List.cons_append, tokensFrom_token offset taken, ih, Nat.add_assoc, length, List.cons_append]

/-- A byte that begins no token does not continue a word either. -/
theorem leading_eq_none_iff {byte : UInt8} {rest : Bytes} :
    Lexeme.leading? byte rest = none ↔ byte ≠ 0x28 ∧ byte ≠ 0x29 ∧ byte ≠ 0x2B ∧ byte ≠ 0x2D ∧
      Byte.isWordByte byte = false := by
  simp only [Lexeme.leading?, Byte.isWordByte]
  split_ifs <;> simp_all

theorem leading_blank (rest : Bytes) : Lexeme.leading? 0x20 rest = none :=
  leading_eq_none_iff.mpr (by decide)

/-- Scanning splits at a byte that begins no token. -/
theorem tokensFrom_append_skipped {skipped : UInt8} {following : Bytes}
    (skips : Lexeme.leading? skipped following = none) (offset : Nat) (text : Bytes) :
    tokensFrom offset (text ++ skipped :: following) =
      tokensFrom offset text ++ tokensFrom (offset + text.length + 1) following := by
  rw [tokensFrom_append (leading_eq_none_iff.mp skips).2.2.2.2, tokensFrom_skip _ skips]

/-- A source and more text behind a blank. -/
theorem tokens_append_blank (source rest : Bytes) :
    tokens (source ++ 0x20 :: rest) = tokens source ++ tokensFrom (source.length + 1) rest := by
  rw [tokens, tokensFrom_append_skipped (leading_blank rest), Nat.zero_add, tokens]

/-- A scan that begins further on finds the same tokens further on. -/
theorem tokensFrom_shift (offset distance : Nat) (text : Bytes) :
    tokensFrom (offset + distance) text = (tokensFrom offset text).map (·.shift distance) := by
  fun_induction tokensFrom offset text with
  | case1 offset => simp [tokensFrom]
  | case2 offset first rest leads ih =>
    rw [tokensFrom_skip _ leads, ← ih, Nat.add_right_comm]
  | case3 offset first rest lexeme after leads ih =>
    rw [tokensFrom_token _ leads, List.map_cons, ← ih, Nat.add_right_comm]
    rfl

/-! ## Places of tokens -/

/-- A lexeme takes at least one byte off the text. -/
theorem Lexeme.spelling_ne_nil_of_leading {first : UInt8} {rest after : Bytes} {lexeme : Lexeme}
    (leads : leading? first rest = some (lexeme, after)) : lexeme.spelling ≠ [] := by
  intro empty
  have length := congrArg List.length (spelling_append_of_leading leads)
  have shorter := length_after_le leads
  rw [empty, List.nil_append, List.length_cons] at length
  omega

/-- A token stands within the text that it was scanned from. -/
theorem tokensFrom_within {offset : Nat} {text : Bytes} {token : Token}
    (scanned : token ∈ tokensFrom offset text) :
    offset ≤ token.start ∧ token.start < token.stop ∧ token.stop ≤ offset + text.length := by
  fun_induction tokensFrom offset text with
  | case1 offset => simp at scanned
  | case2 offset first rest leads ih =>
    have within := ih scanned
    rw [List.length_cons]
    omega
  | case3 offset first rest lexeme after leads ih =>
    have length := congrArg List.length (Lexeme.spelling_append_of_leading leads)
    rw [List.length_append] at length
    rcases List.mem_cons.mp scanned with rfl | later
    · have positive := List.length_pos_iff.mpr (Lexeme.spelling_ne_nil_of_leading leads)
      simp only [Token.stop]
      omega
    · have within := ih later
      omega

/-- Tokens do not overlap: each one ends before the next one starts. -/
theorem tokensFrom_pairwise (offset : Nat) (text : Bytes) :
    (tokensFrom offset text).Pairwise (·.stop ≤ ·.start) := by
  fun_induction tokensFrom offset text with
  | case1 offset => exact .nil
  | case2 offset first rest leads ih => exact ih
  | case3 offset first rest lexeme after leads ih =>
    exact .cons (fun later scanned => (tokensFrom_within scanned).1) ih

theorem tokens_within {source : Bytes} {token : Token} (scanned : token ∈ tokens source) :
    token.start < token.stop ∧ token.stop ≤ source.length := by
  have within := tokensFrom_within scanned
  omega

theorem tokens_pairwise (source : Bytes) : (tokens source).Pairwise (·.stop ≤ ·.start) :=
  tokensFrom_pairwise 0 source

/-! ## Cutting a text in front of a token -/

section
variable {p : UInt8 → Bool} (rest : Bytes) (count : Nat)

private theorem takeWhile_cut :
    (rest.takeWhile p ++ (rest.dropWhile p).take count).takeWhile p = rest.takeWhile p := by
  induction rest with
  | nil => simp
  | cons byte rest ih =>
    cases holds : p byte with
    | true => simp [holds, ih]
    | false => cases count <;> simp [holds]

private theorem dropWhile_cut :
    (rest.takeWhile p ++ (rest.dropWhile p).take count).dropWhile p = (rest.dropWhile p).take count := by
  induction rest with
  | nil => simp
  | cons byte rest ih =>
    cases holds : p byte with
    | true => simp [holds, ih]
    | false => cases count <;> simp [holds]

end

/-- A lexeme is read the same way when the text behind it is cut off somewhere. -/
theorem Lexeme.leading_cut {first : UInt8} {rest after : Bytes} {lexeme : Lexeme}
    (leads : leading? first rest = some (lexeme, after)) (count : Nat) :
    ∃ body, rest = body ++ after ∧ lexeme.spelling = first :: body ∧
      leading? first (body ++ after.take count) = some (lexeme, after.take count) := by
  simp only [leading?] at leads
  split at leads
  · cases leads; exact ⟨[], by simp [spelling, leading?, *]⟩
  split at leads
  · cases leads; exact ⟨[], by simp [spelling, leading?, *]⟩
  split at leads
  · cases leads; exact ⟨[], by simp [spelling, leading?, *]⟩
  split at leads
  · cases leads; exact ⟨[], by simp [spelling, leading?, *]⟩
  split at leads
  · cases leads
    refine ⟨rest.takeWhile Byte.isWordByte, (List.takeWhile_append_dropWhile).symm, rfl, ?_⟩
    simp [leading?, takeWhile_cut, dropWhile_cut, *]
  split at leads
  · cases leads
    refine ⟨rest.takeWhile Byte.isDigit, (List.takeWhile_append_dropWhile).symm, rfl, ?_⟩
    simp [leading?, takeWhile_cut, dropWhile_cut, *]
  · cases leads

/-- The text in front of a token has the tokens in front of it. -/
theorem tokensFrom_take {offset : Nat} {text : Bytes} {before after : List Token} {token : Token}
    (scanned : tokensFrom offset text = before ++ token :: after) :
    tokensFrom offset (text.take (token.start - offset)) = before := by
  fun_induction tokensFrom offset text generalizing before with
  | case1 offset => simp at scanned
  | case2 offset first rest leads ih =>
    have within := tokensFrom_within (scanned ▸ List.mem_append_right _ List.mem_cons_self)
    have shorter : token.start - offset = token.start - (offset + 1) + 1 := by omega
    have skipped (other : Bytes) : Lexeme.leading? first other = none :=
      leading_eq_none_iff.mpr (leading_eq_none_iff.mp leads)
    rw [shorter, List.take_succ_cons, tokensFrom_skip _ (skipped _), ih scanned]
  | case3 offset first rest lexeme behind leads ih =>
    cases before with
    | nil =>
      obtain ⟨rfl, -⟩ := List.cons.inj scanned
      simp [tokensFrom]
    | cons head earlier =>
      obtain ⟨rfl, remaining⟩ := List.cons.inj scanned
      rw [List.append_eq] at remaining
      have within := tokensFrom_within (remaining ▸ List.mem_append_right _ List.mem_cons_self)
      obtain ⟨body, rfl, spelled, cut⟩ :=
        Lexeme.leading_cut leads (token.start - (offset + lexeme.spelling.length))
      have shorter : token.start - offset =
          (first :: body).length + (token.start - (offset + lexeme.spelling.length)) := by
        rw [← spelled]
        omega
      rw [← List.cons_append, shorter, List.take_length_add_append, List.cons_append,
        tokensFrom_token _ cut, ih remaining]

theorem tokens_take {source : Bytes} {before after : List Token} {token : Token}
    (scanned : tokens source = before ++ token :: after) : tokens (source.take token.start) = before := by
  have cut : tokensFrom 0 (source.take (token.start - 0)) = before := tokensFrom_take scanned
  exact cut

/-! ## Lexemes apart from their places -/

/-- The lexemes of a text, in order. -/
def lexemes (text : Bytes) : List Lexeme :=
  (tokens text).map Token.lexeme

theorem lexemes_nil : lexemes [] = [] := by
  simp [lexemes, tokens, tokensFrom]

/-- Where a text begins makes no difference to its lexemes. -/
theorem map_lexeme_tokensFrom (offset : Nat) (text : Bytes) :
    (tokensFrom offset text).map Token.lexeme = lexemes text := by
  rw [lexemes, tokens, ← Nat.zero_add offset, tokensFrom_shift, List.map_map]
  rfl

theorem lexemes_append {boundary : UInt8} (stops : Byte.isWordByte boundary = false)
    (text following : Bytes) :
    lexemes (text ++ boundary :: following) = lexemes text ++ lexemes (boundary :: following) := by
  simp only [lexemes, tokens, tokensFrom_append stops, List.map_append]
  rw [map_lexeme_tokensFrom, map_lexeme_tokensFrom, map_lexeme_tokensFrom]

theorem lexemes_skip {first : UInt8} {rest : Bytes} (leads : Lexeme.leading? first rest = none) :
    lexemes (first :: rest) = lexemes rest := by
  rw [lexemes, tokens, tokensFrom_skip _ leads, map_lexeme_tokensFrom]

theorem lexemes_token {first : UInt8} {rest after : Bytes} {lexeme : Lexeme}
    (leads : Lexeme.leading? first rest = some (lexeme, after)) :
    lexemes (first :: rest) = lexeme :: lexemes after := by
  rw [lexemes, tokens, tokensFrom_token _ leads, List.map_cons, map_lexeme_tokensFrom]

theorem Byte.isWordStart_of_isDigit {byte : UInt8} (digit : Byte.isDigit byte = true) :
    Byte.isWordStart byte = false := by
  simp only [Byte.isDigit, Bool.and_eq_true, decide_eq_true_eq, UInt8.le_iff_toNat_le] at digit
  simp only [Byte.isWordStart, Byte.isLetter, Bool.or_eq_false_iff, Bool.and_eq_false_iff,
    decide_eq_false_iff_not, UInt8.le_iff_toNat_le, beq_eq_false_iff_ne, ne_eq, ← UInt8.toNat_inj]
  simp only [UInt8.reduceToNat] at digit ⊢
  omega

/-- Digits by themselves are one numeral. -/
theorem lexemes_digits {digits : Bytes} (nonempty : digits ≠ [])
    (allDigits : ∀ byte ∈ digits, Byte.isDigit byte = true) : lexemes digits = [.numeral digits] := by
  cases digits with
  | nil => contradiction
  | cons first rest =>
    have firstDigit := allDigits first (by simp)
    have restDigits : ∀ byte ∈ rest, Byte.isDigit byte = true := fun byte member =>
      allDigits byte (List.mem_cons_of_mem _ member)
    have leads : Lexeme.leading? first rest = some (.numeral (first :: rest), []) := by
      have noSign (sign : UInt8) (other : Byte.isDigit sign = false) : first ≠ sign := by
        rintro rfl
        simp [firstDigit] at other
      simp only [Lexeme.leading?, noSign 0x28 (by decide), noSign 0x29 (by decide),
        noSign 0x2B (by decide), noSign 0x2D (by decide), Byte.isWordStart_of_isDigit firstDigit,
        firstDigit, List.takeWhile_eq_self_iff.mpr restDigits,
        List.dropWhile_eq_nil_iff.mpr restDigits, ↓reduceIte, Bool.false_eq_true]
    rw [lexemes_token leads, lexemes_nil]

end ArithAsm
