import ArithAsm.Proofs.Tokenization
import Mathlib.Data.List.Basic

/-! What stands between tokens. A byte that begins no token parts any text in two that are scanned
apart, and no other byte always does. So the texts of the tokens of a source can be written anew
with nothing but blanks between them, and the scan finds the same tokens again. -/
namespace ArithAsm

/-- The texts in a row, a blank between each two. -/
def spaced (texts : List String) : Bytes :=
  Utf8.encode (" ".intercalate texts)

/-! ## A byte that begins no token -/

/-- A byte has no token by itself exactly if it is one that begins none. -/
theorem tokens_singleton_eq_nil_iff {byte : UInt8} :
    tokens [byte] = [] ↔ Byte.startsToken byte = false := by
  have alone : Lexeme.leading? byte [] = none ↔ Byte.startsToken byte = false :=
    leading_eq_none_iff_startsToken
  rw [← alone, tokens]
  cases leads : Lexeme.leading? byte [] with
  | none => simp [tokensFrom_skip 0 leads, tokensFrom]
  | some found => simp [tokensFrom_token 0 leads]

/-- A byte that is no token by itself begins none either. -/
theorem leading_of_skipped {skipped : UInt8} (skips : tokens [skipped] = []) (rest : Bytes) :
    Lexeme.leading? skipped rest = none :=
  leading_eq_none_iff_startsToken.mpr (tokens_singleton_eq_nil_iff.mp skips)

/-- The tokens of two sources, the second one further on. -/
theorem tokens_append_skipped {skipped : UInt8} (skips : tokens [skipped] = []) (first second : Bytes) :
    tokens (first ++ skipped :: second) =
      tokens first ++ (tokens second).map (·.shift (first.length + 1)) := by
  rw [tokens, tokensFrom_append_skipped (leading_of_skipped skips second), Nat.zero_add]
  rw [tokens, tokens, ← tokensFrom_shift, Nat.zero_add]

theorem Token.stop_shift (token : Token) (distance : Nat) :
    (token.shift distance).stop = token.stop + distance :=
  Nat.add_right_comm _ _ _

theorem Token.span_shift (token : Token) (distance : Nat) :
    (token.shift distance).span = token.span.shift distance := by
  rw [span, stop_shift]
  rfl

/-- The bytes that part every text around them are those that begin no token. -/
theorem parts_every_text_iff {byte : UInt8} : Byte.startsToken byte = false ↔
    ∀ first second : Bytes, tokens (first ++ [byte] ++ second) =
      tokens first ++ (tokens second).map (·.shift (first.length + 1)) := by
  rw [← tokens_singleton_eq_nil_iff]
  constructor
  · intro skips first second
    rw [List.append_assoc, List.singleton_append, tokens_append_skipped skips]
  · intro parts
    -- With nothing around it the byte has the tokens of two empty texts.
    have alone := parts [] []
    simpa [tokens, tokensFrom] using alone

/-! ## Texts with blanks between them -/

theorem lexemes_append_skipped {skipped : UInt8} {following : Bytes}
    (skips : Lexeme.leading? skipped following = none) (text : Bytes) :
    lexemes (text ++ skipped :: following) = lexemes text ++ lexemes following := by
  rw [lexemes_append (leading_eq_none_iff.mp skips).2.2.2.2, lexemes_skip skips]

/-- Texts with a skipped byte between them keep their lexemes. -/
theorem lexemes_intercalate {separator : String} {byte : UInt8}
    (single : Utf8.encode separator = [byte]) (skips : ∀ rest, Lexeme.leading? byte rest = none)
    (texts : List String) :
    lexemes (Utf8.encode (separator.intercalate texts)) =
      texts.flatMap fun text => lexemes (Utf8.encode text) := by
  induction texts with
  | nil => simpa [Utf8.encode] using lexemes_nil
  | cons text rest ih =>
    cases rest with
    | nil => simp
    | cons next rest =>
      rw [String.intercalate_cons_cons, Utf8.encode_append, Utf8.encode_append, single,
        List.append_assoc, List.singleton_append, lexemes_append_skipped (skips _), ih]
      rfl

namespace Lexeme
variable {lexeme : Lexeme} {behind : Bytes}

/-- A lexeme that is read in front of something is read from its spelling alone. -/
theorem Leads.tokens_spelling (leads : lexeme.Leads behind) : tokens lexeme.spelling = [⟨lexeme, 0⟩] := by
  have alone := (leads.take 0).tokensFrom 0
  rwa [List.take_zero, List.append_nil, ArithAsm.tokensFrom] at alone

theorem Leads.lexemes_text (leads : lexeme.Leads behind) :
    lexemes (Utf8.encode lexeme.text) = [lexeme] := by
  have alone := leads.tokens_spelling
  have scanned : ⟨lexeme, 0⟩ ∈ tokens lexeme.spelling := by simp [alone]
  rw [encode_text_of_scanned scanned, lexemes, alone]
  rfl

end Lexeme

/-- Written with blanks between them, lexemes do not run together. -/
theorem lexemes_spaced {list : List Lexeme} (each : ∀ lexeme ∈ list, lexeme.Leads []) :
    lexemes (spaced (list.map Lexeme.text)) = list := by
  calc lexemes (spaced (list.map Lexeme.text))
      = (list.map Lexeme.text).flatMap fun text => lexemes (Utf8.encode text) :=
        lexemes_intercalate rfl leading_blank _
    _ = list.flatMap fun lexeme => lexemes (Utf8.encode lexeme.text) := List.flatMap_map _ _ _
    _ = list.flatMap fun lexeme => [lexeme] :=
        List.flatMap_congr fun lexeme member => (each lexeme member).lexemes_text
    _ = list := List.flatMap_singleton' list

/-! ## The tokens of a source, written anew -/

/-- What is scanned among other tokens is also read where nothing follows it. -/
theorem leads_of_mem_lexemes {source : Bytes} {lexeme : Lexeme} (scanned : lexeme ∈ lexemes source) :
    lexeme.Leads [] := by
  obtain ⟨token, member, rfl⟩ := List.mem_map.mp scanned
  obtain ⟨before, after, split⟩ := List.append_of_mem member
  obtain ⟨front, behind, -, -, leads, -⟩ := tokensFrom_split split
  exact leads.take 0

/-- The texts that the tokens are read from are those of the lexemes. -/
theorem texts_of_tokens (source : Bytes) :
    (tokens source).map (·.span.text? source) = ((lexemes source).map Lexeme.text).map some := by
  rw [lexemes, List.map_map, List.map_map]
  exact List.map_congr_left fun token scanned => text_of_scanned scanned

/-- Scanning splits at every byte that begins no token, and at no other in all surroundings: the
tokens in front of it stay, and those behind it are found further on, their spans with them. So the
texts of the tokens of a source, with blanks between them, have the same tokens with the same texts. -/
theorem scanning_splits_at_skipped_bytes :
    (∀ byte : UInt8, Byte.startsToken byte = false ↔
      ∀ first second : Bytes, tokens (first ++ [byte] ++ second) =
        tokens first ++ (tokens second).map (·.shift (first.length + 1))) ∧
    (∀ (token : Token) (distance : Nat), (token.shift distance).lexeme = token.lexeme ∧
      (token.shift distance).span = token.span.shift distance) ∧
    ∀ source : Bytes, ∃ texts : List String,
      (tokens source).map (·.span.text? source) = texts.map some ∧
      lexemes (spaced texts) = lexemes source ∧
      (tokens (spaced texts)).map (·.span.text? (spaced texts)) = texts.map some := by
  refine ⟨fun byte => parts_every_text_iff, fun token distance => ⟨rfl, token.span_shift distance⟩, ?_⟩
  intro source
  have same : lexemes (spaced ((lexemes source).map Lexeme.text)) = lexemes source :=
    lexemes_spaced fun lexeme scanned => leads_of_mem_lexemes scanned
  refine ⟨(lexemes source).map Lexeme.text, texts_of_tokens source, same, ?_⟩
  rw [texts_of_tokens, same]

end ArithAsm
