import ArithAsm.Proofs.Grammar
import ArithAsm.Proofs.Spacing

/-! The text of a program, scanned again: its lexemes are those of the leaves,
whatever separates the forms, and a literal is read back with its value. -/
namespace ArithAsm

/-! ## Bytes of decimal numbers -/

namespace Utf8

/-- A decimal digit is one byte, with the digit's code. -/
private theorem encode_digit {c : Char} (digit : c.isDigit = true) :
    ∃ byte, String.utf8EncodeChar c = [byte] ∧ byte.toNat = c.toNat ∧ Byte.isDigit byte = true := by
  have range : 48 ≤ c.toNat ∧ c.toNat ≤ 57 := by
    simpa [Char.isDigit, UInt32.le_iff_toNat_le] using digit
  have size : c.utf8Size = 1 := Char.utf8Size_eq_one_iff.mpr (by
    rw [UInt32.le_iff_toNat_le]
    exact Nat.le_trans range.2 (by decide))
  have code : c.val.toUInt8.toNat = c.toNat := by
    rw [UInt32.toNat_toUInt8]
    exact Nat.mod_eq_of_lt (Nat.lt_of_le_of_lt range.2 (by decide))
  refine ⟨c.val.toUInt8, String.utf8EncodeChar_eq_singleton size, code, ?_⟩
  simp only [Byte.isDigit, Bool.and_eq_true, decide_eq_true_eq, UInt8.le_iff_toNat_le, code]
  simpa using range

/-- Decimal digits are encoded as as many bytes with the same values. -/
private theorem encode_digits {digits : List Char} (allDigits : ∀ c ∈ digits, c.isDigit = true)
    (seen : Nat) :
    (∀ byte ∈ digits.flatMap String.utf8EncodeChar, Byte.isDigit byte = true) ∧
      (digits.flatMap String.utf8EncodeChar).foldl (fun n d => 10 * n + (d.toNat - 0x30)) seen =
        Nat.ofDigitChars 10 digits seen := by
  induction digits generalizing seen with
  | nil => simp
  | cons c rest ih =>
    obtain ⟨byte, encoded, code, digit⟩ := encode_digit (allDigits c (by simp))
    obtain ⟨restDigits, value⟩ := ih (fun c member => allDigits c (List.mem_cons_of_mem _ member))
      (10 * seen + (byte.toNat - 0x30))
    simp only [List.flatMap_cons, encoded, List.singleton_append, List.forall_mem_cons,
      List.foldl_cons, Nat.ofDigitChars_cons]
    exact ⟨⟨digit, restDigits⟩, by rw [value, code]; rfl⟩

private theorem toDigits_isDigit (n : Nat) : ∀ c ∈ Nat.toDigits 10 n, c.isDigit = true := fun _ member =>
  Nat.isDigit_of_mem_toDigits (by decide) (by decide) member

theorem encode_repr_isDigit (n : Nat) : ∀ byte ∈ encode n.repr, Byte.isDigit byte = true := by
  rw [encode, Nat.toList_repr]
  exact (encode_digits (toDigits_isDigit n) 0).1

theorem encode_repr_ne_nil (n : Nat) : encode n.repr ≠ [] := by
  rw [encode, Nat.toList_repr]
  intro empty
  obtain ⟨c, member⟩ := List.exists_mem_of_ne_nil _ (Nat.toDigits_ne_nil (n := n) (b := 10))
  obtain ⟨byte, encoded, _⟩ := encode_digit (toDigits_isDigit n c member)
  have none := List.flatMap_eq_nil_iff.mp empty c member
  simp [encoded] at none

/-- The decimal text of a number is read back as that number. -/
theorem decimalValue_encode_repr (n : Nat) : decimalValue (encode n.repr) = n := by
  rw [encode, Nat.toList_repr, decimalValue, (encode_digits (toDigits_isDigit n) 0).2]
  exact Nat.ofDigitChars_ten_toDigits

end Utf8

/-! ## Lexemes of a printed form -/

/-- The lexeme that a leaf is printed as. -/
def Leaf.lexeme : Leaf → Lexeme
  | openGroup _ => .openGroup
  | closeGroup _ => .closeGroup
  | dump => .word (Utf8.encode "dump")
  | operator sign => sign.lexeme
  | number literal _ => .numeral (Utf8.encode literal.text)

theorem lexemes_literal (literal : Literal) :
    lexemes (Utf8.encode literal.text) = [.numeral (Utf8.encode literal.text)] :=
  lexemes_digits (Utf8.encode_repr_ne_nil _) (Utf8.encode_repr_isDigit _)

/-- Operands behind a space each do not run into what stands in front of them. -/
private theorem lexemes_operandText (front : Bytes) (operands : List Literal) :
    lexemes (front ++ Utf8.encode (Literal.operandText operands)) =
      lexemes front ++ operands.map fun operand => .numeral (Utf8.encode operand.text) := by
  induction operands generalizing front with
  | nil => simp [Literal.operandText, Utf8.encode]
  | cons operand rest ih =>
    have printed : Utf8.encode (Literal.operandText (operand :: rest)) =
        0x20 :: (Utf8.encode operand.text ++ Utf8.encode (Literal.operandText rest)) := by
      simp [Literal.operandText, Utf8.encode_append]
      rfl
    rw [printed, lexemes_append_skipped (leading_blank _), ih, lexemes_literal, List.map_cons,
      List.singleton_append]

theorem Literal.operandLeaves_lexeme (operands : List Literal) :
    (operandLeaves operands).map Leaf.lexeme =
      operands.map fun operand => .numeral (Utf8.encode operand.text) := by
  induction operands with
  | nil => rfl
  | cons operand rest ih =>
    cases rest with
    | nil => rfl
    | cons next rest => simpa [operandLeaves, Leaf.lexeme] using ih

mutual

/-- A printed form has the lexemes of its leaves. -/
theorem lexemes_form : (form : Form) →
    lexemes (Utf8.encode form.text) = form.leaves.map Leaf.lexeme
  | .literal number => lexemes_literal number
  | .group span members => by
    have printed : Utf8.encode (Form.group span members).text =
        0x28 :: (Utf8.encode (" ".intercalate (Form.texts members)) ++ [0x29]) := by
      simp only [Form.text, Utf8.encode_append]
      rfl
    have opens (rest : Bytes) : Lexeme.leading? 0x28 rest = some (.openGroup, rest) := rfl
    have closes : Lexeme.leading? 0x29 [] = some (.closeGroup, []) := rfl
    rw [printed, lexemes_token (opens _), lexemes_append (by decide),
      lexemes_intercalate rfl leading_blank, lexemes_texts members, lexemes_token closes, lexemes_nil]
    simp [Form.leaves, Leaf.lexeme]
  | .dump argument => by
    have printed : Utf8.encode (Form.dump argument).text =
        Utf8.encode "dump" ++ 0x20 :: Utf8.encode argument.text := by
      simp only [Form.text, Utf8.encode_append]
      rfl
    have word : lexemes (Utf8.encode "dump") = [.word (Utf8.encode "dump")] := by decide +kernel
    rw [printed, lexemes_append_skipped (leading_blank _), word, lexemes_form argument]
    rfl
  | .add terms => by
    have printed : Utf8.encode (Form.add terms).text =
        [0x2B] ++ Utf8.encode (Literal.operandText terms) := by
      simp only [Form.text, Utf8.encode_append]
      rfl
    have plus : lexemes [0x2B] = [.plus] := (lexemes_token rfl).trans (by rw [lexemes_nil])
    rw [printed, lexemes_operandText, plus, ← Literal.operandLeaves_lexeme]
    rfl
  | .sub seed terms => by
    have printed : Utf8.encode (Form.sub seed terms).text =
        [0x2D] ++ Utf8.encode (Literal.operandText (seed :: terms)) := by
      simp only [Form.text, Literal.operandText, List.map_cons, String.join_cons, Utf8.encode_append,
        List.append_assoc]
      rfl
    have minus : lexemes [0x2D] = [.minus] := (lexemes_token rfl).trans (by rw [lexemes_nil])
    rw [printed, lexemes_operandText, minus, ← Literal.operandLeaves_lexeme]
    rfl

/-- Printed forms have the lexemes of their leaves. -/
theorem lexemes_texts : (forms : List Form) →
    ((Form.texts forms).flatMap fun text => lexemes (Utf8.encode text)) =
      (Program.leaves forms).map Leaf.lexeme
  | [] => rfl
  | form :: rest => by
    simp only [Form.texts, List.flatMap_cons, lexemes_form form, lexemes_texts rest, Program.leaves,
      List.map_append]

end

/-- A printed program has the lexemes of its leaves. -/
theorem lexemes_program (program : Program) :
    lexemes (Utf8.encode program.text) = program.leaves.map Leaf.lexeme := by
  have newline (rest : Bytes) : Lexeme.leading? 0x0A rest = none :=
    leading_eq_none_iff.mpr (by decide)
  rw [Program.text, lexemes_intercalate rfl newline, lexemes_texts]

end ArithAsm
