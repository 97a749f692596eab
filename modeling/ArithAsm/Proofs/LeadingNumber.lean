import ArithAsm.Proofs.LastPiece
import Mathlib.Algebra.Group.Int.Defs

/-! The number that a simulation finds. It is written at the front of the last piece of the text:
after blanks and at most one sign stand decimal digits, and all that follow one another count. The
value is that number if it is a signed 64-bit number, however many zeros it begins with; in every
other case it is zero. -/
namespace ArithAsm.Simulation

open Utf8 (asciiChar lossyChars)

/-! ## The last piece -/

/-- The piece is the last one of the text: it holds something and no delimiter, it begins behind a
delimiter or with the text, and there are only delimiters behind it. -/
structure IsLastPiece (text piece : List Char) : Prop where
  nonempty : piece ≠ []
  solid : ∀ c ∈ piece, isDelimiter c = false
  place : ∃ before after, text = before ++ piece ++ after ∧
    (∀ c ∈ before.getLast?, isDelimiter c = true) ∧ ∀ c ∈ after, isDelimiter c = true

/-- Dropping stops in front of a character that is not to be dropped. -/
theorem not_of_mem_head?_dropWhile {p : Char → Bool} {text : List Char} {c : Char}
    (next : c ∈ (text.dropWhile p).head?) : p c = false := by
  have stopped := List.head?_dropWhile_not p text
  rw [Option.mem_def.mp next] at stopped
  simpa using stopped

/-- Seen from its end, a text of anything but delimiters has delimiters or none, and then its last
piece. -/
theorem exists_isLastPiece {text : List Char} (holds : ∃ c ∈ text, isDelimiter c = false) :
    ∃ piece, IsLastPiece text piece := by
  let after := text.reverse.takeWhile isDelimiter
  let onwards := text.reverse.dropWhile isDelimiter
  let piece := onwards.takeWhile (! isDelimiter ·)
  let before := onwards.dropWhile (! isDelimiter ·)
  have whole : text.reverse = after ++ (piece ++ before) := by
    rw [List.takeWhile_append_dropWhile, List.takeWhile_append_dropWhile]
  obtain ⟨c, others, shape⟩ : ∃ c others, onwards = c :: others := by
    apply List.exists_cons_of_ne_nil
    intro none
    obtain ⟨c, member, other⟩ := holds
    have delimits := List.dropWhile_eq_nil_iff.mp none c (List.mem_reverse.mpr member)
    rw [other] at delimits
    cases delimits
  have first : isDelimiter c = false :=
    not_of_mem_head?_dropWhile (show c ∈ onwards.head? by rw [shape, List.head?_cons]; rfl)
  refine ⟨piece.reverse, ?_, ?_, before.reverse, after.reverse, ?_, ?_, ?_⟩
  · simp [piece, shape, first]
  · intro c member
    simpa using List.mem_takeWhile_imp (List.mem_reverse.mp member)
  · rw [List.append_assoc, ← List.reverse_append, ← List.reverse_append, List.append_assoc, ← whole,
      List.reverse_reverse]
  · intro c last
    rw [List.getLast?_reverse] at last
    simpa using not_of_mem_head?_dropWhile last
  · intro c member
    exact List.mem_takeWhile_imp (List.mem_reverse.mp member)

/-- Delimiters at the end add no piece. -/
theorem lastPiece?_append_delimiters {after : List Char}
    (delimiters : ∀ c ∈ after, isDelimiter c = true) (text : List Char) :
    lastPiece? (text ++ after) = lastPiece? text := by
  cases after with
  | nil => rw [List.append_nil]
  | cons c after =>
    obtain ⟨delimits, others⟩ := List.forall_mem_cons.mp delimiters
    rw [lastPiece?_append delimits, lastPiece?_eq_none_iff.mpr others, Option.none_or]

theorem lastPiece?_of_isLastPiece {text piece : List Char} (last : IsLastPiece text piece) :
    lastPiece? text = some piece := by
  obtain ⟨nonempty, solid, before, after, rfl, begins, ends⟩ := last
  have alone : lastPiece? piece = some piece := by
    simp [lastPiece?, List.splitOnP_eq_singleton solid, nonempty]
  rw [lastPiece?_append_delimiters ends]
  rcases List.eq_nil_or_concat before with rfl | ⟨front, c, rfl⟩
  · rw [List.nil_append, alone]
  · rw [List.concat_eq_append] at begins ⊢
    have delimits := begins c (by simp)
    rw [List.append_assoc, List.singleton_append, lastPiece?_append delimits, alone, Option.some_or]

theorem lastPiece?_eq_some_iff {text piece : List Char} :
    lastPiece? text = some piece ↔ IsLastPiece text piece := by
  refine ⟨fun found => ?_, lastPiece?_of_isLastPiece⟩
  have holds : ∃ c ∈ text, isDelimiter c = false := by
    by_contra none
    have delimiters : ∀ c ∈ text, isDelimiter c = true := by simpa using none
    rw [lastPiece?_eq_none_iff.mpr delimiters] at found
    cases found
  obtain ⟨other, last⟩ := exists_isLastPiece holds
  rwa [Option.some.inj (found.symm.trans (lastPiece?_of_isLastPiece last))]

/-! ## The number in front -/

/-- The number that decimal digits write. Each counts by its place. -/
def decimal : List Char → Nat
  | [] => 0
  | c :: rest => (c.toNat - '0'.toNat) * 10 ^ rest.length + decimal rest

/-- The ways to sign a number, and the factor that each stands for. -/
def signs : List (List Char × Int) :=
  [([], 1), (['+'], 1), (['-'], -1)]

/-- The piece begins with a number: blanks or none, a sign or none, and digits up to something that
is no digit. -/
structure BeginsWith (piece : List Char) (factor : Int) (digits : List Char) : Prop where
  nonempty : digits ≠ []
  allDigits : ∀ c ∈ digits, c.isDigit = true
  place : ∃ blanks sign rest, piece = blanks ++ sign ++ digits ++ rest ∧
    (∀ c ∈ blanks, Text.isBlank c = true) ∧ (sign, factor) ∈ signs ∧
    ∀ c ∈ rest.head?, c.isDigit = false

theorem ofDigitChars_eq_decimal (digits : List Char) (seen : Nat) :
    Nat.ofDigitChars 10 digits seen = seen * 10 ^ digits.length + decimal digits := by
  induction digits generalizing seen with
  | nil => simp [decimal]
  | cons c rest ih =>
    rw [Nat.ofDigitChars_cons, ih, decimal, List.length_cons, Nat.pow_succ', Nat.add_mul,
      Nat.mul_comm 10 seen, Nat.mul_assoc, Nat.add_assoc]

/-- A number is kept as it is if it is a signed 64-bit number, and else is dropped. -/
theorem orZero_eq (n : Int) : orZero n = if -2 ^ 63 ≤ n ∧ n ≤ 2 ^ 63 - 1 then n else 0 := rfl

theorem leadingInteger_eq {piece : List Char} {factor : Int} {rest : List Char}
    (signed : splitSign (piece.dropWhile Text.isBlank) = (factor, rest)) :
    leadingInteger piece = orZero (factor * decimal (rest.takeWhile Char.isDigit)) := by
  simp only [leadingInteger, signed, ofDigitChars_eq_decimal, Nat.zero_mul, Nat.zero_add]

theorem range_of_isDigit {c : Char} (digit : c.isDigit = true) : 48 ≤ c.toNat ∧ c.toNat ≤ 57 := by
  simpa [Char.isDigit, UInt32.le_iff_toNat_le] using digit

theorem ne_of_isDigit {c other : Char} (digit : c.isDigit = true) (no : other.isDigit = false) :
    c ≠ other := by
  rintro rfl
  rw [digit] at no
  cases no

theorem isBlank_of_isDigit {c : Char} (digit : c.isDigit = true) : Text.isBlank c = false := by
  have range := range_of_isDigit digit
  simp only [Text.isBlank, Bool.or_eq_false_iff, Bool.and_eq_false_iff, decide_eq_false_iff_not,
    beq_eq_false_iff_ne]
  omega

theorem signs_cases {sign : List Char} {factor : Int} (signed : (sign, factor) ∈ signs) :
    sign = [] ∧ factor = 1 ∨ sign = ['+'] ∧ factor = 1 ∨ sign = ['-'] ∧ factor = -1 := by
  simpa [signs] using signed

section
variable {c : Char} {rest : List Char} (digit : c.isDigit = true)
include digit

/-- Neither a sign nor a digit is a blank. -/
theorem dropWhile_signed {sign : List Char} {factor : Int} (signed : (sign, factor) ∈ signs) :
    (sign ++ c :: rest).dropWhile Text.isBlank = sign ++ c :: rest := by
  rcases signs_cases signed with ⟨rfl, -⟩ | ⟨rfl, -⟩ | ⟨rfl, -⟩
  · simp [isBlank_of_isDigit digit]
  · rfl
  · rfl

theorem splitSign_signed {sign : List Char} {factor : Int} (signed : (sign, factor) ∈ signs) :
    splitSign (sign ++ c :: rest) = (factor, c :: rest) := by
  rcases signs_cases signed with ⟨rfl, rfl⟩ | ⟨rfl, rfl⟩ | ⟨rfl, rfl⟩
  · have plus : c ≠ '+' := ne_of_isDigit digit (by decide)
    have minus : c ≠ '-' := ne_of_isDigit digit (by decide)
    simp [splitSign, plus, minus]
  · rfl
  · rfl

end

/-- A number in front is read with its sign and all of its digits. -/
theorem leadingInteger_of_beginsWith {piece digits : List Char} {factor : Int}
    (begins : BeginsWith piece factor digits) :
    leadingInteger piece = orZero (factor * decimal digits) := by
  obtain ⟨nonempty, allDigits, blanks, sign, rest, rfl, blank, signed, stops⟩ := begins
  obtain ⟨c, others, rfl⟩ := List.exists_cons_of_ne_nil nonempty
  have digit := allDigits c List.mem_cons_self
  have front : (blanks ++ sign ++ c :: others ++ rest).dropWhile Text.isBlank =
      sign ++ c :: (others ++ rest) := by
    rw [List.append_assoc, List.append_assoc, List.dropWhile_append_of_pos blank, List.cons_append,
      dropWhile_signed digit signed]
  have taken : (c :: (others ++ rest)).takeWhile Char.isDigit = c :: others := by
    have none : rest.takeWhile Char.isDigit = [] := by
      cases rest with
      | nil => rfl
      | cons next rest => simp [stops next rfl]
    rw [← List.cons_append, List.takeWhile_append_of_pos allDigits, none, List.append_nil]
  rw [leadingInteger_eq (front ▸ splitSign_signed digit signed), taken]

theorem splitSign_cases (text : List Char) :
    ∃ sign factor rest, (sign, factor) ∈ signs ∧ text = sign ++ rest ∧ splitSign text = (factor, rest) := by
  unfold splitSign
  split
  · exact ⟨['+'], 1, _, by decide, rfl, rfl⟩
  · exact ⟨['-'], -1, _, by decide, rfl, rfl⟩
  · exact ⟨[], 1, _, by decide, rfl, rfl⟩

/-- Where no number is in front there is nothing to read. -/
theorem leadingInteger_of_none {piece : List Char}
    (none : ∀ factor digits, ¬ BeginsWith piece factor digits) : leadingInteger piece = 0 := by
  obtain ⟨sign, factor, rest, signed, shape, split⟩ := splitSign_cases (piece.dropWhile Text.isBlank)
  have missing : rest.takeWhile Char.isDigit = [] := by
    by_contra digits
    -- With a digit there, what the reading takes apart is a number in front after all.
    refine none factor _ ⟨digits, fun c => List.mem_takeWhile_imp, piece.takeWhile Text.isBlank, sign,
      rest.dropWhile Char.isDigit, ?_, fun c => List.mem_takeWhile_imp, signed, fun c next => ?_⟩
    · rw [List.append_assoc, List.takeWhile_append_dropWhile, List.append_assoc, ← shape,
        List.takeWhile_append_dropWhile]
    · exact not_of_mem_head?_dropWhile next
  rw [leadingInteger_eq split, missing, decimal]
  simp [orZero]

/-! ## Numbers in decimal -/

theorem decimal_toDigits (n : Nat) : decimal (Nat.toDigits 10 n) = n := by
  have value := ofDigitChars_eq_decimal (Nat.toDigits 10 n) 0
  rwa [Nat.ofDigitChars_toDigits (by decide) (by decide), Nat.zero_mul, Nat.zero_add, eq_comm] at value

/-- A number in decimal is a sign, if it is below zero, and its digits. -/
theorem toString_int (n : Int) : ∃ sign factor digits, (toString n).toList = sign ++ digits ∧
    (sign, factor) ∈ signs ∧ digits ≠ [] ∧ (∀ c ∈ digits, c.isDigit = true) ∧
      factor * decimal digits = n := by
  have allDigits (m : Nat) : ∀ c ∈ Nat.toDigits 10 m, c.isDigit = true := fun c member =>
    Nat.isDigit_of_mem_toDigits (by decide) (by decide) member
  cases n with
  | ofNat m =>
    refine ⟨[], 1, Nat.toDigits 10 m, ?_, by decide, Nat.toDigits_ne_nil, allDigits m, ?_⟩
    · show (toString m).toList = Nat.toDigits 10 m
      rw [Nat.toString_eq_repr, Nat.toList_repr]
    · rw [decimal_toDigits, Int.one_mul]
      rfl
  | negSucc m =>
    refine ⟨['-'], -1, Nat.toDigits 10 (m + 1), ?_, by decide, Nat.toDigits_ne_nil,
      allDigits (m + 1), ?_⟩
    · show ("-" ++ toString (m + 1)).toList = '-' :: Nat.toDigits 10 (m + 1)
      rw [String.toList_append, Nat.toString_eq_repr, Nat.toList_repr]
      rfl
    · rw [decimal_toDigits]
      omega

/-- Signs and digits are ASCII and split nothing. -/
theorem plain_of_signed {sign digits : List Char} {factor : Int} (signed : (sign, factor) ∈ signs)
    (allDigits : ∀ c ∈ digits, c.isDigit = true) :
    ∀ c ∈ sign ++ digits, c.toNat ≤ 0x7F ∧ isDelimiter c = false := by
  intro c member
  rcases List.mem_append.mp member with early | late
  · rcases signs_cases signed with ⟨rfl, -⟩ | ⟨rfl, -⟩ | ⟨rfl, -⟩
    · cases early
    · obtain rfl := List.mem_singleton.mp early
      decide
    · obtain rfl := List.mem_singleton.mp early
      decide
  · have range := range_of_isDigit (allDigits c late)
    rw [Bool.eq_false_iff, ne_eq, isDelimiter_iff]
    omega

/-- ASCII text is decoded as it was written, whatever stands behind it. -/
theorem lossyChars_encode_append {text : String} (ascii : ∀ c ∈ text.toList, c.toNat ≤ 0x7F)
    (rest : Bytes) : lossyChars (Utf8.encode text ++ rest) = text.toList ++ lossyChars rest := by
  rw [Utf8.encode]
  generalize text.toList = chars at ascii
  induction chars with
  | nil => rfl
  | cons c chars ih =>
    obtain ⟨first, others⟩ := List.forall_mem_cons.mp ascii
    have code : (UInt8.ofNat c.toNat).toNat = c.toNat := UInt8.toNat_ofNat_of_lt' (by
      show c.toNat < 256
      omega)
    have small : UInt8.ofNat c.toNat ≤ 0x7F := by
      rw [UInt8.le_iff_toNat_le, code]
      exact first
    have same : asciiChar (UInt8.ofNat c.toNat) = c := by rw [asciiChar, code, Char.ofNat_toNat]
    have encoded := Utf8.encode_asciiChar small
    rw [same] at encoded
    rw [List.flatMap_cons, encoded, List.append_assoc, List.singleton_append,
      Utf8.lossyChars_ascii small, same, ih others, List.cons_append]

/-- Behind a space and in front of delimiters only, a number in decimal is the last piece. -/
theorem isLastPiece_toString (source : Bytes) (n : Int) {delimiters : Bytes}
    (delimits : ∀ byte ∈ delimiters, byte ∈ delimiterBytes) :
    IsLastPiece (lossyChars (source ++ [0x20] ++ Utf8.encode (toString n) ++ delimiters))
      (toString n).toList := by
  obtain ⟨sign, factor, digits, written, signed, nonempty, allDigits, -⟩ := toString_int n
  have plain := plain_of_signed signed allDigits
  rw [← written] at plain
  refine ⟨?_, fun c member => (plain c member).2, lossyChars source ++ [' '], lossyChars delimiters,
    ?_, ?_, lossyChars_delimiters.mpr delimits⟩
  · rw [written]
    simp [nonempty]
  · rw [List.append_assoc, List.append_assoc, List.singleton_append,
      Utf8.lossyChars_append_ascii (by decide),
      lossyChars_encode_append fun c member => (plain c member).1, List.append_assoc,
      List.append_assoc, List.singleton_append]
    rfl
  · simp [isDelimiter]

/-! ## Sources -/

/-- The value of a simulation is the number that its last piece begins with if that is a signed
64-bit number, and zero if it is not or if there is none. Any such number is read back from its
decimal text, which may have anything in front of a space and delimiters behind it. -/
theorem simulated_number_is_exact_or_zero (source : Bytes) :
    (∀ piece factor digits, IsLastPiece (lossyChars source) piece → BeginsWith piece factor digits →
      (of source).value =
        if -2 ^ 63 ≤ factor * decimal digits ∧ factor * decimal digits ≤ 2 ^ 63 - 1 then
          factor * decimal digits
        else 0) ∧
    ((∀ piece factor digits, IsLastPiece (lossyChars source) piece →
      ¬ BeginsWith piece factor digits) → (of source).value = 0) ∧
    ∀ (number : Int64) (delimiters : Bytes), (∀ byte ∈ delimiters, byte ∈ delimiterBytes) →
      (of (source ++ [0x20] ++ Utf8.encode (toString number.toInt) ++ delimiters)).value =
        number.toInt := by
  have value {source : Bytes} {piece digits : List Char} {factor : Int}
      (last : IsLastPiece (lossyChars source) piece) (begins : BeginsWith piece factor digits) :
      (of source).value = orZero (factor * decimal digits) := by
    rw [of, lastPiece?_of_isLastPiece last, Option.map_some, Option.getD_some,
      leadingInteger_of_beginsWith begins]
  refine ⟨fun piece factor digits last begins => ?_, fun none => ?_, fun number delimiters delimits => ?_⟩
  · rw [value last begins, orZero_eq]
  · rw [of]
    cases found : lastPiece? (lossyChars source) with
    | none => rfl
    | some piece =>
      have last := lastPiece?_eq_some_iff.mp found
      exact leadingInteger_of_none fun factor digits => none piece factor digits last
  · obtain ⟨sign, factor, digits, written, signed, nonempty, allDigits, same⟩ :=
      toString_int number.toInt
    have begins : BeginsWith (toString number.toInt).toList factor digits :=
      ⟨nonempty, allDigits, [], sign, [], by rw [written, List.nil_append, List.append_nil], by simp,
        signed, by simp⟩
    rw [value (isLastPiece_toString source number.toInt delimits) begins, same, orZero,
      if_pos ⟨number.minValue_le_toInt, number.toInt_le⟩]

-- The smallest number is in range, and one less is not.
example : (of (Utf8.encode "1 (\t-0009223372036854775808x)")).value = -9223372036854775808 ∧
    (of (Utf8.encode "1 (\t-0009223372036854775809x)")).value = 0 := by
  decide +kernel

end ArithAsm.Simulation
