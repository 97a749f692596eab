import ArithAsm.Proofs.LossyText
import ArithAsm.Simulation

/-! The value of a simulation is settled behind the last delimiter that has anything but delimiters
behind it. Pieces are cut from decoded text, but the rule can be told from the bytes alone: the
delimiters are ASCII, so decoding neither makes one out of other bytes nor loses one, whatever
broken sequences stand beside it. -/
namespace ArithAsm.Simulation

open Utf8 (asciiChar lossyChars)

variable {byte delimiter : UInt8} {c : Char} {text : List Char}

/-- The bytes between which pieces stand: the parentheses and the space. -/
def delimiterBytes : Bytes :=
  [0x28, 0x29, 0x20]

/-! ## Pieces of a text -/

/-- Pieces behind a delimiter come after the pieces before it. -/
theorem lastPiece?_append (delimits : isDelimiter c = true) (before after : List Char) :
    lastPiece? (before ++ c :: after) = (lastPiece? after).or (lastPiece? before) := by
  rw [lastPiece?, List.splitOnP_append_cons before after delimits, List.filter_append,
    List.getLast?_append]
  rfl

theorem lastPiece?_cons (delimits : isDelimiter c = true) (text : List Char) :
    lastPiece? (c :: text) = lastPiece? text := by
  have empty : lastPiece? [] = none := by simp [lastPiece?]
  have behind := lastPiece?_append delimits [] text
  rwa [empty, Option.or_none] at behind

/-- Anything but a delimiter makes a piece. -/
theorem lastPiece?_cons_ne_none (piece : isDelimiter c = false) (text : List Char) :
    lastPiece? (c :: text) ≠ none := by
  obtain ⟨first, others, cut⟩ := List.exists_cons_of_ne_nil (List.splitOnP_ne_nil isDelimiter text)
  simp [lastPiece?, List.splitOnP_cons_eq_if_modifyHead, piece, cut]

theorem lastPiece?_eq_none_iff : lastPiece? text = none ↔ ∀ c ∈ text, isDelimiter c = true := by
  induction text with
  | nil => simp [lastPiece?]
  | cons c text ih =>
    cases delimits : isDelimiter c with
    | true => simp [lastPiece?_cons delimits, ih, delimits]
    | false => simp [lastPiece?_cons_ne_none delimits, delimits]

/-! ## Delimiters among bytes -/

theorem delimiterBytes_ascii (delimits : byte ∈ delimiterBytes) : byte ≤ 0x7F := by
  simp only [delimiterBytes, List.mem_cons, List.not_mem_nil, or_false] at delimits
  rcases delimits with rfl | rfl | rfl <;> decide

theorem isDelimiter_iff :
    isDelimiter c = true ↔ c.toNat = 0x28 ∨ c.toNat = 0x29 ∨ c.toNat = 0x20 := by
  simp only [isDelimiter, Bool.or_eq_true, beq_iff_eq, or_assoc, ← Char.toNat_inj]
  rfl

theorem isDelimiter_asciiChar (ascii : byte ≤ 0x7F) :
    isDelimiter (asciiChar byte) = true ↔ byte ∈ delimiterBytes := by
  simp [isDelimiter_iff, Utf8.asciiChar_toNat ascii, delimiterBytes, ← UInt8.toNat_inj]

theorem isDelimiter_beyond (beyond : 0x80 ≤ c.toNat) : isDelimiter c = false := by
  rw [Bool.eq_false_iff, ne_eq, isDelimiter_iff]
  omega

/-- The decoded text is all delimiters when the bytes are, and only then. -/
theorem lossyChars_delimiters {bytes : Bytes} :
    (∀ c ∈ lossyChars bytes, isDelimiter c = true) ↔ ∀ byte ∈ bytes, byte ∈ delimiterBytes := by
  induction bytes with
  | nil => simp [lossyChars, Utf8.pieces]
  | cons byte rest ih =>
    by_cases ascii : byte ≤ 0x7F
    · rw [Utf8.lossyChars_ascii ascii, List.forall_mem_cons, List.forall_mem_cons,
        isDelimiter_asciiChar ascii, ih]
    · obtain ⟨c, others, chars, large⟩ := Utf8.lossyChars_beyond (UInt8.not_le.mp ascii) rest
      rw [chars, List.forall_mem_cons, List.forall_mem_cons, isDelimiter_beyond large]
      have other : byte ∉ delimiterBytes := fun delimits => ascii (delimiterBytes_ascii delimits)
      simp [other]

/-! ## Sources -/

/-- A delimiter parts a source in two. The part behind it settles the value if there is anything
but delimiters in it, else the part in front does. The text is that of the parts, and the length
is counted in bytes, not in the characters shown. -/
theorem simulation_sees_last_piece (delimits : delimiter ∈ delimiterBytes) (before after : Bytes) :
    let whole := of (before ++ [delimiter] ++ after)
    ((∃ byte ∈ after, byte ∉ delimiterBytes) → whole.value = (of after).value) ∧
      ((∀ byte ∈ after, byte ∈ delimiterBytes) → whole.value = (of before).value) ∧
      whole.text = (of before).text ++ String.singleton (asciiChar delimiter) ++ (of after).text ∧
      whole.length = before.length + 1 + after.length := by
  have ascii := delimiterBytes_ascii delimits
  have last : lastPiece? (lossyChars (before ++ delimiter :: after)) =
      (lastPiece? (lossyChars after)).or (lastPiece? (lossyChars before)) := by
    rw [Utf8.lossyChars_append_ascii ascii]
    exact lastPiece?_append ((isDelimiter_asciiChar ascii).mpr delimits) _ _
  rw [List.append_assoc, List.singleton_append]
  refine ⟨?_, ?_, Utf8.lossy_append_ascii ascii before after, ?_⟩
  · rintro ⟨byte, member, other⟩
    have found : lastPiece? (lossyChars after) ≠ none := fun none =>
      other (lossyChars_delimiters.mp (lastPiece?_eq_none_iff.mp none) byte member)
    simp only [of, last, Option.or_of_isSome (Option.isSome_iff_ne_none.mpr found)]
  · intro delimiters
    have nothing := lastPiece?_eq_none_iff.mpr (lossyChars_delimiters.mpr delimiters)
    simp only [of, last, nothing, Option.none_or]
  · simp only [of, List.length_append, List.length_cons]
    omega

/-- The broken sequence in front of the space neither swallows it nor reaches the value. -/
theorem value_behind_broken_sequence :
    0x20 ∈ delimiterBytes ∧ (of ([0x31, 0xE2, 0x82] ++ [0x20] ++ [0x34, 0x32])).value = 42 := by
  have space : 0x20 ∈ delimiterBytes := by decide
  obtain ⟨behind, -⟩ := simulation_sees_last_piece space [0x31, 0xE2, 0x82] [0x34, 0x32]
  refine ⟨space, (behind ⟨0x34, by decide, by decide⟩).trans ?_⟩
  decide +kernel

end ArithAsm.Simulation
