import ArithAsm.Proofs.Spelling
import Mathlib.Algebra.Group.Nat.Defs

/-! Decoding around ASCII bytes. An ASCII byte continues no sequence, so whatever stands in front
of it, broken or not, is decoded as if it stood alone, and so is what stands behind it. And an
ASCII character comes from its own byte only: longer sequences spell larger values. Bytes are a
text if none of their sequences is broken, and a text that is cut at an ASCII byte is two texts. -/
namespace ArithAsm.Utf8

variable {byte : UInt8} {lead : Lead} {low high : UInt8} {count : Nat}

/-! ## Sequences in front of an ASCII byte -/

theorem Lead.low_of_ofByte? (leads : ofByte? byte = some lead) : 0x80 ≤ lead.low := by
  unfold ofByte? at leads
  repeat' split at leads
  all_goals cases leads <;> decide

theorem length_continuation_le (count : Nat) (low high : UInt8) (rest : Bytes) :
    (continuation count low high rest).length ≤ rest.length := by
  fun_induction continuation count low high rest with
  | case1 count low high byte rest within ih => exact Nat.succ_le_succ ih
  | case2 => exact Nat.zero_le _
  | case3 => exact Nat.zero_le _

/-- An ASCII byte ends every sequence. -/
theorem continuation_append (ascii : byte ≤ 0x7F) (above : 0x80 ≤ low) (rest after : Bytes) :
    continuation count low high (rest ++ byte :: after) = continuation count low high rest := by
  induction rest generalizing count low high with
  | nil =>
    have below : ¬ low ≤ byte := fun reaches =>
      absurd (UInt8.le_trans above (UInt8.le_trans reaches ascii)) (by decide)
    cases count <;> simp [continuation, below]
  | cons first rest ih =>
    cases count with
    | zero => simp [continuation]
    | succ count =>
      simp only [List.cons_append, continuation, ih (show (0x80 : UInt8) ≤ 0x80 by decide)]

/-- What stands on the two sides of an ASCII byte is cut independently. -/
theorem pieces_append_ascii (ascii : byte ≤ 0x7F) (before after : Bytes) :
    pieces (before ++ byte :: after) = pieces before ++ .scalar (asciiChar byte) :: pieces after := by
  fun_induction pieces before with
  | case1 => rw [List.nil_append, pieces_ascii ascii, List.nil_append]
  | case2 first rest unled ih =>
    rw [List.cons_append, pieces]
    simp [unled, ih]
  | case3 first rest lead leads tail piece ih =>
    have same : continuation lead.following lead.low lead.high (rest ++ byte :: after) = tail :=
      continuation_append ascii (Lead.low_of_ofByte? leads) rest after
    have short : tail.length ≤ rest.length := length_continuation_le _ _ _ rest
    rw [List.cons_append, pieces]
    simp [leads, same, List.drop_append_of_le_length short, ih, piece]

theorem lossyChars_ascii (ascii : byte ≤ 0x7F) (rest : Bytes) :
    lossyChars (byte :: rest) = asciiChar byte :: lossyChars rest := by
  rw [lossyChars, pieces_ascii ascii, List.map_cons]
  rfl

theorem lossyChars_append_ascii (ascii : byte ≤ 0x7F) (before after : Bytes) :
    lossyChars (before ++ byte :: after) = lossyChars before ++ asciiChar byte :: lossyChars after := by
  rw [lossyChars, pieces_append_ascii ascii, List.map_append, List.map_cons]
  rfl

theorem lossy_append_ascii (ascii : byte ≤ 0x7F) (before after : Bytes) :
    lossy (before ++ byte :: after) =
      lossy before ++ String.singleton (asciiChar byte) ++ lossy after := by
  apply String.toList_inj.mp
  simp [lossy, lossyChars_append_ascii ascii]

/-! ## Sequences of several bytes -/

/-- A complete sequence goes on with a byte within the bounds. -/
theorem continuation_cons {rest : Bytes}
    (whole : (continuation (count + 1) low high rest).length = count + 1) :
    ∃ second later, low ≤ second ∧ second ≤ high ∧ later.length = count ∧
      continuation (count + 1) low high rest = second :: later := by
  cases rest with
  | nil => simp [continuation] at whole
  | cons second rest =>
    by_cases within : low ≤ second ∧ second ≤ high
    · simp only [continuation, if_pos within, List.length_cons, Nat.add_right_cancel_iff] at whole ⊢
      exact ⟨second, _, within.1, within.2, whole, rfl⟩
    · simp [continuation, if_neg within] at whole

theorem foldl_sixBits (bytes : Bytes) (n : Nat) :
    n * 0x40 ^ bytes.length ≤ bytes.foldl (fun n b => n * 0x40 + b.toNat % 0x40) n ∧
      bytes.foldl (fun n b => n * 0x40 + b.toNat % 0x40) n < (n + 1) * 0x40 ^ bytes.length := by
  induction bytes generalizing n with
  | nil => simp
  | cons byte bytes ih =>
    obtain ⟨above, below⟩ := ih (n * 0x40 + byte.toNat % 0x40)
    rw [List.foldl_cons, List.length_cons, Nat.pow_succ', ← Nat.mul_assoc, ← Nat.mul_assoc]
    exact ⟨Nat.le_trans (Nat.mul_le_mul_right _ (by omega)) above,
      Nat.lt_of_lt_of_le below (Nat.mul_le_mul_right _ (by omega))⟩

/-- The first two bytes of a sequence settle its value up to six bits for each of the others. -/
theorem scalarValue_cons (first second : UInt8) (later : Bytes) :
    let payload :=
      match later.length with
      | 0 => first.toNat % 0x20
      | 1 => first.toNat % 0x10
      | _ => first.toNat % 0x08
    let start := payload * 0x40 + second.toNat % 0x40
    start * 0x40 ^ later.length ≤ scalarValue first (second :: later) ∧
      scalarValue first (second :: later) < (start + 1) * 0x40 ^ later.length := by
  have bounds := foldl_sixBits later
  rcases size : later.length with _ | _ | count
  all_goals
    rw [size] at bounds
    simp only [scalarValue, List.length_cons, size, List.foldl_cons]
    exact bounds _

/-- A complete sequence that does not begin with an ASCII byte spells a character, and no ASCII
one. -/
theorem scalarValue_valid {rest : Bytes} (beyond : 0x7F < byte)
    (leads : Lead.ofByte? byte = some lead)
    (whole : (continuation lead.following lead.low lead.high rest).length = lead.following) :
    (scalarValue byte (continuation lead.following lead.low lead.high rest)).isValidChar ∧
      0x80 ≤ scalarValue byte (continuation lead.following lead.low lead.high rest) := by
  unfold Lead.ofByte? at leads
  rw [if_neg (UInt8.not_le.mpr beyond)] at leads
  repeat' split at leads
  all_goals cases leads
  -- In every row the bounds on the second byte keep out what is too small, a surrogate or too large.
  all_goals
    obtain ⟨second, later, above, below, size, shape⟩ := continuation_cons whole
    have settled := scalarValue_cons byte second later
    dsimp only at shape above below
    rw [shape]
    simp only [size, Nat.isValidChar, UInt8.le_iff_toNat_le, UInt8.lt_iff_toNat_lt, ← UInt8.toNat_inj,
      UInt8.reduceToNat] at *
    omega

/-- Whatever begins with a byte that is not ASCII, broken or not, begins with a character that is
not ASCII when it is decoded. -/
theorem lossyChars_beyond (beyond : 0x7F < byte) (rest : Bytes) :
    ∃ c others, lossyChars (byte :: rest) = c :: others ∧ 0x80 ≤ c.toNat := by
  have replacement (bytes : Bytes) : 0x80 ≤ (Piece.broken bytes).shown.toNat :=
    show 0x80 ≤ (Char.ofNat 0xFFFD).toNat by decide
  rw [lossyChars, pieces]
  split
  · exact ⟨_, _, rfl, replacement _⟩
  · rename_i lead leads
    dsimp only
    split
    · rename_i whole
      obtain ⟨valid, large⟩ := scalarValue_valid beyond leads whole
      refine ⟨_, _, rfl, ?_⟩
      rw [Piece.shown, Char.ofNat, dif_pos valid]
      exact large
    · exact ⟨_, _, rfl, replacement _⟩

/-! ## Texts -/

private theorem isSome_mapM_char (pieces : List Piece) :
    (pieces.mapM Piece.char?).isSome = pieces.all (·.char?.isSome) := by
  induction pieces with
  | nil => rfl
  | cons piece rest ih =>
    rw [List.mapM_cons, List.all_cons, ← ih]
    cases piece.char? <;> cases rest.mapM Piece.char? <;> rfl

theorem isText_eq (bytes : Bytes) : isText bytes = (pieces bytes).all (·.char?.isSome) := by
  rw [isText, decode?, Option.isSome_map, isSome_mapM_char]

/-- Bytes on the two sides of an ASCII byte are texts or not independently. -/
theorem isText_append_ascii (ascii : byte ≤ 0x7F) (before after : Bytes) :
    isText (before ++ byte :: after) = (isText before && isText after) := by
  simp only [isText_eq, pieces_append_ascii ascii, List.all_append, List.all_cons]
  rfl

theorem isText_cons_ascii (ascii : byte ≤ 0x7F) (rest : Bytes) : isText (byte :: rest) = isText rest := by
  have nothing : isText [] = true := by simp [isText_eq, pieces]
  simpa [nothing] using isText_append_ascii ascii [] rest

/-- What is left without ASCII bytes in front is still a text. -/
theorem isText_dropWhile_eq (ascii : byte ≤ 0x7F) {bytes : Bytes} (text : isText bytes = true) :
    isText (bytes.dropWhile (· == byte)) = true := by
  induction bytes with
  | nil => exact text
  | cons first rest ih =>
    by_cases same : first = byte
    · subst first
      rw [isText_cons_ascii ascii] at text
      simpa using ih text
    · simpa [same] using text

/-- Up to the first of an ASCII byte a text is one, and from there on. -/
theorem isText_cut_ne (ascii : byte ≤ 0x7F) {bytes : Bytes} (text : isText bytes = true) :
    isText (bytes.takeWhile (· != byte)) = true ∧ isText (bytes.dropWhile (· != byte)) = true := by
  by_cases held : byte ∈ bytes
  · obtain ⟨before, after, rfl, first⟩ := List.eq_append_cons_of_mem held
    have passed : ∀ other ∈ before, (other != byte) = true := by
      intro other member
      have apart : other ≠ byte := fun same => first (same ▸ member)
      simp [apart]
    rw [isText_append_ascii ascii, Bool.and_eq_true] at text
    rw [List.takeWhile_append_of_pos passed, List.dropWhile_append_of_pos passed]
    simp [isText_cons_ascii ascii, text]
  · have passed : ∀ other ∈ bytes, (other != byte) = true := by
      intro other member
      have apart : other ≠ byte := fun same => held (same ▸ member)
      simp [apart]
    rw [List.takeWhile_eq_self_iff.mpr passed, List.dropWhile_eq_nil_iff.mpr passed]
    exact ⟨text, by simp [isText_eq, pieces]⟩

end ArithAsm.Utf8
