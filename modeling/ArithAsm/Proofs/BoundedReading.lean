import ArithAsm.Source.Reading

/-! Bounded reading, by what an input delivers. An input delivers the bytes of its
readings up to the first that is a failure or brings nothing; behind them it fails or
ends. How the bytes were cut into reads and how often a read was interrupted leaves no
trace: what is delivered within the limit is taken whole, unless the input then fails,
and one byte more is refused whatever follows it. -/
namespace ArithAsm

namespace Reading

/-- Whether more may follow the reading. -/
def goesOn : Reading → Bool
  | data bytes => !bytes.isEmpty
  | interrupted => true
  | failure _ => false

/-- The bytes that the reading brings. -/
def bytes : Reading → Bytes
  | data bytes => bytes
  | interrupted | failure _ => []

/-- Why the reading failed, if it did. -/
def cause? : Reading → Option IoError
  | failure cause => some cause
  | data _ | interrupted => none

/-- The bytes that come before the first failure or the end. -/
def delivered (input : List Reading) : Bytes :=
  (input.takeWhile goesOn).flatMap bytes

/-- The failure behind the bytes delivered, unless the input ends there. -/
def failure? (input : List Reading) : Option IoError :=
  (input.dropWhile goesOn).head?.bind cause?

variable {reading : Reading} {input : List Reading}

theorem delivered_cons (more : reading.goesOn = true) :
    delivered (reading :: input) = reading.bytes ++ delivered input := by
  rw [delivered, List.takeWhile_cons_of_pos more, List.flatMap_cons, delivered]

theorem failure?_cons (more : reading.goesOn = true) : failure? (reading :: input) = failure? input := by
  rw [failure?, List.dropWhile_cons_of_pos more, failure?]

theorem delivered_of_last (last : reading.goesOn = false) : delivered (reading :: input) = [] := by
  rw [delivered, List.takeWhile_cons_of_neg (by simp [last]), List.flatMap_nil]

theorem failure?_of_last (last : reading.goesOn = false) :
    failure? (reading :: input) = reading.cause? := by
  rw [failure?, List.dropWhile_cons_of_neg (by simp [last])]
  rfl

/-- As many bytes as are wanted, if so many are delivered; otherwise all of them or the
failure behind them. -/
theorem collect_eq (wanted : Nat) (input : List Reading) :
    collect wanted input =
      if wanted ≤ (delivered input).length then .ok ((delivered input).take wanted)
      else
        match failure? input with
        | some cause => .error cause
        | none => .ok (delivered input) := by
  fun_induction collect wanted input with
  | case1 wanted =>
    cases wanted with
    | zero => rfl
    | succ wanted => simp [delivered, failure?]
  | case2 reading rest => simp
  | case3 wanted rest wants ih => rw [ih, delivered_cons rfl, failure?_cons rfl, bytes, List.nil_append]
  | case4 wanted rest wants cause =>
    rw [delivered_of_last rfl, failure?_of_last rfl, if_neg (by simpa using wants)]
    rfl
  | case5 wanted rest wants =>
    rw [delivered_of_last rfl, failure?_of_last rfl, if_neg (by simpa using wants)]
    rfl
  | case6 wanted rest wants chunk nonempty ih =>
    have more : (data chunk).goesOn = true := by
      cases chunk with
      | nil => exact absurd rfl nonempty
      | cons first others => rfl
    rw [ih, delivered_cons more, failure?_cons more, bytes, List.length_append]
    by_cases enough : wanted ≤ chunk.length + (delivered rest).length
    · -- The chunk is cut at what is wanted, and the rest brings what is still missing.
      rw [if_pos enough, if_pos (by omega), Except.map, List.take_append]
    · have whole : chunk.take wanted = chunk := List.take_of_length_le (by omega)
      rw [if_neg enough, if_neg (by omega), whole]
      cases failure? rest <;> rfl

end Reading

open Reading

section
variable {input : List Reading} (path : Bytes) {limit : UInt64} (below : limit.toNat < UInt64.size - 1)
include below

/-- One byte too many is enough, whatever follows it. -/
theorem readBounded_of_large (large : limit.toNat < (delivered input).length) :
    readBounded input path limit = .ok ([], .error (.sourceTooLarge path limit.toNat)) := by
  have asked : bytesWanted limit = .ok (limit.toNat + 1) := if_pos (by omega)
  have cut : ¬ ((delivered input).take (limit.toNat + 1)).length ≤ limit.toNat := by
    rw [List.length_take]
    omega
  simp only [readBounded, asked, Except.map, collect_eq, Nat.succ_le_of_lt large, cut, ↓reduceIte]

theorem readBounded_of_failure {cause : IoError} (within : (delivered input).length ≤ limit.toNat)
    (failed : failure? input = some cause) :
    readBounded input path limit = .ok ([], .error (.readSource path cause)) := by
  have asked : bytesWanted limit = .ok (limit.toNat + 1) := if_pos (by omega)
  have missing : ¬ limit.toNat + 1 ≤ (delivered input).length := by omega
  simp only [readBounded, asked, Except.map, collect_eq, missing, failed, ↓reduceIte]

theorem readBounded_of_end (within : (delivered input).length ≤ limit.toNat)
    (ended : failure? input = none) :
    readBounded input path limit = .ok
      ([⟨.debug, .source, s!"read {(delivered input).length} byte(s) from `{Utf8.lossy path}`"⟩],
        .ok (delivered input)) := by
  have asked : bytesWanted limit = .ok (limit.toNat + 1) := if_pos (by omega)
  have missing : ¬ limit.toNat + 1 ≤ (delivered input).length := by omega
  simp only [readBounded, asked, Except.map, collect_eq, missing, within, ended, ↓reduceIte]

/-- Inputs that deliver the same bytes are read alike, if they go on in the same way or
it does not matter how they go on. -/
theorem readBounded_congr {other : List Reading} (same : delivered other = delivered input)
    (ending : limit.toNat < (delivered input).length ∨ failure? other = failure? input) :
    readBounded other path limit = readBounded input path limit := by
  by_cases large : limit.toNat < (delivered input).length
  · rw [readBounded_of_large path below large, readBounded_of_large path below (same ▸ large)]
  have within : (delivered input).length ≤ limit.toNat := Nat.le_of_not_lt large
  have alike : failure? other = failure? input := ending.resolve_left large
  cases failed : failure? input with
  | some cause =>
    rw [readBounded_of_failure path below within failed,
      readBounded_of_failure path below (same ▸ within) (alike.trans failed)]
  | none =>
    rw [readBounded_of_end path below within failed,
      readBounded_of_end path below (same ▸ within) (alike.trans failed), same]

end

/-- Below the largest limit reading always has a result. The input is refused as too
large exactly if it delivers more bytes than the limit, whatever follows them; otherwise
the failure behind the bytes is reported, or else the bytes are all there is. Inputs that
deliver the same bytes, cut and interrupted in whatever way, are read alike. -/
theorem bounded_reading_ignores_chunks (input : List Reading) (path : Bytes) (limit : UInt64)
    (below : limit.toNat < UInt64.size - 1) :
    ∃ records result, readBounded input path limit = .ok (records, result) ∧
      (result = .error (.sourceTooLarge path limit.toNat) ↔
        limit.toNat + 1 ≤ (delivered input).length) ∧
      ((delivered input).length ≤ limit.toNat →
        (∀ cause, failure? input = some cause → result = .error (.readSource path cause)) ∧
        (failure? input = none → result = .ok (delivered input))) ∧
      ∀ other, delivered other = delivered input →
        (limit.toNat + 1 ≤ (delivered input).length ∨ failure? other = failure? input) →
        readBounded other path limit = readBounded input path limit := by
  have alike (other : List Reading) (same : delivered other = delivered input)
      (ending : limit.toNat + 1 ≤ (delivered input).length ∨ failure? other = failure? input) :
      readBounded other path limit = readBounded input path limit :=
    readBounded_congr path below same ending
  rcases Nat.lt_or_ge limit.toNat (delivered input).length with large | within
  · refine ⟨_, _, readBounded_of_large path below large, ?_, ?_, alike⟩
    · simpa using Nat.succ_le_of_lt large
    · intro within
      omega
  · have small : ¬ limit.toNat + 1 ≤ (delivered input).length := by omega
    cases failed : failure? input with
    | some cause =>
      refine ⟨_, _, readBounded_of_failure path below within failed, by simp [small], ?_, failed ▸ alike⟩
      exact fun _ => ⟨fun _ same => by cases same; rfl, nofun⟩
    | none =>
      refine ⟨_, _, readBounded_of_end path below within failed, by simp [small], ?_, failed ▸ alike⟩
      exact fun _ => ⟨nofun, fun _ => rfl⟩

/-- Five bytes in two chunks, with an interruption between them and a failure behind
them: with a limit of four the failure is never seen, with a limit of five it is. -/
theorem interrupted_input_at_limit :
    let input := [.data [0x28, 0x31], .interrupted, .data [0x20, 0x32, 0x29], .failure .noSpace]
    (∃ records, readBounded input [0x66] 4 = .ok (records, .error (.sourceTooLarge [0x66] 4))) ∧
      (∃ records, readBounded input [0x66] 5 = .ok (records, .error (.readSource [0x66] .noSpace))) ∧
      readBounded [.data [0x28, 0x31, 0x20, 0x32, 0x29], .failure .noSpace] [0x66] 5 =
        readBounded input [0x66] 5 := by
  intro input
  obtain ⟨records, result, reads, large, -, -⟩ :=
    bounded_reading_ignores_chunks input [0x66] 4 (by decide)
  obtain ⟨others, outcome, fails, -, within, alike⟩ :=
    bounded_reading_ignores_chunks input [0x66] 5 (by decide)
  refine ⟨⟨records, ?_⟩, ⟨others, ?_⟩, ?_⟩
  · rw [reads, large.mpr (by decide)]
    rfl
  · rw [fails, (within (by decide)).1 .noSpace rfl]
  · exact alike _ rfl (.inr rfl)

end ArithAsm
