import ArithAsm.Proofs.Reading.Likeness
import ArithAsm.Proofs.Refusals
import ArithAsm.Proofs.RoundTrip

/-! Only the lexemes of a source matter. Whatever stands between the tokens and
wherever they stand, two sources with the same lexemes are both programs, the
same but for their places, and compile to the same lines; or both fail, for the
same fault, at the token that comes at the same turn. -/
namespace ArithAsm

/-- The offsets are where the tokens at one turn start, or both ends. -/
def SameTurn (first second : Bytes) (offset twinOffset : Nat) : Prop :=
  (∃ (turn : Nat) (token twin : Token), (tokens first)[turn]? = some token ∧
    (tokens second)[turn]? = some twin ∧ token.start = offset ∧ twin.start = twinOffset) ∨
  offset = first.length ∧ twinOffset = second.length

theorem tokens_like {first second : Bytes} (same : lexemes first = lexemes second) :
    List.Forall₂ (Token.Like (SameTurn first second)) (tokens first) (tokens second) := by
  have length : (tokens first).length = (tokens second).length := by
    simpa [lexemes] using congrArg List.length same
  refine List.forall₂_iff_get.mpr ⟨length, fun turn inFirst inSecond => ⟨?_, .inl ?_⟩⟩
  · have entries := congrArg (·[turn]?) same
    simpa [lexemes, inFirst, inSecond] using entries
  · exact ⟨turn, _, _, List.getElem?_eq_getElem inFirst, List.getElem?_eq_getElem inSecond, rfl, rfl⟩

/-- Tokens in different places can be moved to wherever tokens with the same
lexemes are. -/
theorem exists_moves {first second : List Token}
    (same : first.map Token.lexeme = second.map Token.lexeme)
    (apart : first.Pairwise fun token later => later.start ≠ token.start ∧ later.stop ≠ token.stop) :
    ∃ begins ends, List.Forall₂ (Token.Moves begins ends) first second := by
  induction first generalizing second with
  | nil =>
    obtain rfl := List.map_eq_nil_iff.mp same.symm
    exact ⟨id, id, .nil⟩
  | cons token rest ih =>
    obtain ⟨twin, others, rfl, head, tail⟩ := List.map_eq_cons_iff.mp same.symm
    obtain ⟨different, apartRest⟩ := List.pairwise_cons.mp apart
    obtain ⟨begins, ends, moves⟩ := ih tail.symm apartRest
    refine ⟨Function.update begins token.start twin.start, Function.update ends token.stop twin.stop,
      .cons ⟨head.symm, by simp, by simp⟩ ?_⟩
    refine ((List.forall₂_and_left _ _).mpr ⟨different, moves⟩).imp ?_
    rintro later moved ⟨⟨otherStart, otherStop⟩, moves⟩
    exact ⟨moves.lexeme, by rw [Function.update_of_ne otherStart, moves.start], by
      rw [Function.update_of_ne otherStop, moves.stop]⟩

theorem tokens_apart (source : Bytes) : (tokens source).Pairwise fun token later =>
    later.start ≠ token.start ∧ later.stop ≠ token.stop := by
  refine (tokens_pairwise source).imp_of_mem fun {token later} scanned scannedLater order => ?_
  have within := tokens_within scanned
  have withinLater := tokens_within scannedLater
  omega

/-- The same lexemes in other places spell the same program there. -/
theorem parse_of_same_lexemes {first second : Bytes} {program : Program}
    (same : lexemes first = lexemes second) (parsed : parse first = .ok program) :
    ∃ again, parse second = .ok again ∧ again.unplaced = program.unplaced := by
  obtain ⟨begins, ends, moves⟩ := exists_moves same (tokens_apart first)
  have spelled := read_eq_ok_iff.mp (parse_eq_ok_iff_read.mp parsed)
  exact ⟨_, parse_eq_ok_iff_read.mpr (read_eq_ok_iff.mpr (spelled.relocate moves)),
    Program.unplaced_relocate begins ends program⟩

/-- Two sources with the same lexemes are the same to every sink and have the
same forms but for their places, or fail for the same fault at the same turn. -/
theorem lexemes_determine_compilation {first second : Bytes} (same : lexemes first = lexemes second) :
    (∃ program again, parse first = .ok program ∧ parse second = .ok again ∧
      again.unplaced = program.unplaced ∧ ∀ (σ : Type) (sink : Sink σ) (state : σ),
        linesOffered sink state second = linesOffered sink state first ∧
        (compile sink state second).state = (compile sink state first).state ∧
        (compile sink state second).result = (compile sink state first).result) ∨
    ∃ fault offset twinOffset, parse first = .error (.malformed (Location.of first offset) fault) ∧
      parse second = .error (.malformed (Location.of second twinOffset) fault) ∧
      SameTurn first second offset twinOffset := by
  cases parsed : parse first with
  | ok program =>
    obtain ⟨again, parsedAgain, unplaced⟩ := parse_of_same_lexemes same parsed
    refine .inl ⟨program, again, rfl, parsedAgain, unplaced, fun σ sink state => ⟨?_, ?_⟩⟩
    · exact congrArg Prod.snd (compile_congr parsed parsedAgain unplaced sink.recorded (state, [])).1
    · exact compile_congr parsed parsedAgain unplaced sink state
  | error error =>
    obtain ⟨rejection, failed, rfl⟩ := parse_eq_error_iff.mp parsed
    have alike := read_alike (tokens_like same) (.inr ⟨rfl, rfl⟩)
    rw [failed] at alike
    cases outcome : read second with
    | ok program =>
      rw [outcome] at alike
      cases alike
    | error twin =>
      rw [outcome] at alike
      cases alike with
      | error fault offset =>
        refine .inr ⟨rejection.fault, rejection.offset, twin.offset, rfl, ?_, offset⟩
        rw [fault]
        exact parse_eq_error_iff.mpr ⟨twin, outcome, rfl⟩

/-- A broken byte and line breaks between the tokens move the blame and nothing
else. -/
theorem skipped_bytes_move_blame :
    lexemes (Utf8.encode "(+ 1))") = lexemes [0x28, 0xFF, 0x2B, 0x0A, 0x31, 0x29, 0x0A, 0x29] ∧
      ∃ offset twinOffset, parse (Utf8.encode "(+ 1))") =
          .error (.malformed (Location.of (Utf8.encode "(+ 1))") offset) .unmatchedClose) ∧
        parse [0x28, 0xFF, 0x2B, 0x0A, 0x31, 0x29, 0x0A, 0x29] =
          .error (.malformed (Location.of [0x28, 0xFF, 0x2B, 0x0A, 0x31, 0x29, 0x0A, 0x29] twinOffset)
            .unmatchedClose) ∧
        SameTurn (Utf8.encode "(+ 1))") [0x28, 0xFF, 0x2B, 0x0A, 0x31, 0x29, 0x0A, 0x29]
          offset twinOffset := by
  have same : lexemes (Utf8.encode "(+ 1))") =
      lexemes [0x28, 0xFF, 0x2B, 0x0A, 0x31, 0x29, 0x0A, 0x29] := by decide +kernel
  have fails : parse (Utf8.encode "(+ 1))") = .error (.malformed ⟨1, 6⟩ .unmatchedClose) := by
    rw [parse, read, show tokens (Utf8.encode "(+ 1))") = [⟨.openGroup, 0⟩, ⟨.plus, 1⟩,
      ⟨.numeral [0x31], 3⟩, ⟨.closeGroup, 4⟩, ⟨.closeGroup, 5⟩] by decide +kernel]
    rfl
  refine ⟨same, ?_⟩
  rcases lexemes_determine_compilation same with ⟨program, again, parsed, -⟩ |
    ⟨fault, offset, twinOffset, failsThere, failsHere, turn⟩
  · cases fails.symm.trans parsed
  · obtain ⟨-, rfl⟩ := Error.malformed.inj (Except.error.inj (fails.symm.trans failsThere))
    exact ⟨offset, twinOffset, failsThere, failsHere, turn⟩

end ArithAsm
