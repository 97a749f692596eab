import ArithAsm.Proofs.Reading.Completeness
import ArithAsm.Proofs.Reading.Soundness

/-! A source is read as a program exactly when its tokens spell that program. -/
namespace ArithAsm

theorem parse_eq_ok_iff_read {source : Bytes} {program : Program} :
    parse source = .ok program ↔ read source = .ok program := by
  cases outcome : read source <;> simp [parse, outcome, Except.mapError]

/-- Reading succeeds exactly on the tokens that spell the program. -/
theorem read_eq_ok_iff {source : Bytes} {program : Program} :
    read source = .ok program ↔ program.SpelledBy (tokens source) := by
  refine ⟨fun succeeded => ?_, fun spelled => Program.read_of_spelled _ spelled⟩
  cases taken : Reader.start.steps (tokens source) with
  | error rejection => simp [read, taken, Except.bind] at succeeded
  | ok after =>
    have finished : after.finish source.length = .ok program := by
      simpa [read, taken, Except.bind] using succeeded
    exact Reader.spelled_of_finish (Reader.follows_steps _ Reader.follows_start taken) finished

/-- A source parses as a program exactly when its tokens, each used once, write
the leaves of the program, every operator has operands and takes all numerals
behind it, and the tree is not too high. -/
theorem parse_ok_iff_spelled (source : Bytes) (program : Program) :
    parse source = .ok program ↔ program.SpelledBy (tokens source) :=
  parse_eq_ok_iff_read.trans read_eq_ok_iff

end ArithAsm
