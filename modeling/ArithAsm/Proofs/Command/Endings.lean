import ArithAsm.Proofs.Command.Course
import ArithAsm.Proofs.Positions
import ArithAsm.Proofs.Reading.Blame
import ArithAsm.Proofs.Slicing

/-! How a run can end. Whatever the arguments, the files and the tools, a run exits with
code zero or one, but for two cases, and both are a matter of the arguments alone or of the
arguments and whether the input can be opened. A run aborts when an argument that is asked for as
a text is none. It aborts as well when the largest 64-bit number is given as the limit and the
input can be opened, as one byte more than the limit is no 64-bit number. Nothing that is done
with a source can fail in that way. -/
namespace ArithAsm

/-! ## Reading a source -/

/-- Blame falls inside of the source or on its end. -/
theorem offset_le_of_read_error {source : Bytes} {rejection : Rejection}
    (fails : read source = .error rejection) : rejection.offset ≤ source.length := by
  have blames : rejection.fault.Blames source rejection.offset := by
    rcases read_eq_error_iff.mp fails with refused | ⟨reader, reads, unfinished⟩
    · exact (blames_of_refused refused).1
    · exact (blames_of_unfinished reads unfinished).1
  rcases blames.place with ⟨token, scanned, place⟩ | place
  · have within := tokens_within scanned
    omega
  · omega

/-- What is done with a source stays in bounds: its tokens can be cut out of it and are
not empty, the reader is never inside of more forms than the limit, blame falls inside of
the source, and no line or column is past its length by more than one. -/
structure StaysInBounds (source : Bytes) : Prop where
  cut : ∀ token ∈ tokens source, token.span.text? source = some token.lexeme.text
  advances : ∀ token ∈ tokens source, token.start < token.stop
  nesting : ∀ before after reader, tokens source = before ++ after →
    Reader.start.steps before = .ok reader → reader.frames.length ≤ maxNesting
  blame : ∀ rejection, read source = .error rejection → rejection.offset ≤ source.length
  line : ∀ offset, (Location.of source offset).line ≤ source.length + 1
  column : ∀ offset, (Location.of source offset).column ≤ source.length + 1

theorem staysInBounds (source : Bytes) : StaysInBounds source where
  cut _ scanned := text_of_scanned scanned
  advances _ scanned := (tokens_within scanned).1
  nesting _ _ _ _ reads := (Reader.follows_steps _ Reader.follows_start reads).room
  blame _ fails := offset_le_of_read_error fails
  line offset := by
    have lines : (source.take offset).count Byte.newline ≤ (source.take offset).length := List.count_le_length
    rw [List.length_take] at lines
    simp only [Location.of_eq]
    omega
  column offset := by
    have sameLine := ((source.take offset).reverse.takeWhile_sublist (· != Byte.newline)).length_le
    rw [List.length_reverse, List.length_take] at sameLine
    simp only [Location.of_eq]
    omega

/-! ## Endings -/

/-- The run exits, with code zero or one. -/
def Ending.Orderly : Ending → Prop
  | exited code | refused code => code = 0 ∨ code = 1
  | aborted _ => False

theorem Ending.Orderly.not_aborted {ending : Ending} {abort : Abort} (orderly : ending.Orderly) :
    ending ≠ .aborted abort := by
  rintro rfl
  exact orderly

/-- Arguments that lead to no run lead to an orderly ending, or to none because one of them is no
text. -/
theorem Stop.outcome_cases (stop : Stop) (host : Host) :
    stop ≠ .notText ∧ (stop.outcome host).ending.Orderly ∨
      stop = .notText ∧ (stop.outcome host).ending = .aborted .notText := by
  cases stop with
  | usage => exact .inl ⟨nofun, .inr rfl⟩
  | help | version => exact .inl ⟨nofun, .inl rfl⟩
  | notText => exact .inr ⟨rfl, rfl⟩

/-- The largest limit is given, and the input can be opened. -/
def Invocation.AsksTooMuch (invocation : Invocation) (host : Host) : Prop :=
  ∃ limit node, invocation.limit = .ok (.ok limit) ∧ limit.toNat = UInt64.size - 1 ∧
    host.tree.openFile invocation.inputPath = .ok node

namespace Invocation
variable {invocation : Invocation} {host : Host}

theorem asksTooMuch_iff {limit : UInt64} (limited : invocation.limit = .ok (.ok limit)) :
    invocation.AsksTooMuch host ↔
      (∃ node, host.tree.openFile invocation.inputPath = .ok node) ∧ UInt64.size ≤ limit.toNat + 1 := by
  have bounded := limit.toNat_lt_size
  constructor
  · rintro ⟨again, node, limitedAgain, largest, opened⟩
    obtain rfl := Except.ok.inj (Except.ok.inj (limited.symm.trans limitedAgain))
    exact ⟨⟨node, opened⟩, by omega⟩
  · rintro ⟨⟨node, opened⟩, large⟩
    exact ⟨limit, node, limited, by omega, opened⟩

/-- Within a limit, or with the notice that there is none, a run comes to an orderly ending unless
too much is asked for. -/
theorem ending_within {limit : Except LimitError UInt64} (limited : invocation.limit = .ok limit) :
    ¬ invocation.AsksTooMuch host ∧ (invocation.runWithin host limit).ending.Orderly ∨
      invocation.AsksTooMuch host ∧
        (invocation.runWithin host limit).ending = .aborted .limitOverflow := by
  cases limit with
  | error cause =>
    refine .inl ⟨?_, .inr rfl⟩
    rintro ⟨limit, node, valid, -⟩
    cases limited.symm.trans valid
  | ok limit =>
    rw [asksTooMuch_iff limited, ← readSource_eq_overflow_iff]
    rcases readSource_cases host.tree invocation.inputPath limit with
      ⟨records, source, reads, -⟩ | ⟨records, error, fails, -⟩ | ⟨-, -, overflows⟩
    · rw [reads, (run_of_source reads).1]
      exact .inl ⟨nofun, exitCode_cases _⟩
    · rw [fails, (run_of_unread fails).1]
      exact .inl ⟨nofun, .inr rfl⟩
    · exact .inr ⟨overflows, (run_of_abort overflows).1⟩

/-- An invocation comes to an orderly ending unless its values are no texts or it asks too
much. -/
theorem ending_cases (invocation : Invocation) (host : Host) :
    ¬ invocation.ValuesAreText ∧ (invocation.run host).ending = .aborted .notText ∨
      invocation.ValuesAreText ∧
        (¬ invocation.AsksTooMuch host ∧ (invocation.run host).ending.Orderly ∨
          invocation.AsksTooMuch host ∧ (invocation.run host).ending = .aborted .limitOverflow) := by
  rcases invocation.run_cases host with ⟨texts, limit, limited, within⟩ | ⟨broken, aborts, -⟩
  · rw [within]
    exact .inr ⟨texts, ending_within limited⟩
  · exact .inl ⟨broken, aborts⟩

end Invocation

/-- An argument that is looked at as a text is none. -/
def MissesText (arguments : List Bytes) : Prop :=
  Invocation.ofArguments arguments = .error .notText ∨
    ∃ invocation, Invocation.ofArguments arguments = .ok invocation ∧ ¬ invocation.ValuesAreText

/-- Arguments that are texts where they need to be give the largest limit for an input that can be
opened. -/
def OverflowsLimit (host : Host) (arguments : List Bytes) : Prop :=
  ∃ invocation, Invocation.ofArguments arguments = .ok invocation ∧ invocation.ValuesAreText ∧
    invocation.AsksTooMuch host

/-- A run ends in order, or for one of the two reasons it does not end at all. -/
theorem run_ending_cases (host : Host) (arguments : List Bytes) :
    (¬ OverflowsLimit host arguments ∧ ¬ MissesText arguments ∧ (run host arguments).ending.Orderly) ∨
      (OverflowsLimit host arguments ∧ ¬ MissesText arguments ∧
        (run host arguments).ending = .aborted .limitOverflow) ∨
      (¬ OverflowsLimit host arguments ∧ MissesText arguments ∧
        (run host arguments).ending = .aborted .notText) := by
  unfold OverflowsLimit MissesText run
  cases Invocation.ofArguments arguments with
  | error stop =>
    rcases stop.outcome_cases host with ⟨other, orderly⟩ | ⟨rfl, aborts⟩
    · exact .inl (by simp [other, orderly])
    · exact .inr (.inr (by simp [aborts]))
  | ok invocation =>
    rcases invocation.ending_cases host with
      ⟨broken, aborts⟩ | ⟨texts, ⟨modest, orderly⟩ | ⟨asks, aborts⟩⟩
    · exact .inr (.inr (by simp [broken, aborts]))
    · exact .inl (by simp [texts, modest, orderly])
    · exact .inr (.inl (by simp [texts, asks, aborts]))

/-- Where all of the arguments are texts none of them is missed. -/
theorem exists_broken_of_missesText {arguments : List Bytes} (misses : MissesText arguments) :
    ∃ argument ∈ arguments, Utf8.isText argument = false := by
  by_contra whole
  simp only [not_exists, not_and, Bool.not_eq_false] at whole
  have keeps := Invocation.keepsText_ofArguments whole
  rcases misses with stopped | ⟨invocation, accepted, broken⟩
  · rw [stopped] at keeps
    exact keeps rfl
  · rw [accepted] at keeps
    exact broken keeps

/-- A run exits with code zero or one, except that it aborts exactly if an argument that it looks at
as a text is none, or if the largest limit is given for an input that can be opened. The first of
these does not come from arguments that are all texts, and what a run does with a source never goes
out of bounds. -/
theorem run_exits_unless_arguments_abort (host : Host) (arguments : List Bytes) :
    ((run host arguments).ending.Orderly ∨ (run host arguments).ending = .aborted .limitOverflow ∨
        (run host arguments).ending = .aborted .notText) ∧
      ((run host arguments).ending = .aborted .limitOverflow ↔ OverflowsLimit host arguments) ∧
      ((run host arguments).ending = .aborted .notText ↔ MissesText arguments) ∧
      (¬ MissesText arguments ∨ ∃ argument ∈ arguments, Utf8.isText argument = false) ∧
      ∀ source, StaysInBounds source := by
  rcases run_ending_cases host arguments with
    ⟨modest, whole, orderly⟩ | ⟨asks, whole, aborts⟩ | ⟨modest, misses, aborts⟩
  · exact ⟨.inl orderly, iff_of_false orderly.not_aborted modest,
      iff_of_false orderly.not_aborted whole, .inl whole, staysInBounds⟩
  · exact ⟨.inr (.inl aborts), iff_of_true aborts asks, iff_of_false (by simp [aborts]) whole,
      .inl whole, staysInBounds⟩
  · exact ⟨.inr (.inr aborts), iff_of_false (by simp [aborts]) modest, iff_of_true aborts misses,
      .inr (exists_broken_of_missesText misses), staysInBounds⟩

/-- A simulation under the largest limit aborts, though its input is one byte long, and so does one
of which the input is named by a byte that is no text. -/
theorem largest_limit_and_broken_name_abort_simulation :
    let host := Host.obliging "f" "1"
    (run host (["sim", "--max-size=18446744073709551615", "f"].map Utf8.encode)).ending =
        .aborted .limitOverflow ∧
      (run host [Utf8.encode "sim", [0xFF]]).ending = .aborted .notText := by
  decide +kernel

end ArithAsm
