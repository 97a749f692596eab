import ArithAsm.Proofs.Enclosure
import ArithAsm.Proofs.Reading.Prospects
import ArithAsm.Proofs.Spelling

/-! Whom a failed parse blames. Each fault names the token that it says something
about, and up to that token nothing is wrong with the source: it is a program, or
it merely ends too early. -/
namespace ArithAsm

/-- A token of the source that starts at `offset`, and the tokens around it. -/
structure TokenAt (source : Bytes) (offset : Nat) (before : List Token) (token : Token)
    (after : List Token) : Prop where
  split : tokens source = before ++ token :: after
  start : token.start = offset

/-- What a fault that is blamed on an offset says about the source. -/
def Fault.Blames (source : Bytes) (offset : Nat) : Fault → Prop
  | .unknownIdentifier name => ∃ before token after, TokenAt source offset before token after ∧
    token.lexeme = .word (Utf8.encode name) ∧ name ≠ "dump"
  | .literalOutOfRange digits => ∃ before token after, TokenAt source offset before token after ∧
    token.lexeme = .numeral (Utf8.encode digits) ∧ UInt64.size ≤ decimalValue (Utf8.encode digits)
  | .missingOperand operator => ∃ before token after, TokenAt source offset before token after ∧
    (token.lexeme = .plus ∧ operator = "+" ∨ token.lexeme = .minus ∧ operator = "-") ∧
    ∀ next ∈ after.head?, next.lexeme.isNumeral = false
  | .unexpected found => ∃ before dump, dump.lexeme = .word (Utf8.encode "dump") ∧
    ((∃ token after, TokenAt source offset (before ++ [dump]) token after ∧
      token.lexeme = .closeGroup ∧ found = ")") ∨
    tokens source = before ++ [dump] ∧ offset = source.length ∧ found = "end of input")
  | .unmatchedClose => ∃ before token after, TokenAt source offset before token after ∧
    token.lexeme = .closeGroup ∧ ∃ program, parse (source.take offset) = .ok program
  | .unclosedGroup => ∃ before token after, TokenAt source offset before token after ∧
    token.lexeme = .openGroup ∧ ¬ ClosedIn (after.map Token.lexeme) ∧
    ∀ between later rest, after = between ++ later :: rest → later.lexeme = .openGroup →
      ClosedIn (rest.map Token.lexeme)
  | .nestingTooDeep limit => limit = maxNesting ∧ ∃ before, enclosing before = maxNesting ∧
    ((∃ token after, TokenAt source offset before token after) ∨
      tokens source = before ∧ offset = source.length)

/-- The source is a program, or fails only for having come to its end. -/
def SoundSoFar (source : Bytes) : Prop :=
  (∃ program, parse source = .ok program) ∨
    ∃ error, parse source = .error error ∧ (error.AwaitsMore source ∨
      error = .malformed (Location.of source source.length) (.nestingTooDeep maxNesting))

variable {source : Bytes} {reader middle : Reader} {rejection : Rejection}

/-! ## Up to the token blamed -/

/-- When every token is taken in, only the end can be at fault. -/
theorem soundSoFar_of_steps (reads : Reader.start.steps (tokens source) = .ok reader) :
    SoundSoFar source := by
  cases finished : reader.finish source.length with
  | ok program =>
    refine .inl ⟨program, parse_eq_ok_iff_read.mpr ?_⟩
    simpa [read, reads, Except.bind] using finished
  | error rejection =>
    have unfinished := Reader.finish_eq_error_iff.mp finished
    have failed : read source = .error rejection :=
      read_eq_error_iff.mpr (.inr ⟨reader, reads, unfinished⟩)
    refine .inr ⟨_, parse_eq_error_iff.mpr ⟨rejection, failed, rfl⟩, ?_⟩
    by_cases deep : rejection.fault = .nestingTooDeep maxNesting
    · cases unfinished with
      | operand running lacking | group ended inside | argument idle waiting room => cases deep
      | tooDeep idle waiting full => exact .inr rfl
    · exact .inl (completes_of_unfinished reads unfinished deep).1

/-- The tokens in front of one are taken in if more are. -/
theorem steps_of_append {first second : List Token}
    (reads : Reader.start.steps (first ++ second) = .ok reader) :
    ∃ middle, Reader.start.steps first = .ok middle := by
  rw [Reader.steps_append] at reads
  cases taken : Reader.start.steps first with
  | error rejection => simp [taken, Except.bind] at reads
  | ok middle => exact ⟨middle, rfl⟩

theorem soundSoFar_take {before after : List Token} {token : Token} {offset : Nat}
    (blamed : TokenAt source offset before token after)
    (reads : Reader.start.steps before = .ok reader) : SoundSoFar (source.take offset) := by
  rw [← tokens_take blamed.split] at reads
  exact blamed.start ▸ soundSoFar_of_steps reads

/-! ## Tokens that are refused -/

/-- The operator that lacks its operand is blamed, and no numeral follows it. -/
theorem blames_operator {run : OperandRun} {earlier after : List Token}
    (split : tokens source = earlier ++ run.token :: after)
    (next : ∀ token ∈ after.head?, token.lexeme.isNumeral = false) :
    run.rejection.fault.Blames source run.rejection.offset := by
  refine ⟨earlier, run.token, after, ⟨split, rfl⟩, ?_, next⟩
  have plus : Lexeme.plus.text = "+" := by decide +kernel
  have minus : Lexeme.minus.text = "-" := by decide +kernel
  obtain ⟨operator, start, operands⟩ := run
  cases operator with
  | plus => exact .inl ⟨rfl, plus⟩
  | minus => exact .inr ⟨rfl, minus⟩

theorem blames_literal {before after : List Token} {digits : Bytes} {offset : Nat}
    (split : tokens source = before ++ ⟨.numeral digits, offset⟩ :: after)
    (large : UInt64.size ≤ decimalValue digits) :
    (Fault.literalOutOfRange (Lexeme.numeral digits).text).Blames source offset := by
  have scanned : ⟨.numeral digits, offset⟩ ∈ tokens source := by simp [split]
  rw [Fault.Blames, encode_text_of_scanned scanned]
  exact ⟨before, _, after, ⟨split, rfl⟩, rfl, large⟩

/-- Outside of a run the token that is refused is the one blamed. -/
theorem blames_of_refuses {before after : List Token} {token : Token} {fault : Fault}
    (split : tokens source = before ++ token :: after) (reads : Reader.start.steps before = .ok reader)
    (ended : reader.endRun = .ok middle) (refuses : middle.Refuses token fault) :
    fault.Blames source token.start := by
  have follows : reader.Follows before := Reader.follows_steps before Reader.follows_start reads
  cases refuses with
  | @unmatched offset outermost =>
    refine ⟨before, _, after, ⟨split, rfl⟩, rfl, middle.forms.reverse, ?_⟩
    have front : tokens (source.take offset) = before := tokens_take split
    rw [parse_eq_ok_iff_read, read, front, reads]
    exact Reader.finish_eq_ok_iff.mpr ⟨middle, ended, outermost, rfl⟩
  | unexpected waiting room =>
    obtain ⟨idle, rfl⟩ := Reader.eq_of_endRun_waiting ended waiting
    obtain ⟨earlier, dump, rfl, isDump⟩ := follows.last_dump idle waiting
    have text : Lexeme.closeGroup.text = ")" := by decide +kernel
    rw [Fault.Blames, text]
    exact ⟨earlier, dump, isDump, .inl ⟨_, after, ⟨split, rfl⟩, rfl, rfl⟩⟩
  | tooDeep full begins =>
    have count := follows.enclosing_eq ended
    have room := (Reader.endRun_keeps follows ended).2.2.2
    exact ⟨rfl, before, by omega, .inl ⟨token, after, split, rfl⟩⟩
  | tooLarge room large => exact blames_literal split large
  | @unknown offset name room other =>
    have scanned : ⟨.word name, offset⟩ ∈ tokens source := by simp [split]
    have text := encode_text_of_scanned scanned
    rw [Fault.Blames, text]
    refine ⟨before, _, after, ⟨split, rfl⟩, rfl, fun same => other ?_⟩
    rw [← same, text, Lexeme.spelling]

/-- A token that is refused is blamed for what it is, or the operator in front of
it for lacking an operand. -/
theorem blames_of_refused (refused : Reader.start.steps (tokens source) = .error rejection) :
    rejection.fault.Blames source rejection.offset ∧ SoundSoFar (source.take rejection.offset) := by
  obtain ⟨before, token, after, reader, split, reads, refused⟩ := Reader.steps_error_split refused
  rcases Reader.step_error_cases refused with ⟨run, running, lacking, other, rfl⟩ |
    ⟨run, digits, offset, running, rfl, large, rfl⟩ | ⟨-, middle, ended, refuses, place⟩
  · obtain ⟨earlier, rfl⟩ := Reader.getLast_of_operands_nil reads running lacking
    obtain ⟨middle, readsEarlier⟩ := steps_of_append reads
    rw [List.append_assoc, List.singleton_append] at split
    exact ⟨blames_operator split (by simpa using other), soundSoFar_take ⟨split, rfl⟩ readsEarlier⟩
  · exact ⟨blames_literal split large, soundSoFar_take ⟨split, rfl⟩ reads⟩
  · rw [place]
    exact ⟨blames_of_refuses split reads ended refuses, soundSoFar_take ⟨split, rfl⟩ reads⟩

/-! ## Endings that come too early -/

/-- What the end leaves unfinished is blamed on the operator or the `(` that it
leaves so, or on the end itself. -/
theorem blames_of_unfinished (reads : Reader.start.steps (tokens source) = .ok reader)
    (unfinished : reader.Unfinished source.length rejection) :
    rejection.fault.Blames source rejection.offset ∧ SoundSoFar (source.take rejection.offset) := by
  have follows : reader.Follows (tokens source) := Reader.follows_steps _ Reader.follows_start reads
  have whole : SoundSoFar (source.take source.length) := by
    rw [List.take_length]
    exact soundSoFar_of_steps reads
  cases unfinished with
  | @operand run running lacking =>
    obtain ⟨earlier, split⟩ := Reader.getLast_of_operands_nil reads running lacking
    obtain ⟨middle, readsEarlier⟩ := steps_of_append (split ▸ reads)
    exact ⟨blames_operator split nofun, soundSoFar_take ⟨split, rfl⟩ readsEarlier⟩
  | group ended inside =>
    obtain ⟨before, token, after, split, group, place, unclosed, settled⟩ :=
      follows.last_unclosed ended inside
    obtain ⟨middle, readsBefore⟩ := steps_of_append (split ▸ reads)
    refine ⟨⟨before, token, after, ⟨split, place⟩, group, unclosed, ?_⟩,
      soundSoFar_take ⟨split, place⟩ readsBefore⟩
    -- Only whole forms stand behind the innermost group, so no later `(` is open.
    intro between later rest behind laterGroup
    by_contra stillOpen
    exact not_encloses_of_enclosing_eq_zero settled behind (.inl ⟨laterGroup, stillOpen⟩)
  | argument idle waiting room =>
    obtain ⟨before, dump, split, isDump⟩ := follows.last_dump idle waiting
    exact ⟨⟨before, dump, isDump, .inr ⟨split, rfl, rfl⟩⟩, whole⟩
  | tooDeep idle waiting full =>
    have count := follows.enclosing_eq (Reader.endRun_of_none idle)
    have room := follows.room
    exact ⟨⟨rfl, tokens source, by omega, .inr ⟨rfl, rfl⟩⟩, whole⟩

/-- Whatever is blamed is a token or the end. -/
theorem Fault.Blames.place {fault : Fault} {offset : Nat} (blames : fault.Blames source offset) :
    (∃ token ∈ tokens source, token.start = offset) ∨ offset = source.length := by
  have scanned {before after : List Token} {token : Token}
      (blamed : TokenAt source offset before token after) : ∃ token ∈ tokens source, token.start = offset :=
    ⟨token, by simp [blamed.split], blamed.start⟩
  cases fault with
  | unknownIdentifier name | literalOutOfRange digits | missingOperand operator | unmatchedClose
  | unclosedGroup =>
    obtain ⟨before, token, after, blamed, -⟩ := blames
    exact .inl (scanned blamed)
  | unexpected found =>
    obtain ⟨before, dump, -, ⟨token, after, blamed, -⟩ | ⟨-, atEnd, -⟩⟩ := blames
    · exact .inl (scanned blamed)
    · exact .inr atEnd
  | nestingTooDeep limit =>
    obtain ⟨-, before, -, ⟨token, after, blamed⟩ | ⟨-, atEnd⟩⟩ := blames
    · exact .inl (scanned blamed)
    · exact .inr atEnd

/-- A parse that fails blames a token, or the end of the source, of which the
fault is true, and up to there the source is sound. -/
theorem failed_parse_blames_leftmost {error : Error} (fails : parse source = .error error) :
    ∃ offset fault, error = .malformed (Location.of source offset) fault ∧
      ((∃ token ∈ tokens source, token.start = offset) ∨ offset = source.length) ∧
      fault.Blames source offset ∧ SoundSoFar (source.take offset) := by
  obtain ⟨rejection, failed, rfl⟩ := parse_eq_error_iff.mp fails
  have blame : rejection.fault.Blames source rejection.offset ∧
      SoundSoFar (source.take rejection.offset) := by
    rcases read_eq_error_iff.mp failed with refused | ⟨reader, reads, unfinished⟩
    · exact blames_of_refused refused
    · exact blames_of_unfinished reads unfinished
  exact ⟨rejection.offset, rejection.fault, rfl, blame.1.place, blame⟩

/-- Of two groups that stay open the inner one is blamed, though later ones begin
and end behind it. -/
theorem inner_open_group_is_blamed :
    parse (Utf8.encode "(1 (2) (dump (3)") = .error (.malformed ⟨1, 8⟩ .unclosedGroup) ∧
      Fault.unclosedGroup.Blames (Utf8.encode "(1 (2) (dump (3)") 7 ∧
      SoundSoFar ((Utf8.encode "(1 (2) (dump (3)").take 7) := by
  have fails : parse (Utf8.encode "(1 (2) (dump (3)") = .error (.malformed ⟨1, 8⟩ .unclosedGroup) := by
    rw [parse, read, show tokens (Utf8.encode "(1 (2) (dump (3)") = [⟨.openGroup, 0⟩,
      ⟨.numeral [0x31], 1⟩, ⟨.openGroup, 3⟩, ⟨.numeral [0x32], 4⟩, ⟨.closeGroup, 5⟩, ⟨.openGroup, 7⟩,
      ⟨.word (Utf8.encode "dump"), 8⟩, ⟨.openGroup, 13⟩, ⟨.numeral [0x33], 14⟩, ⟨.closeGroup, 15⟩]
      by decide +kernel]
    rfl
  obtain ⟨offset, fault, same, place, blames, sound⟩ := failed_parse_blames_leftmost fails
  obtain ⟨location, rfl⟩ := Error.malformed.inj same
  have inside : offset ≤ (Utf8.encode "(1 (2) (dump (3)").length := by
    rcases place with ⟨token, scanned, rfl⟩ | rfl
    · have within := tokens_within scanned
      omega
    · exact Nat.le_refl _
  have seventh : ⟨1, 8⟩ = Location.of (Utf8.encode "(1 (2) (dump (3)") 7 := by decide +kernel
  obtain rfl : offset = 7 := Location.of_inj inside (by decide +kernel) (location.symm.trans seventh)
  exact ⟨fails, blames, sound⟩

end ArithAsm
