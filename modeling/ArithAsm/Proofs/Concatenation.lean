import ArithAsm.Proofs.Placement
import ArithAsm.Proofs.Positions
import ArithAsm.Proofs.Reading.Exactness
import ArithAsm.Proofs.Reading.Likeness
import ArithAsm.Proofs.Refusals
import ArithAsm.Proofs.Spacing

/-! One source behind another. A program followed by a byte that begins no token
and by a second source is read as if the second source stood alone further on:
its forms come behind those of the program, and its faults are its own. What has
to be excluded is that the operands at the end of the program go on with a numeral
at the front of the second source. -/
namespace ArithAsm

/-! ## Tokens and trees further on -/

/-- The program of a text that has `distance` more bytes in front. -/
def Program.shift (program : Program) (distance : Nat) : Program :=
  Program.relocate (· + distance) (· + distance) program

theorem tokens_move (source : List Token) (distance : Nat) :
    List.Forall₂ (Token.Moves (· + distance) (· + distance)) source
      (source.map (·.shift distance)) := by
  refine List.forall₂_map_right_iff.mpr (List.forall₂_same.mpr fun token _ => ?_)
  exact ⟨rfl, rfl, (token.stop_shift distance).symm⟩

/-- The second offset is where the token that starts at the first one, or the end
of the source, comes to be behind `distance` more bytes. -/
def Displaced (source : Bytes) (distance offset moved : Nat) : Prop :=
  ((∃ token ∈ tokens source, token.start = offset) ∨ offset = source.length) ∧
    moved = offset + distance

theorem tokens_displaced (source : Bytes) (distance : Nat) :
    List.Forall₂ (Token.Like (Displaced source distance)) (tokens source)
      ((tokens source).map (·.shift distance)) := by
  refine List.forall₂_map_right_iff.mpr (List.forall₂_same.mpr fun token scanned => ?_)
  exact ⟨rfl, .inl ⟨token, scanned, rfl⟩, rfl⟩

/-! ## Programs in a row -/

/-- The tokens do not go on with operands at the end of the program: the first of
them is no numeral, or the program does not end in operands. -/
def Program.ApartFrom (program : Program) (more : List Token) : Prop :=
  (∀ token ∈ more.head?, token.lexeme.isNumeral = false) ∨
    ∀ leaf ∈ program.leaves.getLast?, leaf.endsRun = false

/-- Whether tokens go on with a program does not depend on where they stand. -/
theorem Program.ApartFrom.shift {program : Program} {more : List Token} (apart : program.ApartFrom more)
    (distance : Nat) : program.ApartFrom (more.map (·.shift distance)) := by
  refine apart.imp_left fun noNumeral token isFirst => ?_
  rw [List.head?_map] at isFirst
  obtain ⟨original, isHead, rfl⟩ := Option.map_eq_some_iff.mp isFirst
  exact noNumeral original isHead

theorem Program.height_append (first second : Program) :
    Program.height (first ++ second) = max first.height second.height := by
  induction first with
  | nil => simp [Program.height]
  | cons form rest ih => simp [Program.height, ih, Nat.max_assoc]

theorem Program.lines_append (first second : Program) :
    Program.lines (first ++ second) = first.lines ++ second.lines := by
  induction first with
  | nil => rfl
  | cons form rest ih => simp [Program.lines, ih]

/-- Tokens that spell a program, and tokens that spell another one and do not go on
with the first, spell both in a row. -/
theorem Program.SpelledBy.append {first second : Program} {written more : List Token}
    (spelled : first.SpelledBy written) (later : second.SpelledBy more) (apart : first.ApartFrom more) :
    Program.SpelledBy (first ++ second) (written ++ more) where
  leaves := by
    rw [Program.leaves_append]
    exact List.rel_append spelled.leaves later.leaves
  supplied := by
    rw [Program.supplied_iff]
    intro form member
    rcases List.mem_append.mp member with inFirst | inSecond
    · exact (Program.supplied_iff _).mp spelled.supplied form inFirst
    · exact (Program.supplied_iff _).mp later.supplied form inSecond
  separated := by
    rw [Program.leaves_append]
    refine spelled.separated.append later.separated ?_
    rintro last isLast leaf isFirst ⟨marked, number⟩
    rcases apart with noNumeral | noOperands
    · obtain ⟨leaves, shape⟩ := List.head?_eq_some_iff.mp isFirst
      have wrote := later.leaves
      rw [shape] at wrote
      obtain ⟨token, rest, head, -, rfl⟩ := List.forall₂_cons_left_iff.mp wrote
      have numeral := Reader.isNumeral_of_written head
      rw [noNumeral token (by simp), number] at numeral
      cases numeral
    · rw [noOperands last isLast] at marked
      cases marked
  shallow := by
    rw [Program.height_append]
    exact Nat.max_le.mpr ⟨spelled.shallow, later.shallow⟩

/-- Behind a program the reader has nothing open, and more tokens find it so. -/
theorem Program.SpelledBy.reads_on {program : Program} {written more : List Token}
    (spelled : program.SpelledBy written) (apart : program.ApartFrom more) (stop : Nat) :
    (Reader.start.steps (written ++ more)).bind (·.finish stop) =
      (Reader.steps ⟨[], program.reverse, none⟩ more).bind (·.finish stop) := by
  obtain ⟨after, reads, arrives⟩ := Reader.steps_program program [] [] (by simp) spelled.leaves
    spelled.separated spelled.supplied (by simpa using spelled.shallow)
  rw [List.append_nil] at arrives
  rw [Reader.steps_append, show Reader.start.steps written = .ok after from reads]
  show (after.steps more).bind _ = _
  cases more with
  | nil =>
    show after.finish stop = Reader.finish ⟨[], program.reverse, none⟩ stop
    simp only [Reader.finish, arrives.ended, Reader.endRun_of_none arrives.idle]
  | cons token rest =>
    -- An operator at the end of the program still waits for the token that ends its run.
    have free : after.run = none ∨ token.lexeme.isNumeral = false := by
      rcases arrives.pending with idle | ⟨leaf, isLast, marked⟩
      · exact .inl idle
      · rcases apart with noNumeral | noOperands
        · exact .inr (noNumeral token rfl)
        · rw [noOperands leaf isLast] at marked
          cases marked
    rw [arrives.steps free]

/-! ## Sources in a row -/

/-- The lines that compiling the source hands back, to whatever sink it goes. -/
def HandsBack (source : Bytes) (core : Listing) : Prop :=
  (compile Listing.sink .empty source).result = .ok core ∧
    ∀ (σ : Type) (sink : Sink σ) (state : σ) (given : Listing),
      (compile sink state source).result = .ok given → given = core

theorem handsBack_of_parsed {source : Bytes} {program : Program} (parsed : parse source = .ok program) :
    HandsBack source ⟨(program.lines.map Line.text).toArray⟩ := by
  refine ⟨(compile_to_listing parsed).2, fun σ sink state given accepted => ?_⟩
  obtain ⟨again, parsedAgain, lines⟩ := core_of_compile accepted
  obtain rfl := Except.ok.inj (parsed.symm.trans parsedAgain)
  obtain ⟨written⟩ := given
  rw [← lines, Array.toArray_toList]

section
variable {first second : Bytes} {skipped : UInt8} {program : Program}

/-- A second program comes behind the first one. -/
theorem parse_append_ok {later : Program} (parsed : parse first = .ok program)
    (skips : tokens [skipped] = []) (apart : program.ApartFrom (tokens second))
    (parsedLater : parse second = .ok later) :
    parse (first ++ skipped :: second) = .ok (program ++ later.shift (first.length + 1)) := by
  rw [parse_eq_ok_iff_read, read_eq_ok_iff] at parsed parsedLater ⊢
  rw [tokens_append_skipped skips]
  exact parsed.append (parsedLater.relocate (tokens_move _ _)) (apart.shift _)

/-- What is wrong with the second source is wrong with both, further on. -/
theorem read_append_error {rejection : Rejection} (parsed : parse first = .ok program)
    (skips : tokens [skipped] = []) (apart : program.ApartFrom (tokens second))
    (fails : read second = .error rejection) :
    ∃ again, read (first ++ skipped :: second) = .error again ∧ rejection.fault = again.fault ∧
      Displaced second (first.length + 1) rejection.offset again.offset := by
  have spelled := read_eq_ok_iff.mp (parse_eq_ok_iff_read.mp parsed)
  have length : (first ++ skipped :: second).length = second.length + (first.length + 1) := by
    simp only [List.length_append, List.length_cons]
    omega
  have ends : Displaced second (first.length + 1) second.length (first ++ skipped :: second).length :=
    ⟨.inr rfl, length⟩
  have begun : Reader.start.Like (Displaced second (first.length + 1)) ⟨[], program.reverse, none⟩ :=
    ⟨.nil, .none⟩
  have alike := (begun.steps (tokens_displaced second (first.length + 1))).bind
    fun _ _ like => like.finish ends
  rw [← spelled.reads_on (apart.shift _), ← tokens_append_skipped skips] at alike
  change Alike _ _ (read second) (read (first ++ skipped :: second)) at alike
  rw [fails] at alike
  cases outcome : read (first ++ skipped :: second) with
  | ok whole =>
    rw [outcome] at alike
    cases alike
  | error again =>
    rw [outcome] at alike
    cases alike with
    | error fault offset => exact ⟨again, rfl, fault, offset⟩

/-- The own lines of the second program come behind those of the first. -/
theorem handsBack_append {later : Program} (parsed : parse first = .ok program)
    (skips : tokens [skipped] = []) (apart : program.ApartFrom (tokens second))
    (parsedLater : parse second = .ok later) :
    ∃ core laterCore, HandsBack first core ∧ HandsBack second laterCore ∧
      HandsBack (first ++ skipped :: second) ⟨core.lines ++ laterCore.lines⟩ := by
  have whole := handsBack_of_parsed (parse_append_ok parsed skips apart parsedLater)
  rw [Program.lines_append, Program.shift, Program.lines_relocate, List.map_append] at whole
  refine ⟨_, _, handsBack_of_parsed parsed, handsBack_of_parsed parsedLater, ?_⟩
  rw [List.append_toArray]
  exact whole

end

/-- Behind a program and a byte that begins no token, a source is read as it is
alone, only further on, unless it goes on with operands that the program ends in:
its forms and its own lines come behind those of the program, and a fault of it is
the fault of the whole, blamed on the same token. -/
theorem concatenation_reads_in_turn {first second : Bytes} {skipped : UInt8} {program : Program}
    (parsed : parse first = .ok program) (skips : tokens [skipped] = [])
    (apart : (∀ token ∈ (tokens second).head?, token.lexeme.isNumeral = false) ∨
      ∀ leaf ∈ program.leaves.getLast?, leaf.endsRun = false) :
    (∀ later, parse second = .ok later →
      parse (first ++ skipped :: second) = .ok (program ++ later.shift (first.length + 1)) ∧
      ∃ core laterCore, HandsBack first core ∧ HandsBack second laterCore ∧
        HandsBack (first ++ skipped :: second) ⟨core.lines ++ laterCore.lines⟩) ∧
    ∀ error, parse second = .error error → ∃ fault offset,
      error = .malformed (Location.of second offset) fault ∧
      ((∃ token ∈ tokens second, token.start = offset) ∨ offset = second.length) ∧
      parse (first ++ skipped :: second) = .error (.malformed
        (Location.of (first ++ skipped :: second) (offset + (first.length + 1))) fault) := by
  constructor
  · intro later parsedLater
    exact ⟨parse_append_ok parsed skips apart parsedLater, handsBack_append parsed skips apart parsedLater⟩
  · intro error fails
    obtain ⟨rejection, failed, rfl⟩ := parse_eq_error_iff.mp fails
    obtain ⟨again, failsAgain, fault, place, moved⟩ := read_append_error parsed skips apart failed
    refine ⟨rejection.fault, rejection.offset, rfl, place, ?_⟩
    rw [fault, ← moved]
    exact parse_eq_error_iff.mpr ⟨again, failsAgain, rfl⟩

/-- A sum and a group behind a broken byte are read in turn, and a parenthesis too
many behind them is blamed where it stands. -/
theorem sum_and_group_read_in_turn :
    parse (Utf8.encode "+ 1" ++ 0xFF :: Utf8.encode "(2)") =
        .ok ([.add [⟨1, ⟨2, 3⟩⟩]] ++ Program.shift [.group ⟨0, 3⟩ [.literal ⟨2, ⟨1, 2⟩⟩]] 4) ∧
      parse (Utf8.encode "+ 1" ++ 0x0A :: Utf8.encode "(2))") =
        .error (.malformed ⟨2, 4⟩ .unmatchedClose) := by
  have parsed : parse (Utf8.encode "+ 1") = .ok [.add [⟨1, ⟨2, 3⟩⟩]] := by
    rw [parse, read, show tokens (Utf8.encode "+ 1") = [⟨.plus, 0⟩, ⟨.numeral [0x31], 2⟩]
      by decide +kernel]
    rfl
  have closed : parse (Utf8.encode "(2)") = .ok [.group ⟨0, 3⟩ [.literal ⟨2, ⟨1, 2⟩⟩]] := by
    rw [parse, read, show tokens (Utf8.encode "(2)") = [⟨.openGroup, 0⟩, ⟨.numeral [0x32], 1⟩,
      ⟨.closeGroup, 2⟩] by decide +kernel]
    rfl
  have fails : parse (Utf8.encode "(2))") = .error (.malformed ⟨1, 4⟩ .unmatchedClose) := by
    rw [parse, read, show tokens (Utf8.encode "(2))") = [⟨.openGroup, 0⟩, ⟨.numeral [0x32], 1⟩,
      ⟨.closeGroup, 2⟩, ⟨.closeGroup, 3⟩] by decide +kernel]
    rfl
  constructor
  · have skips : tokens [0xFF] = [] := by decide +kernel
    have apart : ∀ token ∈ (tokens (Utf8.encode "(2)")).head?, token.lexeme.isNumeral = false := by
      decide +kernel
    exact ((concatenation_reads_in_turn parsed skips (.inl apart)).1 _ closed).1
  · have skips : tokens [0x0A] = [] := by decide +kernel
    have apart : ∀ token ∈ (tokens (Utf8.encode "(2))")).head?, token.lexeme.isNumeral = false := by
      decide +kernel
    obtain ⟨fault, offset, same, place, failsAgain⟩ :=
      (concatenation_reads_in_turn parsed skips (.inl apart)).2 _ fails
    obtain ⟨location, rfl⟩ := Error.malformed.inj same
    have inside : offset ≤ (Utf8.encode "(2))").length := by
      rcases place with ⟨token, scanned, rfl⟩ | rfl
      · have within := tokens_within scanned
        omega
      · exact Nat.le_refl _
    have third : Location.of (Utf8.encode "(2))") 3 = ⟨1, 4⟩ := by decide +kernel
    obtain rfl : offset = 3 := Location.of_inj inside (by decide) (location.symm.trans third.symm)
    have moved : Location.of (Utf8.encode "+ 1" ++ 0x0A :: Utf8.encode "(2))") 7 = ⟨2, 4⟩ := by
      decide +kernel
    rw [failsAgain]
    exact congrArg (fun place => Except.error (Error.malformed place .unmatchedClose)) moved

end ArithAsm
