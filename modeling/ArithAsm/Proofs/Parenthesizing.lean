import ArithAsm.Proofs.Reading.Depth
import ArithAsm.Proofs.Surroundings
import ArithAsm.Proofs.TokenStream

/-! Parentheses around a form. Put directly around the tokens of a form, wherever it
stands in a program, they make a group of it and change nothing else: the lines stay
the same, and only a tree that becomes too high is refused. -/
namespace ArithAsm

/-- The source with parentheses around the bytes of the span. -/
def Span.parenthesize (span : Span) (source : Bytes) : Bytes :=
  source.take span.start ++
    0x28 :: ((source.take span.stop).drop span.start ++ 0x29 :: source.drop span.stop)

/-! ## Another form in the same surroundings -/

theorem Program.unplaced_append (first second : Program) :
    Program.unplaced (first ++ second) = first.unplaced ++ second.unplaced := by
  induction first with
  | nil => rfl
  | cons form rest ih => simp only [List.cons_append, Program.unplaced, ih]

/-- A form that is the same but for its place can take the place of one. -/
theorem Layer.unplaced_wrap_congr {form other : Form} (same : form.unplaced = other.unplaced)
    (layers : List Layer) : (wrap layers form).unplaced = (wrap layers other).unplaced := by
  induction layers generalizing form other with
  | nil => exact same
  | cons layer outer ih =>
    apply ih
    cases layer with
    | dump => simp only [around, Form.unplaced, same]
    | group span before after =>
      simp only [around, Form.unplaced, Program.unplaced_append, Program.unplaced, same]

namespace Surroundings
variable {surroundings : Surroundings} {form other : Form}

theorem unplaced_fill_congr (same : form.unplaced = other.unplaced) :
    (surroundings.fill form).unplaced = (surroundings.fill other).unplaced := by
  simp only [fill, Program.unplaced_append, Program.unplaced, Layer.unplaced_wrap_congr same]

/-- A group begins and ends with a parenthesis, so it stands apart from its neighbours
wherever its only member does. -/
theorem separated_fill_group (separated : Separated (surroundings.fill form).leaves) (span : Span) :
    Separated (surroundings.fill (.group span [form])).leaves := by
  rw [leaves_fill] at separated ⊢
  have front : Separated surroundings.front := separated.left_of_append
  have own : Separated form.leaves := separated.right_of_append.left_of_append
  have rear : Separated surroundings.rear := separated.right_of_append.right_of_append
  have closing : Separated (.closeGroup span.stop :: surroundings.rear) := by
    apply rear.cons
    intro leaf _
    simp [Leaf.Apart, Leaf.endsRun]
  have inner : Separated (form.leaves ++ .closeGroup span.stop :: surroundings.rear) := by
    apply own.append closing
    intro last _ next isNext
    obtain rfl : Leaf.closeGroup span.stop = next := by simpa using isNext
    simp [Leaf.Apart, Leaf.isNumber]
  have opening : Separated (.openGroup span.start ::
      (form.leaves ++ .closeGroup span.stop :: surroundings.rear)) := by
    apply inner.cons
    intro leaf _
    simp [Leaf.Apart, Leaf.endsRun]
  have whole : Separated (surroundings.front ++ .openGroup span.start ::
      (form.leaves ++ .closeGroup span.stop :: surroundings.rear)) := by
    apply front.append opening
    intro last _ next isNext
    obtain rfl : Leaf.openGroup span.start = next := by simpa using isNext
    simp [Leaf.Apart, Leaf.isNumber]
  simpa [Form.leaves, Program.leaves] using whole

end Surroundings

/-! ## The tokens between the parentheses -/

section
variable {source : Bytes} {before own after : List Token} {first last : Token}

/-- The parentheses are tokens by themselves, and all the others stay. -/
theorem lexemes_parenthesize (scanned : tokens source = before ++ (own ++ after))
    (isFirst : own.head? = some first) (isLast : own.getLast? = some last) :
    lexemes (Span.parenthesize ⟨first.start, last.stop⟩ source) = before.map Token.lexeme ++
      .openGroup :: (own.map Token.lexeme ++ .closeGroup :: after.map Token.lexeme) := by
  obtain ⟨front, body, behind, rfl, start, stop, rfl, rfl, rfl⟩ := tokens_slice scanned isFirst isLast
  have parts : Span.parenthesize ⟨first.start, last.stop⟩ (front ++ (body ++ behind)) =
      front ++ 0x28 :: (body ++ 0x29 :: behind) := by
    rw [Span.parenthesize, ← stop, ← start, List.take_left, List.take_length_add_append, List.take_left,
      List.drop_left, List.drop_length_add_append, List.drop_left]
  have opens (rest : Bytes) : Lexeme.leading? 0x28 rest = some (.openGroup, rest) := rfl
  have closes (rest : Bytes) : Lexeme.leading? 0x29 rest = some (.closeGroup, rest) := rfl
  rw [parts, lexemes_append (by decide), lexemes_token (opens _), lexemes_append (by decide),
    lexemes_token (closes _), map_lexeme_tokensFrom, map_lexeme_tokensFrom]
  rfl

/-- Parentheses past the end of a source are apart from its tokens. -/
theorem apart_of_parentheses (scanned : tokens source = before ++ (own ++ after)) :
    (before ++ ⟨.openGroup, source.length⟩ :: (own ++ ⟨.closeGroup, source.length + 1⟩ :: after)).Pairwise
      fun token later => later.start ≠ token.start ∧ later.stop ≠ token.stop := by
  -- In which order the tokens come makes no difference, so the parentheses may come first.
  have reordered : (before ++ ⟨.openGroup, source.length⟩ ::
      (own ++ ⟨.closeGroup, source.length + 1⟩ :: after)).Perm
        (⟨.openGroup, source.length⟩ :: ⟨.closeGroup, source.length + 1⟩ :: tokens source) := by
    rw [scanned]
    refine List.perm_middle.trans (.cons _ ?_)
    rw [← List.append_assoc, ← List.append_assoc]
    exact List.perm_middle
  apply (reordered.pairwise_iff ?_).mpr
  · have inside (token : Token) (isToken : token ∈ tokens source) :
        token.start < source.length ∧ token.stop ≤ source.length := by
      have within := tokens_within isToken
      omega
    refine List.pairwise_cons.mpr ⟨?_, List.pairwise_cons.mpr ⟨?_, tokens_apart source⟩⟩
    · intro token member
      rcases List.mem_cons.mp member with rfl | isToken
      · simp [Token.stop, Lexeme.spelling]
      · have bounds := inside token isToken
        simp only [Token.stop, Lexeme.spelling, List.length_cons, List.length_nil] at bounds ⊢
        omega
    · intro token isToken
      have bounds := inside token isToken
      simp only [Token.stop, Lexeme.spelling, List.length_cons, List.length_nil] at bounds ⊢
      omega
  · intro token later apart
    exact ⟨apart.1.symm, apart.2.symm⟩

end

/-- The tokens of a program with parentheses around one of its forms write the program
with a group around that form. -/
theorem exists_parenthesized {source : Bytes} {surroundings : Surroundings} {form : Form}
    {before own after : List Token} {first last : Token}
    (scanned : tokens source = before ++ (own ++ after))
    (wrote : surroundings.WrittenBy form before own after)
    (isFirst : own.head? = some first) (isLast : own.getLast? = some last) (span : Span) :
    ∃ placed : Program, placed.unplaced = (surroundings.fill (.group span [form])).unplaced ∧
      List.Forall₂ Leaf.WrittenBy placed.leaves
        (tokens (Span.parenthesize ⟨first.start, last.stop⟩ source)) := by
  -- The parentheses are put past the end first, and moved with the other tokens then.
  have written : List.Forall₂ Leaf.WrittenBy
      (surroundings.fill (.group ⟨source.length, source.length + 2⟩ [form])).leaves
      (before ++ ⟨.openGroup, source.length⟩ :: (own ++ ⟨.closeGroup, source.length + 1⟩ :: after)) := by
    rw [Surroundings.leaves_fill]
    apply List.rel_append wrote.front
    have closing : List.Forall₂ Leaf.WrittenBy (.closeGroup (source.length + 2) :: surroundings.rear)
        (⟨.closeGroup, source.length + 1⟩ :: after) := .cons ⟨rfl, rfl⟩ wrote.rear
    have opening : List.Forall₂ Leaf.WrittenBy (.openGroup source.length ::
        (form.leaves ++ .closeGroup (source.length + 2) :: surroundings.rear))
        (⟨.openGroup, source.length⟩ :: (own ++ ⟨.closeGroup, source.length + 1⟩ :: after)) :=
      .cons ⟨rfl, rfl⟩ (List.rel_append wrote.form closing)
    simpa [Form.leaves, Program.leaves] using opening
  have same : (before ++ ⟨.openGroup, source.length⟩ ::
      (own ++ ⟨.closeGroup, source.length + 1⟩ :: after)).map Token.lexeme =
        (tokens (Span.parenthesize ⟨first.start, last.stop⟩ source)).map Token.lexeme := by
    simpa [lexemes] using (lexemes_parenthesize scanned isFirst isLast).symm
  obtain ⟨begins, ends, moves⟩ := exists_moves same (apart_of_parentheses scanned)
  refine ⟨Program.relocate begins ends
    (surroundings.fill (.group ⟨source.length, source.length + 2⟩ [form])), ?_, ?_⟩
  · rw [Program.unplaced_relocate]
    exact Surroundings.unplaced_fill_congr rfl
  · rw [Program.leaves_relocate]
    exact Leaf.written_relocate written moves

/-- With parentheses directly around the tokens of a form, a program is read with a
group around the form and compiles to the same lines, unless the group makes it too
high, which is then what is wrong with it. -/
theorem parenthesized_form_compiles_alike {source : Bytes} {surroundings : Surroundings} {form : Form}
    (parsed : parse source = .ok (surroundings.fill form)) :
    ∃ before own after first last, tokens source = before ++ (own ++ after) ∧
      surroundings.WrittenBy form before own after ∧
      own.head? = some first ∧ own.getLast? = some last ∧
      let enclosed := surroundings.fill (.group ⟨first.start, last.stop⟩ [form])
      let inserted := Span.parenthesize ⟨first.start, last.stop⟩ source
      (enclosed.height ≤ maxNesting → ∃ program, parse inserted = .ok program ∧
        program.unplaced = enclosed.unplaced ∧ ∀ (σ : Type) (sink : Sink σ) (state : σ),
          linesOffered sink state inserted = linesOffered sink state source ∧
          (compile sink state inserted).state = (compile sink state source).state ∧
          (compile sink state inserted).result = (compile sink state source).result) ∧
      (maxNesting < enclosed.height → ∃ location,
        parse inserted = .error (.malformed location (.nestingTooDeep maxNesting))) := by
  have spelled := read_eq_ok_iff.mp (parse_eq_ok_iff_read.mp parsed)
  obtain ⟨before, own, after, scanned, wrote⟩ := Surroundings.written_of_spelled spelled
  obtain ⟨first, last, isFirst, isLast⟩ := ends_of_written wrote.form
  obtain ⟨placed, same, written⟩ :=
    exists_parenthesized scanned wrote isFirst isLast ⟨first.start, last.stop⟩
  refine ⟨before, own, after, first, last, scanned, wrote, isFirst, isLast, ?_⟩
  intro enclosed inserted
  have supplied : placed.Supplied := by
    rw [← Program.supplied_unplaced, same, Program.supplied_unplaced]
    exact Surroundings.supplied_fill spelled.supplied ⟨Surroundings.supplied_of_fill spelled.supplied, trivial⟩
  have separated : Separated placed.leaves := by
    rw [← separated_unplaced, ← Program.leaves_unplaced, same, Program.leaves_unplaced,
      separated_unplaced]
    exact Surroundings.separated_fill_group spelled.separated _
  have height : placed.height = enclosed.height := by
    rw [← Program.height_unplaced, same, Program.height_unplaced]
  have lines : placed.lines = (surroundings.fill form).lines := by
    rw [← Program.lines_unplaced, same, Program.lines_unplaced]
    apply surroundings.lines_fill_congr
    simp only [Form.lines, Program.lines, List.append_nil]
  constructor
  · intro low
    have parsedAgain : parse inserted = .ok placed :=
      parse_eq_ok_iff_read.mpr (read_eq_ok_iff.mpr ⟨written, supplied, separated, height.trans_le low⟩)
    refine ⟨placed, parsedAgain, same, ?_⟩
    intro σ sink state
    refine ⟨?_, compile_of_same_lines parsed parsedAgain lines sink state⟩
    exact congrArg Prod.snd (compile_of_same_lines parsed parsedAgain lines sink.recorded (state, [])).1
  · intro high
    obtain ⟨token, -, refused⟩ := read_of_deep written supplied separated (high.trans_eq height.symm)
    exact ⟨_, parse_eq_error_iff.mpr ⟨_, refused, rfl⟩⟩

/-- The argument of a dump, in parentheses that touch its neighbours. -/
theorem parenthesized_argument_compiles_alike :
    parse (Utf8.encode "dump+1 2(3)") = .ok (Surroundings.fill ⟨[.dump], [], [.group ⟨8, 11⟩
        [.literal ⟨3, ⟨9, 10⟩⟩]]⟩ (.add [⟨1, ⟨5, 6⟩⟩, ⟨2, ⟨7, 8⟩⟩])) ∧
      ∃ program, parse (Utf8.encode "dump(+1 2)(3)") = .ok program ∧
        program.unplaced = [.dump (.group ⟨0, 0⟩ [.add [⟨1, ⟨0, 0⟩⟩, ⟨2, ⟨0, 0⟩⟩]]),
          .group ⟨0, 0⟩ [.literal ⟨3, ⟨0, 0⟩⟩]] ∧
        ∀ (σ : Type) (sink : Sink σ) (state : σ),
          linesOffered sink state (Utf8.encode "dump(+1 2)(3)") =
            linesOffered sink state (Utf8.encode "dump+1 2(3)") := by
  have scan : tokens (Utf8.encode "dump+1 2(3)") = [⟨.word (Utf8.encode "dump"), 0⟩, ⟨.plus, 4⟩,
      ⟨.numeral [0x31], 5⟩, ⟨.numeral [0x32], 7⟩, ⟨.openGroup, 8⟩, ⟨.numeral [0x33], 9⟩,
      ⟨.closeGroup, 10⟩] := by decide +kernel
  have parsed : parse (Utf8.encode "dump+1 2(3)") = .ok (Surroundings.fill ⟨[.dump], [], [.group ⟨8, 11⟩
      [.literal ⟨3, ⟨9, 10⟩⟩]]⟩ (.add [⟨1, ⟨5, 6⟩⟩, ⟨2, ⟨7, 8⟩⟩])) := by
    rw [parse, read, scan]
    rfl
  refine ⟨parsed, ?_⟩
  obtain ⟨before, own, after, first, last, scanned, wrote, isFirst, isLast, fits, -⟩ :=
    parenthesized_form_compiles_alike parsed
  obtain ⟨_, rfl⟩ := List.length_eq_one_iff.mp wrote.front.length_eq.symm
  obtain ⟨_, _, _, rfl⟩ := List.length_eq_three.mp wrote.form.length_eq.symm
  rw [scan] at scanned
  obtain ⟨-, rfl, -, rfl, -⟩ : _ ∧ _ ∧ _ ∧ _ ∧ _ := by simpa using scanned
  obtain rfl : _ = first := by simpa using isFirst
  obtain rfl : _ = last := by simpa using isLast
  obtain ⟨program, parsedAgain, same, alike⟩ := fits (by decide)
  exact ⟨program, parsedAgain, same, fun σ sink state => (alike σ sink state).1⟩

end ArithAsm
