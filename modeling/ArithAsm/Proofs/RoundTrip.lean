import ArithAsm.Proofs.Emission
import ArithAsm.Proofs.Placement
import ArithAsm.Proofs.Printing
import ArithAsm.Proofs.Reading.Exactness

/-! Printing and reading. Tokens with the lexemes of a tree write the same tree
in their own places, so a printed program is read back, places apart, exactly
when its operators have operands and take all literals behind them and the tree
is not too high. -/
namespace ArithAsm

/-! ## Putting a tree into place -/

/-- A literal takes the place of the numeral that has its text. -/
private theorem place_literal {literal : Literal} {token : Token}
    (same : token.lexeme = .numeral (Utf8.encode literal.text)) :
    ∃ placed : Literal, placed.unplaced = literal.unplaced ∧
      ∀ marked, (Leaf.number placed marked).WrittenBy token := by
  refine ⟨⟨literal.value, token.span⟩, rfl, fun marked => ⟨_, same, ?_, ?_, rfl⟩⟩
  · rw [Literal.text, Utf8.decimalValue_encode_repr]
    exact literal.value.toNat_lt
  · rw [Literal.text, Utf8.decimalValue_encode_repr]

private theorem place_operands {operands : List Literal} {written : List Token}
    (same : written.map Token.lexeme = (Literal.operandLeaves operands).map Leaf.lexeme) :
    ∃ placed : List Literal, placed.map Literal.unplaced = operands.map Literal.unplaced ∧
      List.Forall₂ Leaf.WrittenBy (Literal.operandLeaves placed) written := by
  rw [Literal.operandLeaves_lexeme] at same
  have unmarked : ∃ placed : List Literal,
      placed.map Literal.unplaced = operands.map Literal.unplaced ∧
        List.Forall₂ Leaf.WrittenBy (placed.map (.number · false)) written := by
    induction operands generalizing written with
    | nil =>
      obtain rfl := List.map_eq_nil_iff.mp same
      exact ⟨[], rfl, .nil⟩
    | cons operand rest ih =>
      obtain ⟨token, tokens, rfl, head, tail⟩ := List.map_eq_cons_iff.mp same
      obtain ⟨first, sameFirst, writtenFirst⟩ := place_literal head
      obtain ⟨others, sameOthers, writtenOthers⟩ := ih tail
      exact ⟨first :: others, by simp [sameFirst, sameOthers], .cons (writtenFirst false) writtenOthers⟩
  obtain ⟨placed, sameShape, spelled⟩ := unmarked
  refine ⟨placed, sameShape, Leaf.written_congr ?_ spelled⟩
  simp [Literal.operandLeaves_unmarked, Leaf.unmarked]

mutual

/-- A form can be put where the tokens are that have its lexemes. -/
theorem place_form (form : Form) {written : List Token}
    (same : written.map Token.lexeme = form.leaves.map Leaf.lexeme) :
    ∃ placed : Form, placed.unplaced = form.unplaced ∧
      List.Forall₂ Leaf.WrittenBy placed.leaves written := by
  match form with
  | .literal number =>
    obtain ⟨token, tokens, rfl, head, tail⟩ := List.map_eq_cons_iff.mp same
    obtain rfl := List.map_eq_nil_iff.mp tail
    obtain ⟨placed, sameShape, spelled⟩ := place_literal head
    exact ⟨.literal placed, by simp [Form.unplaced, sameShape], .cons (spelled false) .nil⟩
  | .group span members =>
    simp only [Form.leaves, List.map_cons, List.map_append, List.map_nil] at same
    obtain ⟨opening, tokens, rfl, opens, inner⟩ := List.map_eq_cons_iff.mp same
    obtain ⟨inside, closings, rfl, sameInside, closing⟩ := List.map_eq_append_iff.mp inner
    obtain ⟨last, tokens, rfl, closes, tail⟩ := List.map_eq_cons_iff.mp closing
    obtain rfl := List.map_eq_nil_iff.mp tail
    obtain ⟨placed, sameShape, spelled⟩ := place_program members sameInside
    refine ⟨.group ⟨opening.start, last.stop⟩ placed, by simp [Form.unplaced, sameShape], ?_⟩
    exact .cons ⟨opens, rfl⟩ (List.rel_append spelled (.cons ⟨closes, rfl⟩ .nil))
  | .dump argument =>
    obtain ⟨token, tokens, rfl, head, tail⟩ := List.map_eq_cons_iff.mp same
    obtain ⟨placed, sameShape, spelled⟩ := place_form argument tail
    exact ⟨.dump placed, by simp [Form.unplaced, sameShape], .cons head spelled⟩
  | .add terms =>
    obtain ⟨token, tokens, rfl, head, tail⟩ := List.map_eq_cons_iff.mp same
    obtain ⟨placed, sameShape, spelled⟩ := place_operands tail
    exact ⟨.add placed, by simp [Form.unplaced, sameShape], .cons head spelled⟩
  | .sub seed terms =>
    obtain ⟨token, tokens, rfl, head, tail⟩ := List.map_eq_cons_iff.mp same
    obtain ⟨placed, sameShape, spelled⟩ := place_operands tail
    obtain ⟨first, others, rfl, sameSeed, sameTerms⟩ := List.map_eq_cons_iff.mp sameShape
    exact ⟨.sub first others, by simp [Form.unplaced, sameSeed, sameTerms], .cons head spelled⟩

/-- Forms can be put where the tokens are that have their lexemes. -/
theorem place_program (program : Program) {written : List Token}
    (same : written.map Token.lexeme = program.leaves.map Leaf.lexeme) :
    ∃ placed : Program, placed.unplaced = program.unplaced ∧
      List.Forall₂ Leaf.WrittenBy placed.leaves written := by
  match program with
  | [] =>
    obtain rfl := List.map_eq_nil_iff.mp same
    exact ⟨[], rfl, .nil⟩
  | form :: rest =>
    simp only [Program.leaves, List.map_append] at same
    obtain ⟨first, others, rfl, sameForm, sameRest⟩ := List.map_eq_append_iff.mp same
    obtain ⟨placedForm, sameShape, spelled⟩ := place_form form sameForm
    obtain ⟨placedRest, sameShapes, spelledRest⟩ := place_program rest sameRest
    exact ⟨placedForm :: placedRest, by simp [Program.unplaced, sameShape, sameShapes],
      List.rel_append spelled spelledRest⟩

end

/-! ## Reading back -/

/-- The trees that survive being printed and read. -/
structure Program.Printable (program : Program) : Prop where
  supplied : program.Supplied
  separated : Separated program.leaves
  shallow : program.height ≤ maxNesting

/-- Places make no difference to which trees survive. -/
theorem Program.printable_congr {first second : Program} (same : first.unplaced = second.unplaced)
    (printable : first.Printable) : second.Printable where
  supplied := second.supplied_unplaced.mp (same ▸ first.supplied_unplaced.mpr printable.supplied)
  separated := by
    rw [← separated_unplaced, ← Program.leaves_unplaced, ← same, Program.leaves_unplaced,
      separated_unplaced]
    exact printable.separated
  shallow := by
    rw [← second.height_unplaced, ← same, first.height_unplaced]
    exact printable.shallow

/-- A printed program is read back, places apart, exactly if it survives. -/
theorem Program.read_back_iff (program : Program) :
    (∃ again, parse (Utf8.encode program.text) = .ok again ∧ again.unplaced = program.unplaced) ↔
      program.Printable := by
  constructor
  · rintro ⟨again, parsed, same⟩
    have spelled := read_eq_ok_iff.mp (parse_eq_ok_iff_read.mp parsed)
    exact printable_congr same ⟨spelled.supplied, spelled.separated, spelled.shallow⟩
  · intro printable
    obtain ⟨again, same, spelled⟩ := place_program program (lexemes_program program)
    have survives := printable_congr same.symm printable
    exact ⟨again, parse_eq_ok_iff_read.mpr (read_eq_ok_iff.mpr
      ⟨spelled, survives.supplied, survives.separated, survives.shallow⟩), same⟩

/-- What is written to a sink depends on the lines of the program alone. -/
theorem emit_congr {σ : Type} {first second : Program} (same : first.lines = second.lines)
    (sink : Sink σ) (state : σ) : first.emit sink state = second.emit sink state := by
  simp only [Program.emit, emitProgram_eq_feed, same]

/-- Programs with the same lines leave every sink the same. -/
theorem compile_of_same_lines {σ : Type} {first second : Bytes} {program again : Program}
    (parsed : parse first = .ok program) (parsedAgain : parse second = .ok again)
    (same : again.lines = program.lines) (sink : Sink σ) (state : σ) :
    (compile sink state second).state = (compile sink state first).state ∧
      (compile sink state second).result = (compile sink state first).result := by
  simp only [compile, parsed, parsedAgain, emit_congr same, and_self]

/-- So do programs with the same forms, places apart. -/
theorem compile_congr {σ : Type} {first second : Bytes} {program again : Program}
    (parsed : parse first = .ok program) (parsedAgain : parse second = .ok again)
    (same : again.unplaced = program.unplaced) (sink : Sink σ) (state : σ) :
    (compile sink state second).state = (compile sink state first).state ∧
      (compile sink state second).result = (compile sink state first).result := by
  have lines : again.lines = program.lines := by
    rw [← Program.lines_unplaced, same, Program.lines_unplaced]
  exact compile_of_same_lines parsed parsedAgain lines sink state

/-- Printing and reading are inverse, places apart, on the programs whose
additions have operands, in which no literal directly follows the last operand
of an operator, and whose height is within the limit, and on no others. Every
source that parses is one of those, and its printed form compiles to the same
lines, for every sink. -/
theorem printed_program_reads_back :
    (∀ program : Program,
      (∃ again, parse (Utf8.encode program.text) = .ok again ∧ again.unplaced = program.unplaced) ↔
        program.Supplied ∧ Separated program.leaves ∧ program.height ≤ maxNesting) ∧
    ∀ (source : Bytes) (program : Program), parse source = .ok program →
      ∃ again, parse (Utf8.encode program.text) = .ok again ∧ again.unplaced = program.unplaced ∧
        ∀ (σ : Type) (sink : Sink σ) (state : σ),
          (compile sink state (Utf8.encode program.text)).state = (compile sink state source).state ∧
          (compile sink state (Utf8.encode program.text)).result =
            (compile sink state source).result := by
  refine ⟨fun program => program.read_back_iff.trans
    ⟨fun survives => ⟨survives.supplied, survives.separated, survives.shallow⟩,
      fun ⟨supplied, separated, shallow⟩ => ⟨supplied, separated, shallow⟩⟩, ?_⟩
  intro source program parsed
  have spelled := read_eq_ok_iff.mp (parse_eq_ok_iff_read.mp parsed)
  obtain ⟨again, parsedAgain, same⟩ :=
    program.read_back_iff.mpr ⟨spelled.supplied, spelled.separated, spelled.shallow⟩
  exact ⟨again, parsedAgain, same, fun σ sink state => compile_congr parsed parsedAgain same sink state⟩

/-- A zero in front of a numeral is not printed, and nothing else is lost. -/
theorem printed_padded_sum_reads_back :
    parse (Utf8.encode "+ 1 02") = .ok [.add [⟨1, ⟨2, 3⟩⟩, ⟨2, ⟨4, 6⟩⟩]] ∧
      ∃ again, parse (Utf8.encode "+ 1 2") = .ok again ∧
        again.unplaced = [.add [⟨1, ⟨0, 0⟩⟩, ⟨2, ⟨0, 0⟩⟩]] := by
  have parsed : parse (Utf8.encode "+ 1 02") = .ok [.add [⟨1, ⟨2, 3⟩⟩, ⟨2, ⟨4, 6⟩⟩]] := by
    rw [parse, read, show tokens (Utf8.encode "+ 1 02") = [⟨.plus, 0⟩, ⟨.numeral [0x31], 2⟩,
      ⟨.numeral [0x30, 0x32], 4⟩] by decide +kernel]
    rfl
  have printed : Program.text [.add [⟨1, ⟨2, 3⟩⟩, ⟨2, ⟨4, 6⟩⟩]] = "+ 1 2" := by decide +kernel
  obtain ⟨again, parsedAgain, same, _⟩ := printed_program_reads_back.2 _ _ parsed
  rw [printed] at parsedAgain
  exact ⟨parsed, again, parsedAgain, same⟩

end ArithAsm
