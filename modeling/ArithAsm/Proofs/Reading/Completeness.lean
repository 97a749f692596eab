import ArithAsm.Proofs.Grammar
import ArithAsm.Proofs.Reading.Step

/-! Tokens that spell a program are read as that program. Reading the tokens of
a form leaves a reader that has taken the form in, except that an operator at
the very end still waits for the token that ends its run. -/
namespace ArithAsm

/-- Tokens that write two lists of leaves are those of the first list, then
those of the second. -/
theorem Leaf.written_append {first second : List Leaf} {written : List Token}
    {wrote : Leaf → Token → Prop} (spelled : List.Forall₂ wrote (first ++ second) written) :
    ∃ left right, written = left ++ right ∧ List.Forall₂ wrote first left ∧
      List.Forall₂ wrote second right := by
  induction first generalizing written with
  | nil => exact ⟨[], written, rfl, .nil, spelled⟩
  | cons leaf rest ih =>
    cases spelled with
    | cons head tail =>
      obtain ⟨left, right, rfl, wroteRest, wroteSecond⟩ := ih tail
      exact ⟨_ :: left, right, rfl, .cons head wroteRest, wroteSecond⟩

theorem Leaf.written_singleton {leaf : Leaf} {written : List Token}
    (spelled : List.Forall₂ WrittenBy [leaf] written) : ∃ token, written = [token] ∧ leaf.WrittenBy token := by
  obtain ⟨token, _, head, tail, rfl⟩ := List.forall₂_cons_left_iff.mp spelled
  obtain rfl := List.forall₂_nil_left_iff.mp tail
  exact ⟨token, rfl, head⟩

/-- The members of a group are written between a `(` and a `)`. -/
theorem Leaf.written_group {span : Span} {members : Program} {written : List Token}
    (spelled : List.Forall₂ WrittenBy (Form.group span members).leaves written) :
    ∃ opening inside closing, written = opening :: (inside ++ [closing]) ∧
      opening.lexeme = .openGroup ∧ closing.lexeme = .closeGroup ∧
      List.Forall₂ WrittenBy members.leaves inside := by
  obtain ⟨opening, _, opens, inner, rfl⟩ := List.forall₂_cons_left_iff.mp spelled
  obtain ⟨inside, _, rfl, spelledInside, last⟩ := Leaf.written_append inner
  obtain ⟨closing, rfl, closes⟩ := Leaf.written_singleton last
  exact ⟨opening, inside, closing, rfl, opens.1, closes.1, spelledInside⟩

/-- A literal is determined by the numeral that writes it. -/
theorem Literal.eq_ofNumeral {literal : Literal} {marked : Bool} {token : Token}
    (written : (Leaf.number literal marked).WrittenBy token) :
    ∃ digits offset, token = ⟨.numeral digits, offset⟩ ∧ decimalValue digits < UInt64.size ∧
      literal = .ofNumeral offset digits := by
  obtain ⟨lexeme, offset⟩ := token
  obtain ⟨value, span⟩ := literal
  obtain ⟨digits, rfl, small, sameValue, rfl⟩ := written
  refine ⟨digits, offset, rfl, small, ?_⟩
  have sameWord : value = (decimalValue digits).toUInt64 :=
    UInt64.toNat_inj.mp (sameValue.trans (UInt64.toNat_ofNat_of_lt' small).symm)
  rw [sameWord]
  rfl

namespace Reader
variable {reader after target : Reader} {token : Token}

/-- The reader has come to `target`, but for a run that the last of the leaves
just read may leave unfinished. -/
structure Arrives (reader : Reader) (leaves : List Leaf) (target : Reader) : Prop where
  ended : reader.endRun = .ok target
  idle : target.run = none
  pending : reader.run = none ∨ ∃ leaf ∈ leaves.getLast?, leaf.endsRun = true

theorem arrives_of_idle (leaves : List Leaf) (idle : reader.run = none) : reader.Arrives leaves reader :=
  ⟨endRun_of_none idle, idle, .inl idle⟩

/-- Only the last leaf matters for what is left unfinished. -/
theorem Arrives.prepend {leaves : List Leaf} (arrives : reader.Arrives leaves target)
    (earlier : List Leaf) : reader.Arrives (earlier ++ leaves) target := by
  refine ⟨arrives.ended, arrives.idle, arrives.pending.imp_right ?_⟩
  rintro ⟨last, member, marked⟩
  exact ⟨last, by simp [List.getLast?_append, Option.mem_def.mp member], marked⟩

/-- From the next token on, a reader that has come to `target` goes on as
`target` does, if that token does not prolong the run. -/
theorem Arrives.steps {leaves : List Leaf} {rest : List Token} (arrives : reader.Arrives leaves target)
    (free : reader.run = none ∨ token.lexeme.isNumeral = false) :
    reader.steps (token :: rest) = target.steps (token :: rest) := by
  simp only [Reader.steps, step_of_endRun free arrives.ended arrives.idle]

theorem isNumeral_of_written {leaf : Leaf} (written : leaf.WrittenBy token) :
    token.lexeme.isNumeral = leaf.isNumber := by
  obtain ⟨lexeme, offset⟩ := token
  cases leaf with
  | openGroup start => obtain ⟨rfl, _⟩ := written; rfl
  | closeGroup stop => obtain ⟨rfl, _⟩ := written; rfl
  | dump => cases written; rfl
  | operator sign => cases written; cases sign <;> rfl
  | number literal marked => obtain ⟨digits, rfl, _⟩ := written; rfl

/-- Tokens whose first leaf keeps apart from the leaves just read find the run over. -/
theorem Arrives.continues {leaves more : List Leaf} {written : List Token}
    (arrives : reader.Arrives leaves target) (spelled : List.Forall₂ Leaf.WrittenBy more written)
    (apart : ∀ last ∈ leaves.getLast?, ∀ first ∈ more.head?, last.Apart first) (nonempty : written ≠ []) :
    reader.steps written = target.steps written := by
  cases spelled with
  | nil => contradiction
  | @cons leaf token others rest head tail =>
    apply arrives.steps
    refine arrives.pending.imp_right ?_
    rintro ⟨last, member, marked⟩
    rw [isNumeral_of_written head]
    exact Bool.eq_false_iff.mpr fun number => apart last member leaf rfl ⟨marked, number⟩

/-- Numerals behind an operator become its operands. -/
theorem steps_operands {run : OperandRun} (running : reader.run = some run) (operands : List Literal)
    {written : List Token}
    (spelled : List.Forall₂ Leaf.WrittenBy (Literal.operandLeaves operands) written) :
    reader.steps written = .ok { reader with
      run := some { run with operands := operands.reverse ++ run.operands } } := by
  have unmarked : List.Forall₂ Leaf.WrittenBy (operands.map (.number · false)) written :=
    Leaf.written_congr (by simp [Literal.operandLeaves_unmarked, Leaf.unmarked]) spelled
  clear spelled
  induction operands generalizing reader run written with
  | nil =>
    cases unmarked
    simp [Reader.steps, ← running]
  | cons operand rest ih =>
    cases unmarked with
    | cons head tail =>
      obtain ⟨digits, offset, rfl, small, rfl⟩ := Literal.eq_ofNumeral head
      simp only [Reader.steps, step_operand running, Literal.read_of_lt small, Except.map, Except.bind]
      rw [ih rfl tail]
      simp

/-- An operator and its operands come to the form that they amount to. -/
private theorem steps_operator {sign : Operator} {operands : List Literal} {form : Form} {offset : Nat}
    {written : List Token} (idle : reader.run = none) (room : reader.frames.length < maxNesting)
    (amounts : OperandRun.form? ⟨sign, offset, operands.reverse⟩ = some form)
    (spelled : List.Forall₂ Leaf.WrittenBy (Literal.operandLeaves operands) written) :
    ∃ after, reader.steps (⟨sign.lexeme, offset⟩ :: written) = .ok after ∧
      after.Arrives (Literal.operandLeaves operands) (reader.push form) := by
  refine ⟨{ reader with run := some ⟨sign, offset, operands.reverse⟩ }, ?_, ?_, idle, .inr ?_⟩
  · simp only [Reader.steps, step_of_takes idle (.operator sign room), Except.bind]
    rw [steps_operands rfl operands spelled]
    simp
  · rw [endRun_eq_ok_iff]
    exact .inr ⟨_, form, rfl, amounts, by rw [← idle]⟩
  · rcases List.eq_nil_or_concat operands with rfl | ⟨earlier, last, rfl⟩
    · simp [OperandRun.form?] at amounts
    · refine ⟨.number last true, ?_, rfl⟩
      simp [Literal.operandLeaves_concat]

/-- Parentheses around forms that have been read come to a group. -/
private theorem steps_group {members : List Form} {leaves : List Leaf} {inside : List Token}
    {begins offset : Nat} (idle : reader.run = none) (room : reader.frames.length < maxNesting)
    (read : Reader.steps ⟨.group begins reader.forms :: reader.frames, [], none⟩ inside = .ok after)
    (arrives : after.Arrives leaves
      ⟨.group begins reader.forms :: reader.frames, members.reverse ++ [], none⟩) :
    reader.steps (⟨.openGroup, begins⟩ :: (inside ++ [⟨.closeGroup, offset⟩])) =
      .ok (reader.push (.group ⟨begins, offset + 1⟩ members)) := by
  obtain ⟨frames, forms, run⟩ := reader
  obtain rfl : run = none := idle
  simp only [Reader.steps, step_of_takes rfl (.opened room), Except.bind]
  rw [steps_append, read]
  simp only [Except.bind]
  rw [arrives.steps (.inr rfl)]
  have closed : Reader.step ⟨.group begins forms :: frames, members.reverse ++ [], none⟩
      ⟨.closeGroup, offset⟩ = _ := step_of_takes rfl (.closed rfl)
  simp only [Reader.steps]
  rw [closed]
  simp [Except.bind]

/-- A form that has been read is the argument of the dump in front of it. -/
private theorem steps_dump {argument : Form} {leaves : List Leaf} {written : List Token} {offset : Nat}
    (idle : reader.run = none) (room : reader.frames.length < maxNesting)
    (read : Reader.steps { reader with frames := .dump :: reader.frames } written = .ok after)
    (arrives : after.Arrives leaves
      (Reader.push { reader with frames := .dump :: reader.frames } argument)) :
    reader.steps (⟨.word (Utf8.encode "dump"), offset⟩ :: written) = .ok after ∧
      after.Arrives leaves (reader.push (.dump argument)) := by
  refine ⟨?_, arrives⟩
  simp only [Reader.steps, step_of_takes idle (.dump room), Except.bind, read]

mutual

/-- The tokens of a form are read as that form, wherever it fits. -/
theorem steps_form (form : Form) (reader : Reader) {written : List Token} (idle : reader.run = none)
    (spelled : List.Forall₂ Leaf.WrittenBy form.leaves written) (separated : Separated form.leaves)
    (supplied : form.Supplied) (shallow : reader.frames.length + form.height ≤ maxNesting) :
    ∃ after, reader.steps written = .ok after ∧ after.Arrives form.leaves (reader.push form) := by
  have room : reader.frames.length < maxNesting := by
    have := form.height_pos
    omega
  match form with
  | .literal number =>
    obtain ⟨token, _, head, tail, rfl⟩ := List.forall₂_cons_left_iff.mp spelled
    obtain rfl := List.forall₂_nil_left_iff.mp tail
    obtain ⟨digits, offset, rfl, small, rfl⟩ := Literal.eq_ofNumeral head
    refine ⟨_, ?_, arrives_of_idle _ idle⟩
    simp [Reader.steps, step_of_takes idle (.number room small), Except.bind]
  | .group ⟨begins, stop⟩ members =>
    obtain ⟨⟨_, _⟩, _, ⟨rfl, rfl⟩, inner, rfl⟩ := List.forall₂_cons_left_iff.mp spelled
    obtain ⟨inside, _, rfl, spelledInside, closing⟩ := Leaf.written_append inner
    obtain ⟨⟨_, offset⟩, _, ⟨rfl, rfl⟩, tail, rfl⟩ := List.forall₂_cons_left_iff.mp closing
    obtain rfl := List.forall₂_nil_left_iff.mp tail
    obtain ⟨within, read, arrives⟩ := steps_program members (.group _ reader.forms :: reader.frames) []
      (by simp) spelledInside separated.tail.left_of_append supplied (by
        simp only [List.length_cons, Form.height] at shallow ⊢
        omega)
    exact ⟨_, steps_group idle room read arrives, arrives_of_idle _ idle⟩
  | .dump argument =>
    obtain ⟨⟨_, _⟩, _, rfl, spelledArgument, rfl⟩ := List.forall₂_cons_left_iff.mp spelled
    obtain ⟨after, read, arrives⟩ := steps_form argument
      { reader with frames := .dump :: reader.frames } idle spelledArgument separated.tail supplied (by
        simp only [List.length_cons, Form.height] at shallow ⊢
        omega)
    obtain ⟨steps, arrives⟩ := steps_dump idle room read arrives
    exact ⟨after, steps, arrives.prepend [_]⟩
  | .add terms =>
    obtain ⟨⟨_, offset⟩, _, rfl, spelledTerms, rfl⟩ := List.forall₂_cons_left_iff.mp spelled
    have amounts : OperandRun.form? ⟨.plus, offset, terms.reverse⟩ = some (.add terms) := by
      cases terms with
      | nil => contradiction
      | cons first rest => simp [OperandRun.form?]
    obtain ⟨after, steps, arrives⟩ := steps_operator idle room amounts spelledTerms
    exact ⟨after, steps, arrives.prepend [_]⟩
  | .sub seed terms =>
    obtain ⟨⟨_, offset⟩, _, rfl, spelledTerms, rfl⟩ := List.forall₂_cons_left_iff.mp spelled
    have amounts : OperandRun.form? ⟨.minus, offset, (seed :: terms).reverse⟩ =
        some (.sub seed terms) := by
      simp [OperandRun.form?]
    obtain ⟨after, steps, arrives⟩ := steps_operator idle room amounts spelledTerms
    exact ⟨after, steps, arrives.prepend [_]⟩

/-- The tokens of forms in a row are read as those forms. -/
theorem steps_program (program : Program) (frames : List Frame) (forms : List Form)
    {written : List Token} (free : frames.head? ≠ some .dump)
    (spelled : List.Forall₂ Leaf.WrittenBy program.leaves written)
    (separated : Separated program.leaves) (supplied : program.Supplied)
    (shallow : frames.length + program.height ≤ maxNesting) :
    ∃ after, Reader.steps ⟨frames, forms, none⟩ written = .ok after ∧
      after.Arrives program.leaves ⟨frames, program.reverse ++ forms, none⟩ := by
  match program with
  | [] =>
    obtain rfl := List.forall₂_nil_left_iff.mp spelled
    exact ⟨_, rfl, arrives_of_idle _ rfl⟩
  | form :: rest =>
    obtain ⟨first, second, rfl, spelledForm, spelledRest⟩ := Leaf.written_append spelled
    obtain ⟨separatedForm, separatedRest, apart⟩ := List.isChain_append.mp separated
    simp only [Program.height] at shallow
    obtain ⟨middle, read, arrives⟩ := steps_form form ⟨frames, forms, none⟩ rfl spelledForm
      separatedForm supplied.1 (Nat.le_trans (Nat.add_le_add_left (Nat.le_max_left _ _) _) shallow)
    rw [push_of_no_dump free] at arrives
    obtain ⟨after, readRest, arrivesRest⟩ := steps_program rest frames (form :: forms) free spelledRest
      separatedRest supplied.2 (by omega)
    have whole : (form :: rest).reverse ++ forms = rest.reverse ++ form :: forms := by simp
    rw [whole]
    cases second with
    | nil =>
      cases readRest
      have same := Except.ok.inj ((endRun_of_none rfl).symm.trans arrivesRest.ended)
      have silent : Program.leaves rest = [] := List.forall₂_nil_right_iff.mp spelledRest
      rw [List.append_nil, ← same, Program.leaves, silent, List.append_nil]
      exact ⟨middle, read, arrives⟩
    | cons token tokens =>
      refine ⟨after, ?_, arrivesRest.prepend form.leaves⟩
      rw [steps_append, read]
      exact (arrives.continues spelledRest apart (by simp)).trans readRest

end

end Reader

/-- Tokens that spell a program are read as that program, wherever they stop. -/
theorem Program.read_of_spelled {program : Program} {written : List Token} (stop : Nat)
    (spelled : program.SpelledBy written) :
    (Reader.start.steps written).bind (·.finish stop) = .ok program := by
  obtain ⟨after, read, arrives⟩ := Reader.steps_program program [] [] (by simp) spelled.leaves
    spelled.separated spelled.supplied (by simpa using spelled.shallow)
  rw [show Reader.start.steps written = .ok after from read]
  exact Reader.finish_eq_ok_iff.mpr ⟨_, arrives.ended, rfl, by simp⟩

end ArithAsm
