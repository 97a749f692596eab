import ArithAsm.Proofs.Reading.Completeness
import ArithAsm.Proofs.Reading.Refusal

/-! Trees that are too high. Tokens that would spell a program but for its height are
refused for that and for nothing else, at the first token that begins a form inside of as
many others as the limit allows. -/
namespace ArithAsm

theorem Form.not_begins_close (form : Form) (stop : Nat) :
    form.leaves.head? ≠ some (.closeGroup stop) := by
  cases form <;> simp [Form.leaves]

mutual

/-- For each token of a form inside of `outer` others, how many forms enclose the form
that the token begins. Operands and closing parentheses begin none. -/
def Form.levels : Form → Nat → List (Option Nat)
  | .literal _, outer => [some outer]
  | .group _ members, outer => some outer :: (Program.levels members (outer + 1) ++ [none])
  | .dump argument, outer => some outer :: argument.levels (outer + 1)
  | .add terms, outer => some outer :: terms.map fun _ => none
  | .sub seed terms, outer => some outer :: (seed :: terms).map fun _ => none

/-- The same for the tokens of forms in a row. -/
def Program.levels : Program → Nat → List (Option Nat)
  | [], _ => []
  | form :: rest, outer => form.levels outer ++ Program.levels rest outer

end

/-- The first of the tokens that begins a form inside of as many others as the limit
allows. -/
def firstAtLimit? (levels : List (Option Nat)) (written : List Token) : Option Token :=
  (levels.zip written).lookup (some maxNesting)

theorem Form.head_levels (form : Form) (outer : Nat) : (form.levels outer).head? = some (some outer) := by
  cases form <;> rfl

theorem Literal.length_operandLeaves (operands : List Literal) :
    (operandLeaves operands).length = operands.length := by
  simpa using congrArg List.length (operandLeaves_unmarked operands)

mutual

theorem Form.length_levels (form : Form) (outer : Nat) : (form.levels outer).length = form.leaves.length := by
  match form with
  | .literal _ => rfl
  | .group _ members =>
    simp [Form.levels, Form.leaves, Program.length_levels members (outer + 1)]
  | .dump argument => simp [Form.levels, Form.leaves, Form.length_levels argument (outer + 1)]
  | .add terms => simp [Form.levels, Form.leaves, Literal.length_operandLeaves]
  | .sub seed terms => simp [Form.levels, Form.leaves, Literal.length_operandLeaves]

theorem Program.length_levels (program : Program) (outer : Nat) :
    (program.levels outer).length = program.leaves.length := by
  match program with
  | [] => rfl
  | form :: rest =>
    simp [Program.levels, Program.leaves, Form.length_levels form outer, Program.length_levels rest outer]

end

mutual

/-- A form inside of another is enclosed by fewer forms than the other is high. -/
theorem Form.lt_of_mem_levels (form : Form) {outer level : Nat} (begun : some level ∈ form.levels outer) :
    level < outer + form.height := by
  match form with
  | .literal _ | .add _ | .sub _ _ =>
    obtain rfl : level = outer := by simpa [Form.levels] using begun
    simp [Form.height]
  | .group _ members =>
    simp only [Form.levels, List.mem_cons, List.mem_append, Option.some.injEq, reduceCtorEq,
      List.not_mem_nil, or_false] at begun
    simp only [Form.height]
    rcases begun with rfl | inside
    · omega
    · have := Program.lt_of_mem_levels members inside
      omega
  | .dump argument =>
    simp only [Form.levels, List.mem_cons, Option.some.injEq] at begun
    simp only [Form.height]
    rcases begun with rfl | inside
    · omega
    · have := Form.lt_of_mem_levels argument inside
      omega

theorem Program.lt_of_mem_levels (program : Program) {outer level : Nat}
    (begun : some level ∈ program.levels outer) : level < outer + program.height := by
  match program with
  | [] => simp [Program.levels] at begun
  | form :: rest =>
    simp only [Program.height]
    rcases List.mem_append.mp begun with here | later
    · have := Form.lt_of_mem_levels form here
      omega
    · have := Program.lt_of_mem_levels rest later
      omega

end

/-- Tokens that only begin forms elsewhere are passed over. -/
theorem firstAtLimit_append {levels more : List (Option Nat)} {first second : List Token}
    (same : levels.length = first.length) (absent : some maxNesting ∉ levels) :
    firstAtLimit? (levels ++ more) (first ++ second) = firstAtLimit? more second := by
  have passed : (levels.zip first).lookup (some maxNesting) = none := by
    rw [List.lookup_eq_none_iff]
    rintro ⟨level, token⟩ member
    have isLevel := (List.of_mem_zip member).1
    simp only [bne_iff_ne]
    rintro rfl
    exact absent isLevel
  rw [firstAtLimit?, List.zip_append same, List.lookup_append, passed, Option.none_or]
  rfl

namespace Reader
variable {reader : Reader} {token : Token}

/-- The tokens are refused at the first that begins a form beyond the limit. -/
def RefusesDepth (reader : Reader) (levels : List (Option Nat)) (written : List Token) : Prop :=
  ∃ token, firstAtLimit? levels written = some token ∧
    reader.steps written = .error ⟨.nestingTooDeep maxNesting, token.start⟩

/-- What is refused is refused whatever follows. -/
theorem RefusesDepth.append {levels : List (Option Nat)} {first : List Token}
    (refuses : reader.RefusesDepth levels first) (same : levels.length = first.length)
    (more : List (Option Nat)) (second : List Token) :
    reader.RefusesDepth (levels ++ more) (first ++ second) := by
  obtain ⟨token, found, refused⟩ := refuses
  refine ⟨token, ?_, ?_⟩
  · rw [firstAtLimit?] at found ⊢
    rw [List.zip_append same, List.lookup_append, found, Option.some_or]
  · rw [steps_append, refused]
    rfl

/-- A reader that takes in the first of the tokens refuses them if it then refuses the
others. -/
theorem RefusesDepth.cons {after : Reader} {levels : List (Option Nat)} {rest : List Token} {level : Nat}
    (taken : reader.step token = .ok after) (room : level < maxNesting)
    (refuses : after.RefusesDepth levels rest) :
    reader.RefusesDepth (some level :: levels) (token :: rest) := by
  obtain ⟨refused, found, fails⟩ := refuses
  refine ⟨refused, ?_, ?_⟩
  · have passed : some maxNesting ∉ [some level] := by simpa using Nat.ne_of_gt room
    have same : [some level].length = [token].length := rfl
    exact (firstAtLimit_append same passed).trans found
  · simp only [Reader.steps, taken, Except.bind, fails]

/-- A form does not fit where no more may be enclosed. -/
theorem refusesDepth_of_full {form : Form} {written : List Token} (idle : reader.run = none)
    (full : maxNesting = reader.frames.length)
    (spelled : List.Forall₂ Leaf.WrittenBy form.leaves written) :
    reader.RefusesDepth (form.levels reader.frames.length) written := by
  cases shape : form.leaves with
  | nil => exact absurd shape form.leaves_ne_nil
  | cons leaf leaves =>
    rw [shape] at spelled
    obtain ⟨token, rest, head, -, rfl⟩ := List.forall₂_cons_left_iff.mp spelled
    have begins : token.lexeme ≠ .closeGroup := by
      intro closes
      cases leaf with
      | closeGroup stop => exact form.not_begins_close stop (by rw [shape, List.head?_cons])
      | openGroup start => cases closes.symm.trans head.1
      | dump => cases closes.symm.trans head
      | operator sign =>
        have same := closes.symm.trans head
        cases sign <;> cases same
      | number literal marked =>
        obtain ⟨digits, numeral, -⟩ := head
        cases closes.symm.trans numeral
    have refused : reader.step token = .error ⟨.nestingTooDeep maxNesting, token.start⟩ := by
      rw [step_item (.inl idle), endRun_of_none idle]
      exact item_eq_error_iff.mpr ⟨.tooDeep full.le fun closes => absurd closes begins, rfl⟩
    obtain ⟨more, levels⟩ := List.head?_eq_some_iff.mp (form.head_levels reader.frames.length)
    refine ⟨token, ?_, ?_⟩
    · rw [firstAtLimit?, levels, ← full, List.zip_cons_cons, List.lookup_cons_self]
    · simp only [Reader.steps, refused, Except.bind]

mutual

/-- The tokens of a form that is too high for its place are refused for its height. -/
theorem refusesDepth_of_form (form : Form) (reader : Reader) {written : List Token}
    (idle : reader.run = none) (spelled : List.Forall₂ Leaf.WrittenBy form.leaves written)
    (separated : Separated form.leaves) (supplied : form.Supplied)
    (fits : reader.frames.length ≤ maxNesting) (deep : maxNesting < reader.frames.length + form.height) :
    reader.RefusesDepth (form.levels reader.frames.length) written := by
  rcases fits.eq_or_lt with full | room
  · exact refusesDepth_of_full idle full.symm spelled
  match form with
  | .literal _ | .add _ | .sub _ _ =>
    simp only [Form.height] at deep
    omega
  | .dump argument =>
    obtain ⟨⟨_, offset⟩, _, rfl, spelledArgument, rfl⟩ := List.forall₂_cons_left_iff.mp spelled
    apply RefusesDepth.cons (step_of_takes idle (.dump room)) room
    apply refusesDepth_of_form argument { reader with frames := .dump :: reader.frames } idle
      spelledArgument separated.tail supplied room
    simp only [List.length_cons, Form.height] at deep ⊢
    omega
  | .group span members =>
    obtain ⟨⟨_, _⟩, _, ⟨rfl, rfl⟩, inner, rfl⟩ := List.forall₂_cons_left_iff.mp spelled
    obtain ⟨inside, closing, rfl, spelledInside, -⟩ := Leaf.written_append inner
    apply RefusesDepth.cons (step_of_takes idle (.opened room)) room
    rw [idle]
    refine RefusesDepth.append ?_ ((Program.length_levels members _).trans spelledInside.length_eq) _ _
    apply refusesDepth_of_program members (.group span.start reader.forms :: reader.frames) [] (by simp)
      spelledInside separated.tail.left_of_append supplied
    · exact room
    · simp only [List.length_cons, Form.height] at deep ⊢
      omega

/-- The tokens of forms of which one is too high are refused for its height. -/
theorem refusesDepth_of_program (program : Program) (frames : List Frame) (forms : List Form)
    {written : List Token} (free : frames.head? ≠ some .dump)
    (spelled : List.Forall₂ Leaf.WrittenBy program.leaves written)
    (separated : Separated program.leaves) (supplied : program.Supplied)
    (room : frames.length ≤ maxNesting) (deep : maxNesting < frames.length + program.height) :
    Reader.RefusesDepth ⟨frames, forms, none⟩ (program.levels frames.length) written := by
  match program with
  | [] =>
    simp only [Program.height] at deep
    omega
  | form :: rest =>
    obtain ⟨first, second, rfl, spelledForm, spelledRest⟩ := Leaf.written_append spelled
    obtain ⟨separatedForm, separatedRest, apart⟩ := List.isChain_append.mp separated
    have same : (form.levels frames.length).length = first.length :=
      (form.length_levels _).trans spelledForm.length_eq
    simp only [Program.height] at deep
    by_cases high : maxNesting < frames.length + form.height
    · exact (refusesDepth_of_form form ⟨frames, forms, none⟩ rfl spelledForm separatedForm
        supplied.1 room high).append same _ second
    · -- The form fits and is taken in, so one behind it is too high.
      obtain ⟨middle, read, arrives⟩ := steps_form form ⟨frames, forms, none⟩ rfl spelledForm
        separatedForm supplied.1 (Nat.le_of_not_lt high)
      rw [push_of_no_dump free] at arrives
      obtain ⟨token, found, refused⟩ := refusesDepth_of_program rest frames (form :: forms) free
        spelledRest separatedRest supplied.2 room (by omega)
      have absent : some maxNesting ∉ form.levels frames.length := fun begun =>
        high (form.lt_of_mem_levels begun)
      refine ⟨token, (firstAtLimit_append same absent).trans found, ?_⟩
      have nonempty : second ≠ [] := by
        rintro rfl
        simp [Reader.steps] at refused
      rw [steps_append, read]
      exact (arrives.continues spelledRest apart nonempty).trans refused

end

end Reader

/-- A source whose tokens would spell a program, were it not too high, is refused for
the height, at the first form that is too deep. -/
theorem read_of_deep {source : Bytes} {program : Program}
    (spelled : List.Forall₂ Leaf.WrittenBy program.leaves (tokens source))
    (supplied : program.Supplied) (separated : Separated program.leaves)
    (deep : maxNesting < program.height) :
    ∃ token, firstAtLimit? (program.levels 0) (tokens source) = some token ∧
      read source = .error ⟨.nestingTooDeep maxNesting, token.start⟩ := by
  obtain ⟨token, found, refused⟩ := Reader.refusesDepth_of_program program [] [] (by simp) spelled
    separated supplied (Nat.zero_le _) (by simpa using deep)
  refine ⟨token, found, ?_⟩
  rw [read, show Reader.start.steps (tokens source) = _ from refused]
  rfl

end ArithAsm
