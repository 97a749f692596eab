import ArithAsm.Proofs.Grammar
import ArithAsm.Proofs.Reading.Step

/-! What a reader holds is spelled by the tokens that it has taken in. The
leaves held in frames, forms and the run of operands grow by one leaf with each
token, and every form held keeps the room that the frames around it leave. -/
namespace ArithAsm

/-- The leaves of what has been read: the open frames, innermost first, and the
forms of the innermost sequence, latest first. -/
def Frame.leaves : List Frame → List Form → List Leaf
  | [], forms => Program.leaves forms.reverse
  | .dump :: frames, forms => Frame.leaves frames forms ++ [.dump]
  | .group start earlier :: frames, forms =>
    Frame.leaves frames earlier ++ .openGroup start :: Program.leaves forms.reverse

/-- The leaves of an operator and the operands collected so far, as if there
were no more. -/
def OperandRun.leaves (run : OperandRun) : List Leaf :=
  .operator run.operator :: Literal.operandLeaves run.operands.reverse

/-- The leaves of everything that the reader holds. -/
def Reader.leaves (reader : Reader) : List Leaf :=
  Frame.leaves reader.frames reader.forms ++ reader.run.elim [] OperandRun.leaves

/-- The form may stand inside `depth` others. -/
structure Form.Fits (form : Form) (depth : Nat) : Prop where
  supplied : form.Supplied
  shallow : depth + form.height ≤ maxNesting

/-- Every form held fits where it stands. -/
def Frame.Hold : List Frame → List Form → Prop
  | [], forms => ∀ form ∈ forms, form.Fits 0
  | .dump :: frames, forms => Frame.Hold frames forms
  | .group _ earlier :: frames, forms =>
    (∀ form ∈ forms, form.Fits (frames.length + 1)) ∧ Frame.Hold frames earlier

/-! ## Taking in a form -/

theorem Frame.leaves_settle (frames : List Frame) (form : Form) (forms : List Form) :
    Frame.leaves (Frame.settle frames form).1 ((Frame.settle frames form).2 :: forms) =
      Frame.leaves frames forms ++ form.leaves := by
  induction frames generalizing form with
  | nil => simp [Frame.settle, Frame.leaves, Program.leaves_append, Program.leaves]
  | cons frame frames ih =>
    cases frame with
    | group start earlier =>
      simp [Frame.settle, Frame.leaves, Program.leaves_append, Program.leaves]
    | dump => simp [Frame.settle, Frame.leaves, ih, Form.leaves]

theorem Frame.hold_settle {frames : List Frame} {form : Form} {forms : List Form}
    (hold : Frame.Hold frames forms) (fits : form.Fits frames.length) :
    Frame.Hold (Frame.settle frames form).1 ((Frame.settle frames form).2 :: forms) := by
  induction frames generalizing form with
  | nil => exact List.forall_mem_cons.mpr ⟨fits, hold⟩
  | cons frame frames ih =>
    cases frame with
    | group start earlier => exact ⟨List.forall_mem_cons.mpr ⟨fits, hold.1⟩, hold.2⟩
    | dump =>
      have wrapped : (Form.dump form).Fits frames.length := by
        refine ⟨fits.supplied, ?_⟩
        have bound := fits.shallow
        simp only [List.length_cons, Form.height] at bound ⊢
        omega
      exact ih hold wrapped

namespace Reader
variable {reader middle after : Reader} {token : Token} {form : Form}

theorem leaves_push (idle : reader.run = none) (form : Form) :
    (reader.push form).leaves = reader.leaves ++ form.leaves := by
  simp [leaves, push, idle, Frame.leaves_settle]

theorem length_frames_push_le (reader : Reader) (form : Form) :
    (reader.push form).frames.length ≤ reader.frames.length := by
  rw [push_frames]
  exact (List.dropWhile_sublist Frame.isDump).length_le

/-! ## Ending a run -/

/-- The form of a run has the leaves of the run and needs no more room than its
operator. -/
theorem form_of_run {run : OperandRun} (amounts : run.form? = some form) :
    form.leaves = run.leaves ∧ form.Supplied ∧ form.height = 1 := by
  obtain ⟨operator, start, operands⟩ := run
  simp only [OperandRun.form?, OperandRun.leaves] at amounts ⊢
  generalize operands.reverse = ordered at amounts ⊢
  cases ordered with
  | nil => simp at amounts
  | cons seed terms =>
    cases operator <;> cases amounts <;> simp [Form.leaves, Form.Supplied, Form.height]

/-- What holds of a reader after the tokens `read`. -/
structure Follows (reader : Reader) (read : List Token) : Prop where
  written : List.Forall₂ Leaf.WrittenBy reader.leaves read
  separated : Separated reader.leaves
  /-- A run that is over has been followed by something else. -/
  settled : reader.run = none → ∀ leaf ∈ reader.leaves.getLast?, leaf.endsRun = false
  hold : Frame.Hold reader.frames reader.forms
  room : reader.frames.length ≤ maxNesting
  /-- The operator of a run is itself inside the frames. -/
  runRoom : reader.run.isSome → reader.frames.length < maxNesting

theorem endRun_keeps {read : List Token} (follows : reader.Follows read)
    (ended : reader.endRun = .ok middle) :
    middle.run = none ∧ middle.leaves = reader.leaves ∧ Frame.Hold middle.frames middle.forms ∧
      middle.frames.length ≤ maxNesting := by
  rcases endRun_eq_ok_iff.mp ended with ⟨idle, rfl⟩ | ⟨run, form, running, amounts, rfl⟩
  · exact ⟨idle, rfl, follows.hold, follows.room⟩
  · obtain ⟨sameLeaves, supplied, height⟩ := form_of_run amounts
    have fits : form.Fits reader.frames.length :=
      ⟨supplied, by rw [height]; exact follows.runRoom (by simp [running])⟩
    refine ⟨rfl, ?_, Frame.hold_settle follows.hold fits,
      Nat.le_trans (length_frames_push_le _ _) follows.room⟩
    rw [leaves_push rfl, sameLeaves]
    simp [leaves, running]

/-! ## Taking in a token -/

/-- A token brings one leaf, which it writes and which ends no run. -/
theorem leaf_of_takes (idle : reader.run = none) (takes : reader.Takes token after) :
    ∃ leaf : Leaf, leaf.WrittenBy token ∧ leaf.endsRun = false ∧
      leaf.isNumber = token.lexeme.isNumeral ∧ after.leaves = reader.leaves ++ [leaf] := by
  cases takes with
  | @opened start room =>
    exact ⟨.openGroup start, ⟨rfl, rfl⟩, rfl, rfl, by simp [leaves, idle, Frame.leaves, Program.leaves]⟩
  | @closed offset start earlier frames inside =>
    refine ⟨.closeGroup (offset + 1), ⟨rfl, rfl⟩, rfl, rfl, ?_⟩
    rw [leaves_push (show Reader.run ⟨frames, earlier, reader.run⟩ = none from idle)]
    simp [leaves, idle, inside, Frame.leaves, Form.leaves]
  | @number offset digits room small =>
    refine ⟨.number (.ofNumeral offset digits) false, ⟨digits, rfl, small, ?_, rfl⟩, rfl, rfl, ?_⟩
    · exact UInt64.toNat_ofNat_of_lt' small
    · rw [leaves_push idle, Form.leaves]
  | operator sign room =>
    refine ⟨.operator sign, rfl, rfl, by cases sign <;> rfl, ?_⟩
    simp [leaves, idle, OperandRun.leaves, Literal.operandLeaves]
  | dump room => exact ⟨.dump, rfl, rfl, rfl, by simp [leaves, idle, Frame.leaves]⟩

/-- Taking in a token leaves every form where it fits. -/
theorem hold_of_takes (hold : Frame.Hold reader.frames reader.forms)
    (room : reader.frames.length ≤ maxNesting) (idle : reader.run = none)
    (takes : reader.Takes token after) :
    Frame.Hold after.frames after.forms ∧ after.frames.length ≤ maxNesting ∧
      (after.run.isSome → after.frames.length < maxNesting) := by
  cases takes with
  | opened room => exact ⟨⟨by simp, hold⟩, room, by simp [idle]⟩
  | @closed offset start earlier frames inside =>
    rw [inside] at hold room
    have fits : (Form.group ⟨start, offset + 1⟩ reader.forms.reverse).Fits frames.length := by
      refine ⟨(Program.supplied_iff _).mpr fun form member =>
        (hold.1 form (List.mem_reverse.mp member)).supplied, ?_⟩
      have members : Program.height reader.forms.reverse ≤ maxNesting - (frames.length + 1) := by
        refine (Program.height_le_iff _ _).mpr fun form member => ?_
        have bound := (hold.1 form (List.mem_reverse.mp member)).shallow
        omega
      simp only [List.length_cons, Form.height] at room ⊢
      omega
    exact ⟨Frame.hold_settle hold.2 fits, Nat.le_trans (length_frames_push_le _ _)
      (Nat.le_of_succ_le room), by simp [idle]⟩
  | @number offset digits below small =>
    have fits : (Form.literal (.ofNumeral offset digits)).Fits reader.frames.length :=
      ⟨trivial, below⟩
    exact ⟨Frame.hold_settle hold fits, Nat.le_trans (length_frames_push_le _ _) room, by simp [idle]⟩
  | operator sign below => exact ⟨hold, room, fun _ => below⟩
  | dump below => exact ⟨hold, below, by simp [idle]⟩

/-- A further operand ends the run in place of the one before it. -/
theorem follows_operand {read : List Token} {run : OperandRun} {digits : Bytes} {offset : Nat}
    (follows : reader.Follows read) (running : reader.run = some run)
    (small : decimalValue digits < UInt64.size) :
    Follows { reader with
        run := some { run with operands := .ofNumeral offset digits :: run.operands } }
      (read ++ [⟨.numeral digits, offset⟩]) := by
  have before : reader.leaves = Frame.leaves reader.frames reader.forms ++
      .operator run.operator :: Literal.operandLeaves run.operands.reverse := by
    simp [leaves, running, OperandRun.leaves]
  have written := follows.written
  have separated := follows.separated
  rw [before] at written separated
  refine ⟨?_, ?_, by simp, follows.hold, follows.room,
    fun _ => follows.runRoom (by simp [running])⟩
  · have unmarked : List.Forall₂ Leaf.WrittenBy (Frame.leaves reader.frames reader.forms ++
        .operator run.operator :: run.operands.reverse.map (.number · false)) read := by
      refine Leaf.written_congr ?_ written
      simp [Literal.operandLeaves_unmarked, Leaf.unmarked]
    have last : (Leaf.number (.ofNumeral offset digits) true).WrittenBy ⟨.numeral digits, offset⟩ :=
      ⟨digits, rfl, small, UInt64.toNat_ofNat_of_lt' small, rfl⟩
    have extended := List.rel_append unmarked (.cons last .nil)
    simpa [leaves, OperandRun.leaves, Literal.operandLeaves_concat] using extended
  · simp only [leaves, OperandRun.leaves, Option.elim_some]
    exact (separated_operands_iff _ _ _).mpr ((separated_operands_iff _ _ _).mp separated)

/-- One token: what the reader holds is spelled by one token more. -/
theorem follows_step {read : List Token} (follows : reader.Follows read)
    (taken : reader.step token = .ok after) : after.Follows (read ++ [token]) := by
  rcases step_cases taken with ⟨run, digits, offset, running, rfl, small, rfl⟩ |
    ⟨free, middle, ended, takes⟩
  · exact follows_operand follows running small
  · obtain ⟨idle, sameLeaves, hold, room⟩ := endRun_keeps follows ended
    obtain ⟨leaf, written, unmarked, numeral, grown⟩ := leaf_of_takes idle takes
    obtain ⟨holdAfter, roomAfter, runRoom⟩ := hold_of_takes hold room idle takes
    rw [sameLeaves] at grown
    refine ⟨?_, ?_, ?_, holdAfter, roomAfter, runRoom⟩
    · rw [grown]
      exact List.rel_append follows.written (.cons written .nil)
    · rw [grown]
      refine follows.separated.append (.singleton _) fun earlier last later first => ?_
      obtain rfl : leaf = later := by simpa using first
      rintro ⟨marked, number⟩
      have run : reader.run = none := free.resolve_right (by rw [← numeral, number]; simp)
      rw [follows.settled run earlier last] at marked
      cases marked
    · intro _ last member
      rw [grown, List.getLast?_concat] at member
      obtain rfl := Option.some.inj member
      exact unmarked

/-- A run: what the reader holds is spelled by all the tokens taken in. -/
theorem follows_steps {read : List Token} (written : List Token) (follows : reader.Follows read)
    (taken : reader.steps written = .ok after) : after.Follows (read ++ written) := by
  induction written generalizing reader read with
  | nil =>
    cases taken
    simpa using follows
  | cons token rest ih =>
    simp only [steps] at taken
    cases first : reader.step token with
    | error rejection => simp [first, Except.bind] at taken
    | ok next =>
      simp only [first, Except.bind] at taken
      simpa using ih (follows_step follows first) taken

theorem follows_start : Follows start [] where
  written := .nil
  separated := .nil
  settled := by simp [leaves, start, Frame.leaves, Program.leaves]
  hold := by simp [start, Frame.Hold]
  room := by simp [start]
  runRoom := by simp [start]

/-- A program that a reader ends up with is spelled by the tokens it took in. -/
theorem spelled_of_finish {read : List Token} {stop : Nat} {program : Program}
    (follows : reader.Follows read) (finished : reader.finish stop = .ok program) :
    program.SpelledBy read := by
  obtain ⟨middle, ended, closed, rfl⟩ := finish_eq_ok_iff.mp finished
  obtain ⟨idle, sameLeaves, hold, room⟩ := endRun_keeps follows ended
  have whole : reader.leaves = Program.leaves middle.forms.reverse := by
    rw [← sameLeaves]
    simp [leaves, idle, closed, Frame.leaves]
  rw [closed] at hold
  refine ⟨whole ▸ follows.written, (Program.supplied_iff _).mpr fun form member => ?_,
    whole ▸ follows.separated, (Program.height_le_iff _ _).mpr fun form member => ?_⟩
  · exact (hold form (List.mem_reverse.mp member)).supplied
  · simpa using (hold form (List.mem_reverse.mp member)).shallow

end Reader
end ArithAsm
