import ArithAsm.Proofs.Concatenation
import ArithAsm.Proofs.Slicing

/-! A form and what surrounds it. A program is taken apart at any of its forms,
however deep it stands, and put together again around another one. The tokens of the
program fall apart in the same way, and those of the form spell it by themselves. -/
namespace ArithAsm

/-- A form that directly encloses another one, without that one. -/
inductive Layer where
  | dump
  /-- A group, and its members on both sides. -/
  | group (span : Span) (before after : Program)
deriving Repr

namespace Layer

/-- The enclosing form around `form`. -/
def around : Layer → Form → Form
  | dump, form => .dump form
  | group span before after, form => .group span (before ++ form :: after)

/-- The forms of `layers`, innermost first, one around the other and around `form`. -/
def wrap : List Layer → Form → Form
  | [], form => form
  | layer :: outer, form => wrap outer (layer.around form)

/-- The leaves in front of what the layers enclose. -/
def front : List Layer → List Leaf
  | [] => []
  | dump :: outer => front outer ++ [.dump]
  | group span before _ :: outer => front outer ++ .openGroup span.start :: before.leaves

/-- The leaves behind what the layers enclose. -/
def rear : List Layer → List Leaf
  | [] => []
  | dump :: outer => rear outer
  | group span _ after :: outer => after.leaves ++ .closeGroup span.stop :: rear outer

theorem leaves_wrap (layers : List Layer) (form : Form) :
    (wrap layers form).leaves = front layers ++ (form.leaves ++ rear layers) := by
  induction layers generalizing form with
  | nil => simp [wrap, front, rear]
  | cons layer outer ih =>
    rw [wrap, ih]
    cases layer with
    | dump => simp [around, Form.leaves, front, rear]
    | group span before after =>
      simp [around, Form.leaves, front, rear, Program.leaves_append, Program.leaves]

theorem supplied_of_wrap {layers : List Layer} {form : Form} (supplied : (wrap layers form).Supplied) :
    form.Supplied := by
  induction layers generalizing form with
  | nil => exact supplied
  | cons layer outer ih =>
    have enclosed : (layer.around form).Supplied := ih supplied
    cases layer with
    | dump => exact enclosed
    | group span before after =>
      exact (Program.supplied_iff _).mp enclosed form (by simp)

/-- Another form that has its operands takes the place of one. -/
theorem supplied_wrap {layers : List Layer} {form other : Form}
    (supplied : (wrap layers form).Supplied) (otherSupplied : other.Supplied) :
    (wrap layers other).Supplied := by
  induction layers generalizing form other with
  | nil => exact otherSupplied
  | cons layer outer ih =>
    refine ih supplied ?_
    cases layer with
    | dump => exact otherSupplied
    | group span before after =>
      have enclosed : ((group span before after).around form).Supplied := supplied_of_wrap supplied
      have members : Program.Supplied (before ++ form :: after) := enclosed
      rw [around, Form.Supplied, Program.supplied_iff]
      intro member within
      rcases List.mem_append.mp within with early | late
      · exact (Program.supplied_iff _).mp members member (by simp [early])
      · rcases List.mem_cons.mp late with rfl | behind
        · exact otherSupplied
        · exact (Program.supplied_iff _).mp members member (by simp [behind])

theorem height_le_wrap (layers : List Layer) (form : Form) : form.height ≤ (wrap layers form).height := by
  induction layers generalizing form with
  | nil => exact Nat.le_refl _
  | cons layer outer ih =>
    refine Nat.le_trans ?_ (ih (layer.around form))
    cases layer with
    | dump => exact Nat.le_succ _
    | group span before after =>
      rw [around, Form.height, Program.height_append, Program.height]
      omega

/-- A form with the same lines can take the place of one. -/
theorem lines_wrap_congr {form other : Form} (same : form.lines = other.lines) (layers : List Layer) :
    (wrap layers form).lines = (wrap layers other).lines := by
  induction layers generalizing form other with
  | nil => exact same
  | cons layer outer ih =>
    apply ih
    cases layer with
    | dump => simp only [around, Form.lines, same]
    | group span before after => simp only [around, Form.lines, Program.lines_append, Program.lines, same]

end Layer

/-- What surrounds a form in a program: the forms that enclose it, and the outermost
forms on both sides. -/
structure Surroundings where
  /-- The enclosing forms, innermost first. -/
  layers : List Layer
  before : Program
  after : Program
deriving Repr

namespace Surroundings
variable (surroundings : Surroundings)

/-- The program that has `form` in these surroundings. -/
def fill (form : Form) : Program :=
  surroundings.before ++ Layer.wrap surroundings.layers form :: surroundings.after

/-- The leaves in front of the form. -/
def front : List Leaf :=
  surroundings.before.leaves ++ Layer.front surroundings.layers

/-- The leaves behind the form. -/
def rear : List Leaf :=
  Layer.rear surroundings.layers ++ surroundings.after.leaves

theorem leaves_fill (form : Form) :
    (surroundings.fill form).leaves = surroundings.front ++ (form.leaves ++ surroundings.rear) := by
  simp [fill, front, rear, Program.leaves_append, Program.leaves, Layer.leaves_wrap]

theorem lines_fill_congr {form other : Form} (same : form.lines = other.lines) :
    (surroundings.fill form).lines = (surroundings.fill other).lines := by
  simp only [fill, Program.lines_append, Program.lines, Layer.lines_wrap_congr same]

theorem height_le_fill (form : Form) : form.height ≤ (surroundings.fill form).height := by
  have inner := Layer.height_le_wrap surroundings.layers form
  rw [fill, Program.height_append, Program.height]
  omega

variable {surroundings} {form other : Form} {written : List Token}

theorem wrap_mem_fill : Layer.wrap surroundings.layers form ∈ surroundings.fill form := by
  simp [fill]

theorem supplied_of_fill (supplied : (surroundings.fill form).Supplied) : form.Supplied :=
  Layer.supplied_of_wrap ((Program.supplied_iff _).mp supplied _ wrap_mem_fill)

theorem supplied_fill (supplied : (surroundings.fill form).Supplied) (otherSupplied : other.Supplied) :
    (surroundings.fill other).Supplied := by
  have each := (Program.supplied_iff _).mp supplied
  apply (Program.supplied_iff _).mpr
  intro member within
  rcases List.mem_append.mp within with early | late
  · exact each member (by simp [fill, early])
  · rcases List.mem_cons.mp late with rfl | behind
    · exact Layer.supplied_wrap (each _ wrap_mem_fill) otherSupplied
    · exact each member (by simp [fill, behind])

/-! ## Tokens of a form -/

/-- Tokens `own` write the form, those `before` it what stands in front, and those
`after` it what stands behind. -/
structure WrittenBy (surroundings : Surroundings) (form : Form) (before own after : List Token) :
    Prop where
  front : List.Forall₂ Leaf.WrittenBy surroundings.front before
  form : List.Forall₂ Leaf.WrittenBy form.leaves own
  rear : List.Forall₂ Leaf.WrittenBy surroundings.rear after

/-- The tokens of a program are cut at one of its forms. -/
theorem written_of_spelled (spelled : (surroundings.fill form).SpelledBy written) :
    ∃ before own after, written = before ++ (own ++ after) ∧
      surroundings.WrittenBy form before own after := by
  have leaves := spelled.leaves
  rw [leaves_fill] at leaves
  obtain ⟨before, _, rfl, front, inner⟩ := Leaf.written_append leaves
  obtain ⟨own, after, rfl, wroteForm, rear⟩ := Leaf.written_append inner
  exact ⟨before, own, after, rfl, front, wroteForm, rear⟩

/-- The tokens of a form spell it as a program of its own. -/
theorem spelled_alone {own : List Token} (spelled : (surroundings.fill form).SpelledBy written)
    (wrote : List.Forall₂ Leaf.WrittenBy form.leaves own) : Program.SpelledBy [form] own where
  leaves := by simpa [Program.leaves] using wrote
  supplied := ⟨supplied_of_fill spelled.supplied, trivial⟩
  separated := by
    have separated := spelled.separated
    rw [leaves_fill] at separated
    have own : Separated form.leaves := separated.right_of_append.left_of_append
    simpa [Program.leaves] using own
  shallow := by
    have height := surroundings.height_le_fill form
    have limit := spelled.shallow
    rw [Program.height, Program.height]
    omega

end Surroundings

/-- Some token is the first and some token the last that writes a form. -/
theorem ends_of_written {form : Form} {own : List Token}
    (wrote : List.Forall₂ Leaf.WrittenBy form.leaves own) :
    ∃ first last, own.head? = some first ∧ own.getLast? = some last := by
  have nonempty : own ≠ [] := by
    rintro rfl
    exact form.leaves_ne_nil (List.forall₂_nil_right_iff.mp wrote)
  exact ⟨_, _, List.head?_eq_some_head nonempty, List.getLast?_eq_some_getLast nonempty⟩

/-- A form read from the part of the source that its tokens take up, and from nothing
else, is the same form, as far in front as that part is cut off. -/
theorem parse_excerpt {surroundings : Surroundings} {form : Form} {source body : Bytes}
    {own : List Token} {start : Nat}
    (parsed : parse source = .ok (surroundings.fill form))
    (wrote : List.Forall₂ Leaf.WrittenBy form.leaves own) (scanned : tokensFrom start body = own) :
    ∃ alone, parse body = .ok [alone] ∧ Program.shift [alone] start = [form] := by
  have spelled := Surroundings.spelled_alone (read_eq_ok_iff.mp (parse_eq_ok_iff_read.mp parsed)) wrote
  have moved : (tokens body).map (·.shift start) = own := by
    rw [tokens, ← tokensFrom_shift, Nat.zero_add, scanned]
  -- The form is moved to the front of the source, where its tokens are without the rest.
  have moves : List.Forall₂ (Token.Moves (· - start) (· - start)) own (tokens body) := by
    rw [← moved]
    refine List.forall₂_map_left_iff.mpr (List.forall₂_same.mpr fun token _ => ⟨rfl, ?_, ?_⟩)
    · exact Nat.add_sub_cancel _ _
    · rw [Token.stop_shift, Nat.add_sub_cancel]
  have spelledAlone := spelled.relocate moves
  refine ⟨form.relocate (· - start) (· - start), ?_, ?_⟩
  · exact parse_eq_ok_iff_read.mpr (read_eq_ok_iff.mpr spelledAlone)
  · -- Moved back, it is spelled by the same tokens as before, and these are read in one way.
    have back := spelledAlone.relocate (tokens_move (tokens body) start)
    rw [moved] at back
    exact Except.ok.inj ((Program.read_of_spelled 0 back).symm.trans (Program.read_of_spelled 0 spelled))

end ArithAsm
