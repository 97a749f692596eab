import ArithAsm.Proofs.Reading.Completeness
import ArithAsm.Proofs.Reading.Soundness

/-! What encloses a place between tokens, said without a reader. A `(` is open as
long as no `)` matches it, and a `dump` waits as long as no form stands behind it.
What a reader holds open after some tokens are just the forms that those tokens
begin and do not finish. -/
namespace ArithAsm

/-! ## Matching parentheses -/

/-- Nowhere is more closed than has been opened. -/
def NeverCloses (list : List Lexeme) : Prop :=
  ∀ front rest, list = front ++ rest → front.count .closeGroup ≤ front.count .openGroup

/-- Every parenthesis has its match. -/
structure Balanced (list : List Lexeme) : Prop where
  neverCloses : NeverCloses list
  total : list.count .closeGroup = list.count .openGroup

/-- A `)` among the lexemes matches a `(` right in front of them. -/
def ClosedIn (list : List Lexeme) : Prop :=
  ∃ inside rest, list = inside ++ .closeGroup :: rest ∧ Balanced inside

/-- Where nowhere more is closed than opened, a `(` in front stays open. -/
theorem NeverCloses.not_closedIn {list : List Lexeme} (never : NeverCloses list) : ¬ ClosedIn list := by
  rintro ⟨inside, rest, rfl, balanced⟩
  have bound := never (inside ++ [.closeGroup]) rest (by simp)
  have total := balanced.total
  simp only [List.count_append, List.count_singleton_self, List.count_singleton, beq_iff_eq,
    reduceCtorEq, if_false] at bound
  omega

theorem NeverCloses.append {first second : List Lexeme} (balanced : Balanced first)
    (never : NeverCloses second) : NeverCloses (first ++ second) := by
  intro front rest split
  rcases List.append_eq_append_iff.mp split with ⟨more, rfl, rfl⟩ | ⟨more, rfl, rfl⟩
  · have bound := never more rest rfl
    have total := balanced.total
    simp only [List.count_append]
    omega
  · exact balanced.neverCloses front more rfl

theorem NeverCloses.openGroup {list : List Lexeme} (never : NeverCloses list) :
    NeverCloses (.openGroup :: list) := by
  intro front rest split
  cases front with
  | nil => simp
  | cons lexeme front =>
    obtain ⟨rfl, same⟩ := List.cons.inj split
    have bound := never front rest same
    rw [List.count_cons_self, List.count_cons_of_ne (by simp)]
    omega

theorem Balanced.append {first second : List Lexeme} (left : Balanced first) (right : Balanced second) :
    Balanced (first ++ second) where
  neverCloses := .append left right.neverCloses
  total := by simp only [List.count_append, left.total, right.total]

theorem Balanced.group {list : List Lexeme} (inside : Balanced list) :
    Balanced (.openGroup :: (list ++ [.closeGroup])) where
  neverCloses := by
    intro front rest split
    cases front with
    | nil => simp
    | cons lexeme front =>
      obtain ⟨rfl, same⟩ := List.cons.inj split
      have bound : front.count .closeGroup ≤ front.count .openGroup + 1 := by
        rcases List.append_eq_append_iff.mp same with ⟨more, rfl, last⟩ | ⟨more, rfl, -⟩
        · have once : more.count .closeGroup ≤ [Lexeme.closeGroup].length :=
            last ▸ List.count_le_length.trans (by simp)
          have total := inside.total
          simp only [List.count_append, List.length_singleton] at once ⊢
          omega
        · exact Nat.le_succ_of_le (inside.neverCloses front more rfl)
      rw [List.count_cons_self, List.count_cons_of_ne (by simp)]
      exact bound
  total := by simp [inside.total]

/-- Without parentheses there is nothing to match. -/
theorem balanced_of_plain {list : List Lexeme}
    (plain : ∀ lexeme ∈ list, lexeme ≠ .openGroup ∧ lexeme ≠ .closeGroup) : Balanced list := by
  have noClosing {part : List Lexeme} (included : ∀ lexeme ∈ part, lexeme ∈ list) :
      part.count .closeGroup = 0 :=
    List.count_eq_zero.mpr fun member => (plain _ (included _ member)).2 rfl
  refine ⟨fun front rest split => ?_, ?_⟩
  · rw [noClosing fun lexeme member => split ▸ List.mem_append_left _ member]
    exact Nat.zero_le _
  · rw [noClosing fun _ member => member]
    exact (List.count_eq_zero.mpr fun member => (plain _ member).1 rfl).symm

/-! ## Tokens of whole forms -/

/-- Operands are written by numerals. -/
theorem numerals_of_operands {operands : List Literal} {written : List Token}
    (spelled : List.Forall₂ Leaf.WrittenBy (Literal.operandLeaves operands) written) :
    ∀ token ∈ written, token.lexeme.isNumeral = true := by
  have unmarked : List.Forall₂ Leaf.WrittenBy (operands.map (.number · false)) written :=
    Leaf.written_congr (by simp [Literal.operandLeaves_unmarked, Leaf.unmarked]) spelled
  clear spelled
  induction operands generalizing written with
  | nil =>
    cases unmarked
    simp
  | cons operand rest ih =>
    cases unmarked with
    | cons head tail =>
      exact List.forall_mem_cons.mpr ⟨Reader.isNumeral_of_written head, ih tail⟩

theorem Lexeme.plain_of_isNumeral {lexeme : Lexeme} (numeral : lexeme.isNumeral = true) :
    lexeme ≠ .openGroup ∧ lexeme ≠ .closeGroup ∧ lexeme ≠ .word (Utf8.encode "dump") := by
  cases lexeme with
  | numeral digits => simp
  | openGroup | closeGroup | plus | minus | word => cases numeral

theorem balanced_of_numerals {written : List Token}
    (numerals : ∀ token ∈ written, token.lexeme.isNumeral = true) :
    Balanced (written.map Token.lexeme) := by
  refine balanced_of_plain fun lexeme member => ?_
  obtain ⟨token, scanned, rfl⟩ := List.mem_map.mp member
  have plain := Lexeme.plain_of_isNumeral (numerals token scanned)
  exact ⟨plain.1, plain.2.1⟩

/-- An operator and its operands have no parentheses. -/
private theorem balanced_of_operator {sign : Operator} {operands : List Literal} {written : List Token}
    (spelled : List.Forall₂ Leaf.WrittenBy (.operator sign :: Literal.operandLeaves operands) written) :
    Balanced (written.map Token.lexeme) := by
  obtain ⟨⟨_, start⟩, rest, rfl, operands, rfl⟩ := List.forall₂_cons_left_iff.mp spelled
  have alone : Balanced [sign.lexeme] := balanced_of_plain (by cases sign <;> simp [Operator.lexeme])
  exact alone.append (balanced_of_numerals (numerals_of_operands operands))

mutual

/-- The parentheses of a form match. -/
theorem balanced_of_form {written : List Token} : (form : Form) →
    List.Forall₂ Leaf.WrittenBy form.leaves written → Balanced (written.map Token.lexeme)
  | .literal number, spelled => by
    obtain ⟨token, rfl, head⟩ := Leaf.written_singleton spelled
    exact balanced_of_numerals (by simpa [Leaf.isNumber] using Reader.isNumeral_of_written head)
  | .group span members, spelled => by
    obtain ⟨opening, inside, closing, rfl, opens, closes, spelledInside⟩ := Leaf.written_group spelled
    simpa [opens, closes] using (balanced_of_program members spelledInside).group
  | .dump argument, spelled => by
    obtain ⟨⟨_, start⟩, rest, rfl, spelledArgument, rfl⟩ := List.forall₂_cons_left_iff.mp spelled
    have alone : Balanced [.word (Utf8.encode "dump")] := balanced_of_plain (by simp)
    exact alone.append (balanced_of_form argument spelledArgument)
  | .add terms, spelled => balanced_of_operator spelled
  | .sub seed terms, spelled => balanced_of_operator spelled

/-- The parentheses of forms in a row match. -/
theorem balanced_of_program {written : List Token} : (program : Program) →
    List.Forall₂ Leaf.WrittenBy program.leaves written → Balanced (written.map Token.lexeme)
  | [], spelled => by
    obtain rfl := List.forall₂_nil_left_iff.mp spelled
    exact balanced_of_plain (by simp)
  | form :: rest, spelled => by
    obtain ⟨first, second, rfl, spelledForm, spelledRest⟩ := Leaf.written_append spelled
    rw [List.map_append]
    exact (balanced_of_form form spelledForm).append (balanced_of_program rest spelledRest)

end

/-! ## Forms begun and not finished -/

/-- The tokens begin with those of a form. -/
def BeginsForm (list : List Token) : Prop :=
  ∃ (form : Form) (taken rest : List Token), list = taken ++ rest ∧ form.Supplied ∧
    List.Forall₂ Leaf.WrittenBy form.leaves taken

/-- The token begins a group or a dump that the tokens behind it do not finish. -/
def Token.Encloses (token : Token) (behind : List Token) : Prop :=
  token.lexeme = .openGroup ∧ ¬ ClosedIn (behind.map Token.lexeme) ∨
    token.lexeme = .word (Utf8.encode "dump") ∧ ¬ BeginsForm behind

open Classical in
/-- How many open groups and waiting dumps enclose what follows the tokens. -/
noncomputable def enclosing : List Token → Nat
  | [] => 0
  | token :: behind => enclosing behind + if token.Encloses behind then 1 else 0

theorem enclosing_cons_of_encloses {token : Token} {behind : List Token} (encloses : token.Encloses behind) :
    enclosing (token :: behind) = enclosing behind + 1 := by
  rw [enclosing, if_pos encloses]

theorem enclosing_cons_of_not {token : Token} {behind : List Token} (not : ¬ token.Encloses behind) :
    enclosing (token :: behind) = enclosing behind := by
  rw [enclosing, if_neg not, Nat.add_zero]

/-- Where nothing encloses, every `(` has its match. -/
theorem not_encloses_of_enclosing_eq_zero {list between rest : List Token} {token : Token}
    (none : enclosing list = 0) (split : list = between ++ token :: rest) : ¬ token.Encloses rest := by
  induction between generalizing list with
  | nil =>
    subst split
    intro encloses
    rw [List.nil_append, enclosing_cons_of_encloses encloses] at none
    cases none
  | cons earlier between ih =>
    subst split
    rw [List.cons_append, enclosing] at none
    exact ih (Nat.eq_zero_of_add_eq_zero_right none) rfl

/-- Only a `(` and a `dump` begin something that can enclose. -/
theorem not_encloses_of_plain {token : Token} {behind : List Token}
    (noGroup : token.lexeme ≠ .openGroup) (noDump : token.lexeme ≠ .word (Utf8.encode "dump")) :
    ¬ token.Encloses behind := by
  rintro (⟨group, -⟩ | ⟨dump, -⟩)
  · exact noGroup group
  · exact noDump dump

theorem enclosing_numerals {written : List Token}
    (numerals : ∀ token ∈ written, token.lexeme.isNumeral = true) (behind : List Token) :
    enclosing (written ++ behind) = enclosing behind := by
  induction written with
  | nil => rfl
  | cons token rest ih =>
    obtain ⟨numeral, others⟩ := List.forall_mem_cons.mp numerals
    have plain := Lexeme.plain_of_isNumeral numeral
    rw [List.cons_append, enclosing_cons_of_not (not_encloses_of_plain plain.1 plain.2.2), ih others]

private theorem enclosing_operator {sign : Operator} {operands : List Literal} {written : List Token}
    (spelled : List.Forall₂ Leaf.WrittenBy (.operator sign :: Literal.operandLeaves operands) written)
    (behind : List Token) : enclosing (written ++ behind) = enclosing behind := by
  obtain ⟨⟨_, start⟩, rest, rfl, operands, rfl⟩ := List.forall₂_cons_left_iff.mp spelled
  rw [List.cons_append, enclosing_cons_of_not, enclosing_numerals (numerals_of_operands operands)]
  cases sign <;> exact not_encloses_of_plain (by simp [Operator.lexeme]) (by simp [Operator.lexeme])

mutual

/-- A whole form encloses nothing behind it. -/
theorem enclosing_form {written : List Token} (behind : List Token) : (form : Form) →
    form.Supplied → List.Forall₂ Leaf.WrittenBy form.leaves written →
      enclosing (written ++ behind) = enclosing behind
  | .literal number, _, spelled => by
    obtain ⟨token, rfl, head⟩ := Leaf.written_singleton spelled
    exact enclosing_numerals (by simpa [Leaf.isNumber] using Reader.isNumeral_of_written head) behind
  | .group span members, supplied, spelled => by
    obtain ⟨opening, inside, closing, rfl, opens, closes, spelledInside⟩ := Leaf.written_group spelled
    have closed : ClosedIn ((inside ++ closing :: behind).map Token.lexeme) :=
      ⟨inside.map Token.lexeme, behind.map Token.lexeme, by simp [closes],
        balanced_of_program members spelledInside⟩
    rw [List.cons_append, List.append_assoc, List.singleton_append, enclosing_cons_of_not,
      enclosing_program _ members supplied spelledInside, enclosing_cons_of_not]
    · exact not_encloses_of_plain (by simp [closes]) (by simp [closes])
    · simpa [Token.Encloses, opens] using closed
  | .dump argument, supplied, spelled => by
    obtain ⟨⟨_, start⟩, rest, rfl, spelledArgument, rfl⟩ := List.forall₂_cons_left_iff.mp spelled
    have begins : BeginsForm (rest ++ behind) := ⟨argument, rest, behind, rfl, supplied, spelledArgument⟩
    rw [List.cons_append, enclosing_cons_of_not, enclosing_form _ argument supplied spelledArgument]
    simpa [Token.Encloses] using begins
  | .add terms, _, spelled => enclosing_operator spelled behind
  | .sub seed terms, _, spelled => enclosing_operator spelled behind

/-- Whole forms enclose nothing behind them. -/
theorem enclosing_program {written : List Token} (behind : List Token) : (program : Program) →
    program.Supplied → List.Forall₂ Leaf.WrittenBy program.leaves written →
      enclosing (written ++ behind) = enclosing behind
  | [], _, spelled => by
    obtain rfl := List.forall₂_nil_left_iff.mp spelled
    rfl
  | form :: rest, supplied, spelled => by
    obtain ⟨first, second, rfl, spelledForm, spelledRest⟩ := Leaf.written_append spelled
    rw [List.append_assoc, enclosing_form _ form supplied.1 spelledForm,
      enclosing_program _ rest supplied.2 spelledRest]

end

/-! ## What a reader holds open -/

/-- Tokens that finish nothing that was begun in front of them. -/
structure Dangling (list : List Token) : Prop where
  neverCloses : NeverCloses (list.map Token.lexeme)
  noForm : ¬ BeginsForm list

theorem dangling_nil : Dangling [] where
  neverCloses := (balanced_of_plain (by simp)).neverCloses
  noForm := by
    rintro ⟨form, taken, rest, split, -, spelled⟩
    obtain ⟨rfl, -⟩ := List.append_eq_nil_iff.mp split.symm
    have leaves := List.forall₂_nil_right_iff.mp spelled
    cases form <;> simp [Form.leaves] at leaves

private theorem written_first {leaf : Leaf} {leaves : List Leaf} {token : Token}
    {list taken rest : List Token} (spelled : List.Forall₂ Leaf.WrittenBy (leaf :: leaves) taken)
    (split : token :: list = taken ++ rest) :
    leaf.WrittenBy token ∧ ∃ others, List.Forall₂ Leaf.WrittenBy leaves others ∧ list = others ++ rest := by
  obtain ⟨first, others, head, tail, rfl⟩ := List.forall₂_cons_left_iff.mp spelled
  obtain ⟨rfl, same⟩ := List.cons.inj split
  exact ⟨head, others, tail, same⟩

/-- A form that begins with `dump` has a form behind it. -/
theorem beginsForm_of_dump {token : Token} {list : List Token}
    (dump : token.lexeme = .word (Utf8.encode "dump")) (begins : BeginsForm (token :: list)) :
    BeginsForm list := by
  obtain ⟨form, taken, rest, split, supplied, spelled⟩ := begins
  cases form with
  | literal number =>
    obtain ⟨⟨digits, numeral, -⟩, -⟩ := written_first spelled split
    simp [dump] at numeral
  | group span members =>
    obtain ⟨⟨group, -⟩, -⟩ := written_first spelled split
    simp [dump] at group
  | dump argument =>
    obtain ⟨-, others, spelledArgument, rfl⟩ := written_first spelled split
    exact ⟨argument, others, rest, rfl, supplied, spelledArgument⟩
  | add terms | sub seed terms =>
    have operator := (written_first spelled split).1
    simp [Leaf.WrittenBy, Operator.lexeme, dump] at operator

/-- A form that begins with `(` has the matching `)`. -/
theorem closedIn_of_beginsForm {token : Token} {list : List Token} (group : token.lexeme = .openGroup)
    (begins : BeginsForm (token :: list)) : ClosedIn (list.map Token.lexeme) := by
  obtain ⟨form, taken, rest, split, supplied, spelled⟩ := begins
  cases form with
  | literal number =>
    obtain ⟨⟨digits, numeral, -⟩, -⟩ := written_first spelled split
    simp [group] at numeral
  | group span members =>
    obtain ⟨opening, inside, closing, rfl, -, closes, spelledInside⟩ := Leaf.written_group spelled
    obtain ⟨rfl, rfl⟩ := List.cons.inj split
    exact ⟨inside.map Token.lexeme, rest.map Token.lexeme, by simp [closes],
      balanced_of_program members spelledInside⟩
  | dump argument =>
    have dump := (written_first spelled split).1
    simp [Leaf.WrittenBy, group] at dump
  | add terms | sub seed terms =>
    have operator := (written_first spelled split).1
    simp [Leaf.WrittenBy, Operator.lexeme, group] at operator

/-- A dump that waits for its argument leaves everything around it open. -/
theorem Dangling.dump {token : Token} {behind : List Token} (dangling : Dangling behind)
    (dump : token.lexeme = .word (Utf8.encode "dump")) : Dangling (token :: behind) where
  neverCloses := by
    have alone : Balanced [token.lexeme] := balanced_of_plain (by simp [dump])
    exact .append alone dangling.neverCloses
  noForm := fun begins => dangling.noForm (beginsForm_of_dump dump begins)

/-- So does a group that stays open. -/
theorem Dangling.group {token : Token} {behind : List Token}
    (never : NeverCloses (behind.map Token.lexeme)) (group : token.lexeme = .openGroup) :
    Dangling (token :: behind) where
  neverCloses := by
    rw [List.map_cons, group]
    exact never.openGroup
  noForm := fun begins => never.not_closedIn (closedIn_of_beginsForm group begins)

private theorem supplied_of_fits {forms : List Form} {depth : Nat}
    (fits : ∀ form ∈ forms, form.Fits depth) : Program.Supplied forms.reverse :=
  (Program.supplied_iff _).mpr fun form member => (fits form (List.mem_reverse.mp member)).supplied

/-- The forms begun in the frames are those that enclose what comes next. -/
theorem enclosing_frames (frames : List Frame) {forms : List Form} {written behind : List Token}
    (hold : Frame.Hold frames forms)
    (spelled : List.Forall₂ Leaf.WrittenBy (Frame.leaves frames forms) written)
    (dangling : Dangling behind) :
    enclosing (written ++ behind) = enclosing behind + frames.length := by
  -- From the innermost frame outwards: what has been passed over joins the tokens behind.
  induction frames generalizing forms written behind with
  | nil => exact enclosing_program behind _ (supplied_of_fits hold) spelled
  | cons frame frames ih =>
    cases frame with
    | dump =>
      obtain ⟨left, _, rfl, outer, last⟩ := Leaf.written_append spelled
      obtain ⟨token, rfl, dump⟩ := Leaf.written_singleton last
      rw [List.append_assoc, List.singleton_append, ih hold outer (dangling.dump dump),
        enclosing_cons_of_encloses (.inr ⟨dump, dangling.noForm⟩), List.length_cons]
      omega
    | group start earlier =>
      obtain ⟨left, _, rfl, outer, opened⟩ := Leaf.written_append spelled
      obtain ⟨token, inside, ⟨group, -⟩, spelledInside, rfl⟩ := List.forall₂_cons_left_iff.mp opened
      have never : NeverCloses ((inside ++ behind).map Token.lexeme) := by
        rw [List.map_append]
        exact .append (balanced_of_program _ spelledInside) dangling.neverCloses
      rw [List.append_assoc, List.cons_append, ih hold.2 outer (.group never group),
        enclosing_cons_of_encloses (.inl ⟨group, never.not_closedIn⟩),
        enclosing_program behind _ (supplied_of_fits hold.1) spelledInside, List.length_cons]
      omega

namespace Reader
variable {reader middle : Reader} {read : List Token}

/-- Once a run is over, the frames and forms are all that the tokens write. -/
theorem Follows.frames_written (follows : reader.Follows read) (ended : reader.endRun = .ok middle) :
    List.Forall₂ Leaf.WrittenBy (Frame.leaves middle.frames middle.forms) read ∧
      Frame.Hold middle.frames middle.forms := by
  obtain ⟨idle, sameLeaves, hold, -⟩ := endRun_keeps follows ended
  have written := follows.written
  rw [← sameLeaves] at written
  exact ⟨by simpa [leaves, idle] using written, hold⟩

/-- What encloses the next token are the frames, once a run is over. -/
theorem Follows.enclosing_eq (follows : reader.Follows read) (ended : reader.endRun = .ok middle) :
    enclosing read = middle.frames.length := by
  obtain ⟨spelled, hold⟩ := follows.frames_written ended
  simpa [enclosing] using enclosing_frames middle.frames hold spelled dangling_nil

/-- The innermost open group is the last `(` without a match. -/
theorem Follows.last_unclosed {start : Nat} {earlier : List Form} {outer : List Frame}
    (follows : reader.Follows read) (ended : reader.endRun = .ok middle)
    (inside : middle.frames = .group start earlier :: outer) :
    ∃ before token after, read = before ++ token :: after ∧ token.lexeme = .openGroup ∧
      token.start = start ∧ ¬ ClosedIn (after.map Token.lexeme) ∧ enclosing after = 0 := by
  obtain ⟨spelled, hold⟩ := follows.frames_written ended
  rw [inside] at spelled hold
  obtain ⟨before, _, rfl, -, opened⟩ := Leaf.written_append spelled
  obtain ⟨token, after, ⟨group, place⟩, spelledAfter, rfl⟩ := List.forall₂_cons_left_iff.mp opened
  have balanced := balanced_of_program _ spelledAfter
  refine ⟨before, token, after, rfl, group, place, balanced.neverCloses.not_closedIn, ?_⟩
  simpa [enclosing] using enclosing_program [] _ (supplied_of_fits hold.1) spelledAfter

/-- A dump that waits for its argument is the last token. -/
theorem Follows.last_dump (follows : reader.Follows read) (idle : reader.run = none)
    (waiting : reader.frames.head? = some .dump) :
    ∃ before token, read = before ++ [token] ∧ token.lexeme = .word (Utf8.encode "dump") := by
  obtain ⟨spelled, -⟩ := follows.frames_written (endRun_of_none idle)
  obtain ⟨outer, frames⟩ := List.head?_eq_some_iff.mp waiting
  rw [frames] at spelled
  obtain ⟨before, _, rfl, -, last⟩ := Leaf.written_append spelled
  obtain ⟨token, rfl, dump⟩ := Leaf.written_singleton last
  exact ⟨before, token, rfl, dump⟩

end Reader
end ArithAsm
