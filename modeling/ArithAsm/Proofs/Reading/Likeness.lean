import ArithAsm.Proofs.Reading.Refusal
import Mathlib.Data.List.Forall2
import Mathlib.Data.Option.Defs

/-! Two readers side by side. What a reader takes or refuses depends on what is
open and not on the forms that it has read, and places are only passed on. So
readers that have the same things open, in corresponding places, treat the same
lexemes alike: both go on, or both fail with one fault in corresponding places. -/
namespace ArithAsm

/-- The same kind of form has been begun, in corresponding places. What was read
before it may differ. -/
inductive Frame.Like (places : Nat → Nat → Prop) : Frame → Frame → Prop where
  | group {first second : Nat} {earlier others : List Form} (start : places first second) :
      Like places (.group first earlier) (.group second others)
  | dump : Like places .dump .dump

/-- The same operator collects operands, and has some in both or in neither. -/
structure OperandRun.Like (places : Nat → Nat → Prop) (first second : OperandRun) : Prop where
  operator : first.operator = second.operator
  start : places first.start second.start
  lacking : first.operands = [] ↔ second.operands = []

/-- The same things are open. -/
structure Reader.Like (places : Nat → Nat → Prop) (first second : Reader) : Prop where
  frames : List.Forall₂ (Frame.Like places) first.frames second.frames
  run : Option.Rel (OperandRun.Like places) first.run second.run

/-- The same lexeme in corresponding places. -/
structure Token.Like (places : Nat → Nat → Prop) (first second : Token) : Prop where
  lexeme : first.lexeme = second.lexeme
  start : places first.start second.start

/-- Both succeed, with results that are alike, or both fail for the same fault in
corresponding places. -/
inductive Alike {α β : Type} (places : Nat → Nat → Prop) (like : α → β → Prop) :
    Except Rejection α → Except Rejection β → Prop where
  | ok {first : α} {second : β} (results : like first second) :
      Alike places like (.ok first) (.ok second)
  | error {first second : Rejection} (fault : first.fault = second.fault)
      (offset : places first.offset second.offset) : Alike places like (.error first) (.error second)

section
variable {places : Nat → Nat → Prop}

theorem Alike.bind {α β γ δ : Type} {like : α → β → Prop} {alike : γ → δ → Prop}
    {first : Except Rejection α} {second : Except Rejection β} {f : α → Except Rejection γ}
    {g : β → Except Rejection δ} (results : Alike places like first second)
    (onward : ∀ a b, like a b → Alike places alike (f a) (g b)) :
    Alike places alike (first.bind f) (second.bind g) := by
  cases results with
  | ok results => exact onward _ _ results
  | error fault offset => exact .error fault offset

theorem Alike.map {α β γ δ : Type} {like : α → β → Prop} {alike : γ → δ → Prop}
    {first : Except Rejection α} {second : Except Rejection β} {f : α → γ} {g : β → δ}
    (results : Alike places like first second) (onward : ∀ a b, like a b → alike (f a) (g b)) :
    Alike places alike (first.map f) (second.map g) := by
  cases results with
  | ok results => exact .ok (onward _ _ results)
  | error fault offset => exact .error fault offset

/-- The same digits are a literal in both places or in neither. -/
theorem Literal.read_alike {first second : Nat} (start : places first second) (digits : Bytes) :
    Alike places (fun _ _ => True) (Literal.read first digits) (Literal.read second digits) := by
  simp only [Literal.read]
  split
  · exact .ok trivial
  · exact .error rfl start

theorem Frame.like_dropWhile {first second : List Frame}
    (like : List.Forall₂ (Frame.Like places) first second) :
    List.Forall₂ (Frame.Like places) (first.dropWhile isDump) (second.dropWhile isDump) := by
  induction like with
  | nil => exact .nil
  | cons head tail ih =>
    cases head with
    | group start => exact .cons (.group start) tail
    | dump => exact ih

namespace Reader
variable {first second : Reader} {token other : Token}

/-- Taking in a form, whichever it is, finishes the same dumps. -/
theorem Like.push (like : first.Like places second) (form another : Form) :
    (first.push form).Like places (second.push another) := by
  refine ⟨?_, like.run⟩
  rw [push_frames, push_frames]
  exact Frame.like_dropWhile like.frames

theorem Like.idle (like : first.Like places second) (idle : first.run = none) : second.run = none := by
  obtain ⟨frames, forms, run⟩ := first
  obtain ⟨others, members, rival⟩ := second
  obtain rfl : run = none := idle
  cases like.run
  rfl

theorem Like.endRun (like : first.Like places second) :
    Alike places (Reader.Like places) first.endRun second.endRun := by
  obtain ⟨frames, forms, run⟩ := first
  obtain ⟨others, members, rival⟩ := second
  obtain ⟨sameFrames, sameRun⟩ := like
  cases sameRun with
  | none => exact .ok ⟨sameFrames, .none⟩
  | @some run rival same =>
    cases amounts : run.form? with
    | none =>
      have lacking := OperandRun.form?_eq_none_iff.mp amounts
      have alsoLacking := OperandRun.form?_eq_none_iff.mpr (same.lacking.mp lacking)
      simp only [Reader.endRun, amounts, alsoLacking]
      exact .error (by rw [same.operator]) same.start
    | some form =>
      have supplied : rival.form? ≠ none := fun lacking => by
        have alsoLacking := same.lacking.mpr (OperandRun.form?_eq_none_iff.mp lacking)
        simp [OperandRun.form?_eq_none_iff.mpr alsoLacking] at amounts
      obtain ⟨another, alsoAmounts⟩ := Option.ne_none_iff_exists'.mp supplied
      simp only [Reader.endRun, amounts, alsoAmounts]
      have ended : Reader.Like places ⟨frames, forms, none⟩ ⟨others, members, none⟩ := ⟨sameFrames, .none⟩
      exact .ok (ended.push form another)

theorem Like.beginForm (like : first.Like places second) (tokens : token.Like places other) :
    Alike places (Reader.Like places) (first.beginForm token) (second.beginForm other) := by
  obtain ⟨lexeme, start⟩ := token
  obtain ⟨_, otherStart⟩ := other
  obtain ⟨rfl, start⟩ := tokens
  simp only [Reader.beginForm, like.frames.length_eq]
  split
  · exact .error rfl start
  cases lexeme with
  | openGroup => exact .ok ⟨.cons (.group start) like.frames, like.run⟩
  | closeGroup => exact .error rfl start
  | plus => exact .ok ⟨like.frames, .some ⟨rfl, start, Iff.rfl⟩⟩
  | minus => exact .ok ⟨like.frames, .some ⟨rfl, start, Iff.rfl⟩⟩
  | numeral digits => exact (Literal.read_alike start digits).map fun _ _ _ => like.push _ _
  | word name =>
    cases known : Keyword.ofWord? name with
    | none =>
      simp only [known]
      exact .error rfl start
    | some keyword =>
      cases keyword
      simp only [known]
      exact .ok ⟨.cons .dump like.frames, like.run⟩

theorem Like.item (like : first.Like places second) (tokens : token.Like places other) :
    Alike places (Reader.Like places) (first.item token) (second.item other) := by
  have begun := like.beginForm tokens
  obtain ⟨frames, forms, run⟩ := first
  obtain ⟨others, members, rival⟩ := second
  obtain ⟨lexeme, start⟩ := token
  obtain ⟨_, otherStart⟩ := other
  obtain ⟨rfl, start⟩ := tokens
  cases lexeme with
  | closeGroup =>
    obtain ⟨sameFrames, sameRun⟩ := like
    cases sameFrames with
    | nil => exact .error rfl start
    | cons head tail =>
      cases head with
      | dump => exact begun
      | @group _ _ earlier opposite _ =>
        have closed : Reader.Like places ⟨_, earlier, run⟩ ⟨_, opposite, rival⟩ := ⟨tail, sameRun⟩
        exact .ok (closed.push _ _)
  | openGroup | plus | minus | numeral digits | word name => exact begun

/-- One token: both readers take it, or both refuse it. -/
theorem Like.step (like : first.Like places second) (tokens : token.Like places other) :
    Alike places (Reader.Like places) (first.step token) (second.step other) := by
  by_cases free : first.run = none ∨ token.lexeme.isNumeral = false
  · have alsoFree : second.run = none ∨ other.lexeme.isNumeral = false := by
      rw [← tokens.lexeme]
      exact free.imp_left like.idle
    rw [step_item free, step_item alsoFree]
    exact like.endRun.bind fun _ _ ended => ended.item tokens
  · obtain ⟨busy, numeral⟩ := not_or.mp free
    obtain ⟨frames, forms, run⟩ := first
    obtain ⟨others, members, rival⟩ := second
    obtain ⟨lexeme, start⟩ := token
    obtain ⟨_, otherStart⟩ := other
    obtain ⟨rfl, start⟩ := tokens
    obtain ⟨sameFrames, sameRun⟩ := like
    cases sameRun with
    | none => exact absurd rfl busy
    | some same =>
      cases lexeme with
      | numeral digits =>
        rw [step_operand rfl, step_operand rfl]
        refine (Literal.read_alike start digits).map fun _ _ _ => ⟨sameFrames, .some ?_⟩
        exact ⟨same.operator, same.start, by simp⟩
      | openGroup | closeGroup | plus | minus | word => simp [Lexeme.isNumeral] at numeral

/-- A run over tokens: both readers take them all, or both fail at the same one. -/
theorem Like.steps {tokens others : List Token} (like : first.Like places second)
    (same : List.Forall₂ (Token.Like places) tokens others) :
    Alike places (Reader.Like places) (first.steps tokens) (second.steps others) := by
  induction same generalizing first second with
  | nil => exact .ok like
  | cons head tail ih => exact (like.step head).bind fun _ _ taken => ih taken

/-- At the end of the input both readers are finished, or the same thing is
missing. -/
theorem Like.finish {stop otherStop : Nat} (like : first.Like places second)
    (limit : places stop otherStop) :
    Alike places (fun _ _ => True) (first.finish stop) (second.finish otherStop) := by
  refine like.endRun.bind fun ended otherEnded like => ?_
  obtain ⟨frames, forms, run⟩ := ended
  obtain ⟨others, members, rival⟩ := otherEnded
  obtain ⟨sameFrames, -⟩ := like
  cases sameFrames with
  | nil => exact .ok trivial
  | cons head tail =>
    cases head with
    | group start => exact .error rfl start
    | dump =>
      simp only [List.length_cons, tail.length_eq]
      split
      · exact .error rfl limit
      · exact .error rfl limit

end Reader

/-- Sources whose tokens have the same lexemes in corresponding places are both
read, or fail for the same fault in corresponding places. -/
theorem read_alike {first second : Bytes}
    (same : List.Forall₂ (Token.Like places) (tokens first) (tokens second))
    (ends : places first.length second.length) :
    Alike places (fun _ _ => True) (read first) (read second) := by
  have begun : Reader.start.Like places Reader.start := ⟨.nil, .none⟩
  exact (begun.steps same).bind fun _ _ like => like.finish ends

end
end ArithAsm
