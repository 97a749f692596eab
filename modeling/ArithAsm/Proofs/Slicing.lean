import ArithAsm.Proofs.Spelling

/-! Pieces of a scanned text. Where a text is cut at the ends of tokens, each piece
has the tokens that it has as a part of the whole, and a token can be cut out of
the source that it was scanned from. -/
namespace ArithAsm

namespace Lexeme
variable {lexeme : Lexeme} {first : UInt8} {rest behind : Bytes}

/-- The lexeme is what is read at the front of its spelling followed by `behind`. -/
def Leads (lexeme : Lexeme) (behind : Bytes) : Prop :=
  ∃ first body, lexeme.spelling = first :: body ∧
    leading? first (body ++ behind) = some (lexeme, behind)

theorem leads_of_leading (leads : leading? first rest = some (lexeme, behind)) :
    lexeme.Leads behind := by
  obtain ⟨body, rfl, spelled, -⟩ := leading_cut leads 0
  exact ⟨first, body, spelled, leads⟩

/-- What is cut off at the end of a text takes no lexeme in front with it. -/
theorem Leads.take (leads : lexeme.Leads behind) (count : Nat) : lexeme.Leads (behind.take count) := by
  obtain ⟨first, body, spelled, leading⟩ := leads
  obtain ⟨same, split, sameSpelled, cut⟩ := leading_cut leading count
  obtain rfl := List.append_cancel_right split
  exact ⟨first, body, spelled, cut⟩

/-- A lexeme at the front of a text is its first token. -/
theorem Leads.tokensFrom (leads : lexeme.Leads behind) (offset : Nat) :
    tokensFrom offset (lexeme.spelling ++ behind) =
      ⟨lexeme, offset⟩ :: ArithAsm.tokensFrom (offset + lexeme.spelling.length) behind := by
  obtain ⟨first, body, spelled, leading⟩ := leads
  rw [spelled, List.cons_append, tokensFrom_token offset leading, spelled]

end Lexeme

/-- A text is cut at a token: the token is read there whatever is left of the text
behind it, and in front of it nothing changes. -/
theorem tokensFrom_split {offset : Nat} {text : Bytes} {before after : List Token} {token : Token}
    (scanned : tokensFrom offset text = before ++ token :: after) :
    ∃ front behind, text = front ++ (token.lexeme.spelling ++ behind) ∧
      token.start = offset + front.length ∧ token.lexeme.Leads behind ∧
      ∀ count, tokensFrom offset (front ++ (token.lexeme.spelling ++ behind.take count)) =
        before ++ token :: tokensFrom token.stop (behind.take count) := by
  fun_induction tokensFrom offset text generalizing before with
  | case1 offset => simp at scanned
  | case2 offset first rest leads ih =>
    obtain ⟨front, behind, rfl, start, leadsThere, cut⟩ := ih scanned
    have skipped (other : Bytes) : Lexeme.leading? first other = none :=
      leading_eq_none_iff.mpr (leading_eq_none_iff.mp leads)
    refine ⟨first :: front, behind, rfl, ?_, leadsThere, fun count => ?_⟩
    · rw [start, List.length_cons]
      omega
    · rw [List.cons_append, tokensFrom_skip _ (skipped _), cut]
  | case3 offset first rest lexeme behind leads ih =>
    have whole := Lexeme.spelling_append_of_leading leads
    have leadsHere := Lexeme.leads_of_leading leads
    cases before with
    | nil =>
      obtain ⟨rfl, -⟩ := List.cons.inj scanned
      refine ⟨[], behind, whole.symm, rfl, leadsHere, fun count => ?_⟩
      rw [List.nil_append, List.nil_append, (leadsHere.take count).tokensFrom]
      rfl
    | cons head earlier =>
      obtain ⟨rfl, remaining⟩ := List.cons.inj scanned
      obtain ⟨front, later, rfl, start, leadsThere, cut⟩ := ih remaining
      refine ⟨lexeme.spelling ++ front, later, ?_, ?_, leadsThere, fun count => ?_⟩
      · rw [← whole, List.append_assoc]
      · rw [start, List.length_append, Nat.add_assoc]
      · -- The first lexeme is read from what is left of the text behind it.
        have left : (front ++ (token.lexeme.spelling ++ later)).take
            (front.length + (token.lexeme.spelling.length + count)) =
              front ++ (token.lexeme.spelling ++ later.take count) := by
          rw [List.take_length_add_append, List.take_length_add_append]
        have leadsCut := leadsHere.take (front.length + (token.lexeme.spelling.length + count))
        rw [left] at leadsCut
        rw [List.append_assoc, leadsCut.tokensFrom, cut, List.cons_append]

/-- Tokens in a row are those of the piece of the source from the start of the first
to the stop of the last; the pieces on both sides have the tokens there. -/
theorem tokens_slice {source : Bytes} {before own after : List Token} {first last : Token}
    (scanned : tokens source = before ++ (own ++ after)) (isFirst : own.head? = some first)
    (isLast : own.getLast? = some last) :
    ∃ front body behind, source = front ++ (body ++ behind) ∧ front.length = first.start ∧
      front.length + body.length = last.stop ∧ tokens front = before ∧
      tokensFrom first.start body = own ∧ tokensFrom last.stop behind = after := by
  obtain ⟨initial, rfl⟩ := List.getLast?_eq_some_iff.mp isLast
  have atLast : tokens source = (before ++ initial) ++ last :: after := by simp [scanned]
  obtain ⟨upTo, behind, rfl, lastStart, -, cut⟩ := tokensFrom_split atLast
  have head : tokens (upTo ++ last.lexeme.spelling) = before ++ (initial ++ [last]) := by
    simpa [tokens, tokensFrom] using cut 0
  have rest : tokensFrom last.stop behind = after := by
    have uncut := cut behind.length
    rw [List.take_length] at uncut
    have same := atLast.symm.trans uncut
    exact (List.cons.inj (List.append_cancel_left same)).2.symm
  obtain ⟨tail, ownTokens⟩ := List.head?_eq_some_iff.mp isFirst
  rw [ownTokens] at head
  obtain ⟨front, following, split, firstStart, leads, uncut⟩ := tokensFrom_split head
  rw [Nat.zero_add] at firstStart lastStart
  have lengths := congrArg List.length split
  simp only [List.length_append] at lengths
  refine ⟨front, first.lexeme.spelling ++ following, behind, ?_, firstStart.symm, ?_, ?_, ?_, rest⟩
  · simpa only [List.append_assoc] using congrArg (· ++ behind) split
  · rw [Token.stop, lastStart, List.length_append]
    omega
  · have front := tokens_take head
    rwa [split, firstStart, List.take_left] at front
  · have whole := uncut following.length
    rw [List.take_length, ← split] at whole
    have same := head.symm.trans whole
    rw [leads.tokensFrom, ownTokens]
    exact (List.append_cancel_left same).symm

/-- The bytes of a token can be cut out of the source that it was scanned from. -/
theorem slice_of_scanned {source : Bytes} {token : Token} (scanned : token ∈ tokens source) :
    token.span.slice? source = some token.lexeme.spelling := by
  obtain ⟨before, after, split⟩ := List.append_of_mem scanned
  obtain ⟨front, behind, rfl, start, -, -⟩ := tokensFrom_split split
  have within := tokens_within scanned
  have ordered : token.span.start ≤ token.span.stop := within.1.le
  rw [Span.slice?, if_pos ⟨ordered, within.2⟩, Token.span, Token.stop, start, Nat.zero_add,
    List.take_length_add_append, List.take_left, List.drop_left]

/-- So can its text. -/
theorem text_of_scanned {source : Bytes} {token : Token} (scanned : token ∈ tokens source) :
    token.span.text? source = some token.lexeme.text := by
  rw [Span.text?, slice_of_scanned scanned]
  rfl

end ArithAsm
