import ArithAsm.Proofs.Enclosure
import ArithAsm.Proofs.Surroundings

/-! The spans in a tree are where its parts are written. Cut out of the source, the
span of a group or of a literal reads as that group or literal again; spans of
neighbours follow each other, and the span of a group lies strictly around those of
everything in it. -/
namespace ArithAsm

/-! ## Spans of a tree -/

mutual

/-- Every span in a form, from the left and from the outside in. -/
def Form.spans : Form → List Span
  | .literal number => [number.span]
  | .group span members => span :: Program.spans members
  | .dump argument => argument.spans
  | .add terms => terms.map Literal.span
  | .sub seed terms => (seed :: terms).map Literal.span

/-- Every span in forms, in order. -/
def Program.spans : Program → List Span
  | [] => []
  | form :: rest => form.spans ++ Program.spans rest

end

/-- Every span of the first list ends before any span of the second one starts. -/
def SpansPrecede (earlier later : List Span) : Prop :=
  ∀ span ∈ earlier, ∀ next ∈ later, span.stop ≤ next.start

mutual

/-- Whatever stands side by side in the form is in order and apart, and every group
reaches further than what is in it. -/
def Form.SpansNest : Form → Prop
  | .literal _ => True
  | .group span members =>
    (∀ inner ∈ Program.spans members, span.start < inner.start ∧ inner.stop < span.stop) ∧
      Program.SpansNest members
  | .dump argument => argument.SpansNest
  | .add terms => terms.Pairwise (·.span.stop ≤ ·.span.start)
  | .sub seed terms => (seed :: terms).Pairwise (·.span.stop ≤ ·.span.start)

/-- Forms side by side are in order and apart, and so is what is in them. -/
def Program.SpansNest : Program → Prop
  | [] => True
  | form :: rest => SpansPrecede form.spans (Program.spans rest) ∧ form.SpansNest ∧
    Program.SpansNest rest

end

/-! ## Spans and tokens -/

/-- Tokens that take up room and follow one another. -/
structure InLine (list : List Token) : Prop where
  nonempty : ∀ token ∈ list, token.start < token.stop
  ordered : list.Pairwise (·.stop ≤ ·.start)

theorem inLine_tokens (source : Bytes) : InLine (tokens source) where
  nonempty _ scanned := (tokens_within scanned).1
  ordered := tokens_pairwise source

namespace InLine
variable {first second : List Token}

theorem left (inLine : InLine (first ++ second)) : InLine first where
  nonempty token member := inLine.nonempty token (List.mem_append_left _ member)
  ordered := (List.pairwise_append.mp inLine.ordered).1

theorem right (inLine : InLine (first ++ second)) : InLine second where
  nonempty token member := inLine.nonempty token (List.mem_append_right _ member)
  ordered := (List.pairwise_append.mp inLine.ordered).2.1

theorem tail {token : Token} (inLine : InLine (token :: second)) : InLine second :=
  right (show InLine ([token] ++ second) from inLine)

theorem apart (inLine : InLine (first ++ second)) {token next : Token} (earlier : token ∈ first)
    (later : next ∈ second) : token.stop ≤ next.start :=
  (List.pairwise_append.mp inLine.ordered).2.2 token earlier next later

end InLine

/-- The span starts with one of the tokens and stops with one, and is not empty. -/
def Span.CoveredBy (span : Span) (own : List Token) : Prop :=
  span.start < span.stop ∧ (∃ first ∈ own, first.start = span.start) ∧
    ∃ last ∈ own, last.stop = span.stop

theorem Span.CoveredBy.mono {span : Span} {own more : List Token} (covered : span.CoveredBy own)
    (included : ∀ token ∈ own, token ∈ more) : span.CoveredBy more := by
  obtain ⟨positive, ⟨first, isFirst, start⟩, last, isLast, stop⟩ := covered
  exact ⟨positive, ⟨first, included first isFirst, start⟩, last, included last isLast, stop⟩

/-- Spans that tokens cover follow each other as the tokens do. -/
theorem spansPrecede_of_covered {first second : List Token} {earlier later : List Span}
    (inLine : InLine (first ++ second)) (coveredFirst : ∀ span ∈ earlier, span.CoveredBy first)
    (coveredSecond : ∀ span ∈ later, span.CoveredBy second) : SpansPrecede earlier later := by
  intro span member next nextMember
  obtain ⟨-, -, last, isLast, stop⟩ := coveredFirst span member
  obtain ⟨-, ⟨opening, isFirst, start⟩, -⟩ := coveredSecond next nextMember
  rw [← stop, ← start]
  exact inLine.apart isLast isFirst

/-- Operands have the spans of the tokens that write them. -/
theorem spans_of_operands {operands : List Literal} {own : List Token}
    (spelled : List.Forall₂ Leaf.WrittenBy (Literal.operandLeaves operands) own) :
    operands.map Literal.span = own.map Token.span := by
  have unmarked : List.Forall₂ Leaf.WrittenBy (operands.map (.number · false)) own :=
    Leaf.written_congr (by simp [Literal.operandLeaves_unmarked, Leaf.unmarked]) spelled
  clear spelled
  induction operands generalizing own with
  | nil =>
    cases unmarked
    rfl
  | cons operand rest ih =>
    cases unmarked with
    | cons head tail =>
      obtain ⟨digits, -, -, -, span⟩ := head
      rw [List.map_cons, List.map_cons, span, ih tail]

theorem covered_of_operands {operands : List Literal} {own : List Token}
    (spelled : List.Forall₂ Leaf.WrittenBy (Literal.operandLeaves operands) own) (inLine : InLine own) :
    ∀ span ∈ operands.map Literal.span, span.CoveredBy own := by
  intro span member
  rw [spans_of_operands spelled] at member
  obtain ⟨token, present, rfl⟩ := List.mem_map.mp member
  exact ⟨inLine.nonempty token present, ⟨token, present, rfl⟩, token, present, rfl⟩

theorem pairwise_of_operands {operands : List Literal} {own : List Token}
    (spelled : List.Forall₂ Leaf.WrittenBy (Literal.operandLeaves operands) own) (inLine : InLine own) :
    operands.Pairwise (·.span.stop ≤ ·.span.start) := by
  have spans : (operands.map Literal.span).Pairwise (·.stop ≤ ·.start) := by
    rw [spans_of_operands spelled]
    exact List.pairwise_map.mpr inLine.ordered
  exact List.pairwise_map.mp spans

/-- A group spans the tokens from its `(` to its `)`. -/
theorem written_group_span {span : Span} {members : Program} {own : List Token}
    (spelled : List.Forall₂ Leaf.WrittenBy (Form.group span members).leaves own) :
    ∃ inside start stop, own = ⟨.openGroup, start⟩ :: (inside ++ [⟨.closeGroup, stop⟩]) ∧
      span = ⟨start, stop + 1⟩ ∧ List.Forall₂ Leaf.WrittenBy members.leaves inside := by
  obtain ⟨⟨_, _⟩, _, ⟨rfl, rfl⟩, inner, rfl⟩ := List.forall₂_cons_left_iff.mp spelled
  obtain ⟨inside, _, rfl, wrote, last⟩ := Leaf.written_append inner
  obtain ⟨⟨_, stop⟩, rfl, rfl, closes⟩ := Leaf.written_singleton last
  obtain ⟨begins, ends⟩ := span
  obtain rfl : stop + 1 = ends := closes
  exact ⟨inside, begins, stop, rfl, rfl, wrote⟩

mutual

/-- The tokens of a form cover the spans in it. -/
theorem covered_of_form {own : List Token} (inLine : InLine own) : (form : Form) →
    List.Forall₂ Leaf.WrittenBy form.leaves own → ∀ span ∈ form.spans, span.CoveredBy own
  | .literal number, spelled => by
    have same : (Form.literal number).leaves.map Leaf.unmarked =
        (Literal.operandLeaves [number]).map Leaf.unmarked := rfl
    exact covered_of_operands (Leaf.written_congr same spelled) inLine
  | .group span members, spelled => by
    obtain ⟨inside, start, stop, rfl, rfl, wrote⟩ := written_group_span spelled
    intro span member
    rcases List.mem_cons.mp member with rfl | inner
    · have order : start + 1 ≤ stop :=
        (List.pairwise_cons.mp inLine.ordered).1 ⟨.closeGroup, stop⟩ (by simp)
      refine ⟨?_, ⟨⟨.openGroup, start⟩, by simp, rfl⟩, ⟨.closeGroup, stop⟩, by simp, rfl⟩
      show start < stop + 1
      omega
    · exact (covered_of_program inLine.tail.left members wrote span inner).mono fun _ present => by
        simp [present]
  | .dump argument, spelled => by
    obtain ⟨dump, own, -, wrote, rfl⟩ := List.forall₂_cons_left_iff.mp spelled
    intro span member
    exact (covered_of_form inLine.tail argument wrote span member).mono fun _ => List.mem_cons_of_mem _
  | .add terms, spelled => by
    obtain ⟨sign, own, -, wrote, rfl⟩ := List.forall₂_cons_left_iff.mp spelled
    intro span member
    exact (covered_of_operands wrote inLine.tail span member).mono fun _ => List.mem_cons_of_mem _
  | .sub seed terms, spelled => by
    obtain ⟨sign, own, -, wrote, rfl⟩ := List.forall₂_cons_left_iff.mp spelled
    intro span member
    exact (covered_of_operands wrote inLine.tail span member).mono fun _ => List.mem_cons_of_mem _

theorem covered_of_program {own : List Token} (inLine : InLine own) : (program : Program) →
    List.Forall₂ Leaf.WrittenBy program.leaves own → ∀ span ∈ program.spans, span.CoveredBy own
  | [], _ => by simp [Program.spans]
  | form :: rest, spelled => by
    obtain ⟨first, second, rfl, spelledForm, spelledRest⟩ := Leaf.written_append spelled
    intro span member
    rcases List.mem_append.mp member with early | late
    · exact (covered_of_form inLine.left form spelledForm span early).mono fun _ => List.mem_append_left _
    · exact (covered_of_program inLine.right rest spelledRest span late).mono fun _ =>
        List.mem_append_right _

end

mutual

/-- Spans nest in a form as its tokens do. -/
theorem spansNest_of_form {own : List Token} (inLine : InLine own) : (form : Form) →
    List.Forall₂ Leaf.WrittenBy form.leaves own → form.SpansNest
  | .literal _, _ => trivial
  | .group span members, spelled => by
    obtain ⟨inside, start, stop, rfl, rfl, wrote⟩ := written_group_span spelled
    have within : InLine inside := inLine.tail.left
    refine ⟨?_, spansNest_of_program within members wrote⟩
    intro inner member
    obtain ⟨-, ⟨first, isFirst, begins⟩, last, isLast, ends⟩ :=
      covered_of_program within members wrote inner member
    have opening := (List.pairwise_cons.mp inLine.ordered).1 first (by simp [isFirst])
    have closing : last.stop ≤ stop := inLine.tail.apart isLast (List.mem_singleton_self _)
    have positive := inLine.nonempty ⟨.openGroup, start⟩ (by simp)
    rw [← begins, ← ends]
    exact ⟨Nat.lt_of_lt_of_le positive opening, Nat.lt_succ_of_le closing⟩
  | .dump argument, spelled => by
    obtain ⟨dump, own, -, wrote, rfl⟩ := List.forall₂_cons_left_iff.mp spelled
    exact spansNest_of_form inLine.tail argument wrote
  | .add terms, spelled => by
    obtain ⟨sign, own, -, wrote, rfl⟩ := List.forall₂_cons_left_iff.mp spelled
    exact pairwise_of_operands wrote inLine.tail
  | .sub seed terms, spelled => by
    obtain ⟨sign, own, -, wrote, rfl⟩ := List.forall₂_cons_left_iff.mp spelled
    exact pairwise_of_operands wrote inLine.tail

/-- Spans nest in forms as their tokens do. -/
theorem spansNest_of_program {own : List Token} (inLine : InLine own) : (program : Program) →
    List.Forall₂ Leaf.WrittenBy program.leaves own → program.SpansNest
  | [], _ => trivial
  | form :: rest, spelled => by
    obtain ⟨first, second, rfl, spelledForm, spelledRest⟩ := Leaf.written_append spelled
    refine ⟨?_, spansNest_of_form inLine.left form spelledForm,
      spansNest_of_program inLine.right rest spelledRest⟩
    exact spansPrecede_of_covered inLine (covered_of_form inLine.left form spelledForm)
      (covered_of_program inLine.right rest spelledRest)

end

/-! ## Cutting out -/

theorem Span.slice_of_parts (front body behind : Bytes) :
    Span.slice? ⟨front.length, front.length + body.length⟩ (front ++ (body ++ behind)) = some body := by
  have bounds : front.length ≤ front.length + body.length ∧
      front.length + body.length ≤ (front ++ (body ++ behind)).length := by
    simp only [List.length_append]
    omega
  rw [Span.slice?, if_pos bounds, List.take_length_add_append, List.take_left, List.drop_left]

/-- A text whose tokens begin with a `(` at its start and end with a `)` at its end has
the other tokens in between. -/
theorem group_body {start stop : Nat} {body : Bytes} {inside : List Token}
    (scanned : tokensFrom start body = ⟨.openGroup, start⟩ :: (inside ++ [⟨.closeGroup, stop⟩]))
    (ends : start + body.length = stop + 1) :
    ∃ inner, body = 0x28 :: (inner ++ [0x29]) ∧ lexemes inner = inside.map Token.lexeme := by
  have atFirst : tokensFrom start body = [] ++ ⟨.openGroup, start⟩ :: (inside ++ [⟨.closeGroup, stop⟩]) :=
    scanned
  obtain ⟨front, behind, rfl, begins, leads, -⟩ := tokensFrom_split atFirst
  obtain rfl : front = [] := List.length_eq_zero_iff.mp (by
    have : start = start + front.length := begins
    omega)
  rw [List.nil_append, leads.tokensFrom] at scanned
  have atLast : tokensFrom (start + 1) behind = inside ++ ⟨.closeGroup, stop⟩ :: [] :=
    (List.cons.inj scanned).2
  obtain ⟨inner, rest, rfl, closes, -, -⟩ := tokensFrom_split atLast
  have place : stop = start + 1 + inner.length := closes
  obtain rfl : rest = [] := List.length_eq_zero_iff.mp (by
    simp only [Lexeme.spelling, List.nil_append, List.length_append, List.length_cons,
      List.length_nil] at ends
    omega)
  refine ⟨inner, rfl, ?_⟩
  have front := tokensFrom_take atLast
  rw [show (⟨.closeGroup, stop⟩ : Token).start - (start + 1) = inner.length by
    rw [place]
    exact Nat.add_sub_cancel_left _ _, List.take_left] at front
  rw [← map_lexeme_tokensFrom (start + 1), front]

section
variable {source : Bytes} {program : Program}

/-- The span of a group, cut out, begins with `(`, ends with the `)` that matches it and
is read as the group. -/
theorem group_excerpt {surroundings : Surroundings} {span : Span} {members : Program}
    (parsed : parse source = .ok (surroundings.fill (.group span members))) :
    ∃ inner alone, span.slice? source = some (0x28 :: (inner ++ [0x29])) ∧ Balanced (lexemes inner) ∧
      parse (0x28 :: (inner ++ [0x29])) = .ok [alone] ∧
      Program.shift [alone] span.start = [.group span members] := by
  have spelled := read_eq_ok_iff.mp (parse_eq_ok_iff_read.mp parsed)
  obtain ⟨before, own, after, split, written⟩ := Surroundings.written_of_spelled spelled
  obtain ⟨inside, start, stop, rfl, rfl, wrote⟩ := written_group_span written.form
  have isLast : (⟨.openGroup, start⟩ :: (inside ++ [⟨.closeGroup, stop⟩])).getLast? =
      some (⟨.closeGroup, stop⟩ : Token) := by
    rw [← List.cons_append, List.getLast?_concat]
  obtain ⟨front, body, behind, rfl, begins, ends, -, scanned, -⟩ := tokens_slice split rfl isLast
  have length : front.length = start := begins
  have whole : front.length + body.length = stop + 1 := ends
  obtain ⟨inner, rfl, sameInside⟩ := group_body scanned (length ▸ whole)
  obtain ⟨alone, parsedAlone, moved⟩ := parse_excerpt parsed written.form scanned
  refine ⟨inner, alone, ?_, ?_, parsedAlone, moved⟩
  · rw [← length, ← whole]
    exact Span.slice_of_parts front _ behind
  · rw [sameInside]
    exact balanced_of_program members wrote

/-- The span of a literal, cut out, is read as a literal with the same value. -/
theorem literal_excerpt {literal : Literal} {marked : Bool} (parsed : parse source = .ok program)
    (present : .number literal marked ∈ program.leaves) :
    ∃ digits, literal.span.slice? source = some digits ∧
      parse digits = .ok [.literal ⟨literal.value, ⟨0, literal.span.length⟩⟩] := by
  have spelled := read_eq_ok_iff.mp (parse_eq_ok_iff_read.mp parsed)
  obtain ⟨earlier, later, split⟩ := List.append_of_mem present
  have leaves := spelled.leaves
  rw [split] at leaves
  obtain ⟨before, _, cut, -, others⟩ := Leaf.written_append leaves
  obtain ⟨token, after, wrote, -, rfl⟩ := List.forall₂_cons_left_iff.mp others
  have scanned : token ∈ tokens source := by simp [cut]
  obtain ⟨front, behind, -, -, leads, -⟩ := tokensFrom_split cut
  obtain ⟨digits, offset, rfl, small, rfl⟩ := Literal.eq_ofNumeral wrote
  refine ⟨digits, slice_of_scanned scanned, ?_⟩
  have alone : tokens digits = [⟨.numeral digits, 0⟩] := by
    have first := (leads.take 0).tokensFrom 0
    simpa [tokens, tokensFrom, Lexeme.spelling] using first
  have value : (decimalValue digits).toUInt64.toNat = decimalValue digits :=
    UInt64.toNat_ofNat_of_lt' small
  have length : (Literal.ofNumeral offset digits).span.length = digits.length :=
    Nat.add_sub_cancel_left _ _
  rw [parse_eq_ok_iff_read, read_eq_ok_iff, alone, length]
  refine ⟨.cons ⟨digits, rfl, small, value, ?_⟩ .nil, ⟨trivial, trivial⟩, .singleton _, ?_⟩
  · simp [Token.span, Token.stop, Lexeme.spelling]
  · simp [Program.height, Form.height, maxNesting]

end

/-- In a program that was read from a source, the span of every group begins with `(`
and ends with the `)` that matches it, and cut out it is read as that group in its new
place; the span of every literal, operands included, is read as a literal with its
value. No span is empty or reaches past the end, neighbours follow each other without
overlapping, and every group lies strictly around what is in it. -/
theorem spans_are_faithful {source : Bytes} {program : Program} (parsed : parse source = .ok program) :
    (∀ (surroundings : Surroundings) (span : Span) (members : Program),
      program = surroundings.fill (.group span members) →
        ∃ inner alone, span.slice? source = some (0x28 :: (inner ++ [0x29])) ∧
          Balanced (lexemes inner) ∧ parse (0x28 :: (inner ++ [0x29])) = .ok [alone] ∧
          Program.shift [alone] span.start = [.group span members]) ∧
    (∀ (literal : Literal) (marked : Bool), .number literal marked ∈ program.leaves →
      ∃ digits, literal.span.slice? source = some digits ∧
        parse digits = .ok [.literal ⟨literal.value, ⟨0, literal.span.length⟩⟩]) ∧
    (∀ span ∈ program.spans, span.start < span.stop ∧ span.stop ≤ source.length) ∧
    program.SpansNest := by
  have spelled := read_eq_ok_iff.mp (parse_eq_ok_iff_read.mp parsed)
  have inLine := inLine_tokens source
  refine ⟨?_, fun literal marked => literal_excerpt parsed, ?_,
    spansNest_of_program inLine program spelled.leaves⟩
  · rintro surroundings span members rfl
    exact group_excerpt parsed
  · intro span member
    obtain ⟨positive, -, last, isLast, stop⟩ := covered_of_program inLine program spelled.leaves span member
    exact ⟨positive, stop ▸ (tokens_within isLast).2⟩

/-- A group inside the argument of a dump, and an operand with a zero in front, cut out
of their source. -/
theorem inner_group_and_seed_are_faithful :
    parse (Utf8.encode "1 dump (- 07 (5))") = .ok [.literal ⟨1, ⟨0, 1⟩⟩,
        .dump (.group ⟨7, 17⟩ [.sub ⟨7, ⟨10, 12⟩⟩ [], .group ⟨13, 16⟩ [.literal ⟨5, ⟨14, 15⟩⟩]])] ∧
      (∃ inner alone, Span.slice? ⟨13, 16⟩ (Utf8.encode "1 dump (- 07 (5))") =
          some (0x28 :: (inner ++ [0x29])) ∧
        parse (0x28 :: (inner ++ [0x29])) = .ok [alone] ∧
        Program.shift [alone] 13 = [.group ⟨13, 16⟩ [.literal ⟨5, ⟨14, 15⟩⟩]]) ∧
      ∃ digits, Span.slice? ⟨10, 12⟩ (Utf8.encode "1 dump (- 07 (5))") = some digits ∧
        parse digits = .ok [.literal ⟨7, ⟨0, 2⟩⟩] := by
  have parsed : parse (Utf8.encode "1 dump (- 07 (5))") = .ok [.literal ⟨1, ⟨0, 1⟩⟩,
      .dump (.group ⟨7, 17⟩ [.sub ⟨7, ⟨10, 12⟩⟩ [], .group ⟨13, 16⟩ [.literal ⟨5, ⟨14, 15⟩⟩]])] := by
    rw [parse, read, show tokens (Utf8.encode "1 dump (- 07 (5))") = [⟨.numeral [0x31], 0⟩,
      ⟨.word (Utf8.encode "dump"), 2⟩, ⟨.openGroup, 7⟩, ⟨.minus, 8⟩, ⟨.numeral [0x30, 0x37], 10⟩,
      ⟨.openGroup, 13⟩, ⟨.numeral [0x35], 14⟩, ⟨.closeGroup, 15⟩, ⟨.closeGroup, 16⟩] by decide +kernel]
    rfl
  obtain ⟨groups, literals, -⟩ := spans_are_faithful parsed
  obtain ⟨inner, alone, slice, -, parsedAlone, moved⟩ := groups
    ⟨[.group ⟨7, 17⟩ [.sub ⟨7, ⟨10, 12⟩⟩ []] [], .dump], [.literal ⟨1, ⟨0, 1⟩⟩], []⟩ ⟨13, 16⟩ _ rfl
  refine ⟨parsed, ⟨inner, alone, slice, parsedAlone, moved⟩, ?_⟩
  exact literals ⟨7, ⟨10, 12⟩⟩ true (by
    simp [Program.leaves, Form.leaves, Literal.operandLeaves])

end ArithAsm
