import ArithAsm.Proofs.Slicing

/-! Scanning is longest match. What the tokens of a source have to be is said byte
by byte, without a scan: each token has the form of its kind, goes on as far as its
kind allows, and what no token covers begins none. Exactly one list of tokens is
like that, and it is the one that scanning gives. -/
namespace ArithAsm

/-- Whether the byte may begin a token: a parenthesis, an operator, a letter, `_` or
a digit. -/
def Byte.startsToken (byte : UInt8) : Bool :=
  byte == 0x28 || byte == 0x29 || byte == 0x2B || byte == 0x2D || isWordStart byte || isDigit byte

/-- The lexeme is one of its kind, and `next`, the byte behind it if there is one,
does not prolong it. -/
def Lexeme.Maximal (next : Option UInt8) : Lexeme → Prop
  | openGroup | closeGroup | plus | minus => True
  | numeral digits => digits ≠ [] ∧ (∀ byte ∈ digits, Byte.isDigit byte = true) ∧
    ∀ byte ∈ next, Byte.isDigit byte = false
  | word name => (∃ first rest, name = first :: rest ∧ Byte.isWordStart first = true ∧
      ∀ byte ∈ rest, Byte.isWordByte byte = true) ∧
    ∀ byte ∈ next, Byte.isWordByte byte = false

/-- The tokens are those of the source by longest match. -/
structure Tokenization (source : Bytes) (list : List Token) : Prop where
  /-- No span is empty or reaches past the end. -/
  spans : ∀ token ∈ list, token.start < token.stop ∧ token.stop ≤ source.length
  /-- The spans ascend and do not overlap. -/
  ordered : list.Pairwise (·.stop ≤ ·.start)
  /-- A byte that no span covers begins no token. -/
  skipped : ∀ place byte, source[place]? = some byte →
    (∀ token ∈ list, ¬ (token.start ≤ place ∧ place < token.stop)) → Byte.startsToken byte = false
  /-- The bytes of the span spell the token. -/
  spelled : ∀ token ∈ list, token.span.slice? source = some token.lexeme.spelling
  maximal : ∀ token ∈ list, token.lexeme.Maximal source[token.stop]?

/-! ## One lexeme -/

theorem leading_eq_none_iff_startsToken {byte : UInt8} {rest : Bytes} :
    Lexeme.leading? byte rest = none ↔ Byte.startsToken byte = false := by
  rw [leading_eq_none_iff]
  simp [Byte.startsToken, Byte.isWordByte, and_assoc]

private theorem head_dropWhile {p : UInt8 → Bool} (text : Bytes) :
    ∀ byte ∈ (text.dropWhile p).head?, p byte = false := by
  intro byte isFirst
  have stopped := List.head?_dropWhile_not p text
  rw [Option.mem_def.mp isFirst] at stopped
  simpa using stopped

/-- A run of bytes is taken off in front of a byte that is not one of them. -/
private theorem span_run {p : UInt8 → Bool} {run behind : Bytes} (all : ∀ byte ∈ run, p byte = true)
    (next : ∀ byte ∈ behind.head?, p byte = false) :
    (run ++ behind).takeWhile p = run ∧ (run ++ behind).dropWhile p = behind := by
  have stops : behind.takeWhile p = [] ∧ behind.dropWhile p = behind := by
    cases behind with
    | nil => exact ⟨rfl, rfl⟩
    | cons byte rest =>
      have other : ¬ p byte = true := by simp [next byte rfl]
      exact ⟨List.takeWhile_cons_of_neg other, List.dropWhile_cons_of_neg other⟩
  rw [List.takeWhile_append_of_pos all, List.dropWhile_append_of_pos all, stops.1, stops.2]
  exact ⟨List.append_nil run, rfl⟩

/-- A byte of a class without them is none of the tokens of one byte. -/
private theorem ne_sign {p : UInt8 → Bool} {byte : UInt8} (holds : p byte = true)
    (without : p 0x28 = false ∧ p 0x29 = false ∧ p 0x2B = false ∧ p 0x2D = false) :
    byte ≠ 0x28 ∧ byte ≠ 0x29 ∧ byte ≠ 0x2B ∧ byte ≠ 0x2D := by
  have other {sign : UInt8} (outside : p sign = false) : byte ≠ sign := by
    rintro rfl
    rw [outside] at holds
    cases holds
  exact ⟨other without.1, other without.2.1, other without.2.2.1, other without.2.2.2⟩

namespace Lexeme
variable {lexeme : Lexeme} {behind : Bytes}

theorem maximal_of_leading {first : UInt8} {rest : Bytes}
    (leads : leading? first rest = some (lexeme, behind)) : lexeme.Maximal behind.head? := by
  simp only [leading?] at leads
  split at leads
  · cases leads
    trivial
  split at leads
  · cases leads
    trivial
  split at leads
  · cases leads
    trivial
  split at leads
  · cases leads
    trivial
  split at leads
  · rename_i start
    cases leads
    exact ⟨⟨first, _, rfl, start, fun byte member => List.mem_takeWhile_imp member⟩, head_dropWhile rest⟩
  split at leads
  · rename_i digit
    cases leads
    refine ⟨List.cons_ne_nil _ _, ?_, head_dropWhile rest⟩
    intro byte member
    rcases List.mem_cons.mp member with rfl | later
    · exact digit
    · exact List.mem_takeWhile_imp later
  · cases leads

/-- A lexeme is read at the front of a text exactly if it is one of its kind and the
next byte does not prolong it. -/
theorem leads_iff_maximal : lexeme.Leads behind ↔ lexeme.Maximal behind.head? := by
  constructor
  · rintro ⟨first, body, -, leading⟩
    exact maximal_of_leading leading
  · intro maximal
    cases lexeme with
    | openGroup | closeGroup | plus | minus => exact ⟨_, [], rfl, rfl⟩
    | numeral digits =>
      obtain ⟨nonempty, all, next⟩ := maximal
      obtain ⟨first, rest, rfl⟩ := List.exists_cons_of_ne_nil nonempty
      obtain ⟨digit, others⟩ := List.forall_mem_cons.mp all
      obtain ⟨noOpen, noClose, noPlus, noMinus⟩ := ne_sign digit ⟨rfl, rfl, rfl, rfl⟩
      refine ⟨first, rest, rfl, ?_⟩
      simp [leading?, noOpen, noClose, noPlus, noMinus, Byte.isWordStart_of_isDigit digit, digit,
        span_run others next]
    | word name =>
      obtain ⟨⟨first, rest, rfl, start, others⟩, next⟩ := maximal
      obtain ⟨noOpen, noClose, noPlus, noMinus⟩ := ne_sign start ⟨rfl, rfl, rfl, rfl⟩
      refine ⟨first, rest, rfl, ?_⟩
      simp [leading?, noOpen, noClose, noPlus, noMinus, start, span_run others next]

/-- Two lexemes that are read at the front of one text are the same. -/
theorem Leads.unique {other : Lexeme} {otherBehind : Bytes} (leads : lexeme.Leads behind)
    (otherLeads : other.Leads otherBehind)
    (same : lexeme.spelling ++ behind = other.spelling ++ otherBehind) : lexeme = other := by
  have tokens := leads.tokensFrom 0
  rw [same, otherLeads.tokensFrom 0] at tokens
  exact (Token.mk.inj (List.cons.inj tokens).1).1.symm

end Lexeme

/-! ## The tokens of a scan -/

/-- The text from a token's start on is its spelling and what stands behind it. -/
theorem drop_start_of_slice {source : Bytes} {token : Token}
    (spelled : token.span.slice? source = some token.lexeme.spelling) :
    source.drop token.start = token.lexeme.spelling ++ source.drop token.stop := by
  simp only [Span.slice?] at spelled
  split at spelled
  · rename_i bounds
    obtain ⟨start, stop⟩ : token.start ≤ token.stop ∧ token.stop ≤ source.length := bounds
    have cut : (source.take token.stop).drop token.start = token.lexeme.spelling :=
      Option.some.inj spelled
    calc source.drop token.start
        = (source.take token.stop ++ source.drop token.stop).drop token.start := by
          rw [List.take_append_drop]
      _ = (source.take token.stop).drop token.start ++ source.drop token.stop := by
          apply List.drop_append_of_le_length
          rw [List.length_take]
          omega
      _ = token.lexeme.spelling ++ source.drop token.stop := by rw [cut]
  · cases spelled

theorem maximal_of_scanned {source : Bytes} {token : Token} (scanned : token ∈ tokens source) :
    token.lexeme.Maximal source[token.stop]? := by
  obtain ⟨before, after, split⟩ := List.append_of_mem scanned
  obtain ⟨front, behind, rfl, start, leads, -⟩ := tokensFrom_split split
  have next : (front ++ (token.lexeme.spelling ++ behind))[token.stop]? = behind.head? := by
    rw [← List.head?_drop, Token.stop, start, Nat.zero_add, List.drop_length_add_append, List.drop_left]
  rw [next]
  exact Lexeme.leads_iff_maximal.mp leads

/-- What a scan passes over begins no token. -/
theorem skipped_of_scan {offset place : Nat} {text : Bytes} {byte : UInt8}
    (here : text[place]? = some byte)
    (uncovered : ∀ token ∈ tokensFrom offset text,
      ¬ (token.start ≤ offset + place ∧ offset + place < token.stop)) :
    Byte.startsToken byte = false := by
  fun_induction tokensFrom offset text generalizing place with
  | case1 offset => simp at here
  | case2 offset first rest leads ih =>
    cases place with
    | zero =>
      obtain rfl : first = byte := by simpa using here
      exact leading_eq_none_iff_startsToken.mp leads
    | succ place =>
      rw [List.getElem?_cons_succ] at here
      refine ih here fun token scanned => ?_
      have apart := uncovered token scanned
      rwa [Nat.add_assoc, Nat.add_comm 1]
  | case3 offset first rest lexeme behind leads ih =>
    have whole := Lexeme.spelling_append_of_leading leads
    have passed : lexeme.spelling.length ≤ place := by
      have apart := uncovered ⟨lexeme, offset⟩ List.mem_cons_self
      simp only [Token.stop] at apart
      omega
    have further : offset + place = offset + lexeme.spelling.length + (place - lexeme.spelling.length) := by
      omega
    rw [← whole, List.getElem?_append_right passed] at here
    refine ih here fun token scanned => ?_
    rw [← further]
    exact uncovered token (List.mem_cons_of_mem _ scanned)

theorem tokenization_tokens (source : Bytes) : Tokenization source (tokens source) where
  spans _ scanned := tokens_within scanned
  ordered := tokens_pairwise source
  skipped place byte here uncovered := by
    have passed : ∀ token ∈ tokensFrom 0 source,
        ¬ (token.start ≤ 0 + place ∧ 0 + place < token.stop) := by
      rw [Nat.zero_add]
      exact uncovered
    exact skipped_of_scan here passed
  spelled _ scanned := slice_of_scanned scanned
  maximal _ scanned := maximal_of_scanned scanned

/-! ## No other tokens -/

namespace Tokenization
variable {source : Bytes} {list : List Token}

theorem leads (tokenization : Tokenization source list) {token : Token} (member : token ∈ list) :
    token.lexeme.Leads (source.drop token.stop) := by
  apply Lexeme.leads_iff_maximal.mpr
  rw [List.head?_drop]
  exact tokenization.maximal token member

/-- A token starts with a byte that begins one. -/
theorem startsToken (tokenization : Tokenization source list) {token : Token} (member : token ∈ list) :
    ∃ byte, source[token.start]? = some byte ∧ Byte.startsToken byte = true := by
  have split := drop_start_of_slice (tokenization.spelled token member)
  obtain ⟨first, body, spelled, leading⟩ := tokenization.leads member
  refine ⟨first, ?_, ?_⟩
  · rw [← List.head?_drop, split, spelled]
    rfl
  · by_contra no
    rw [leading_eq_none_iff_startsToken.mpr (Bool.eq_false_iff.mpr no)] at leading
    cases leading

/-- From an offset at which no token is under way, the tokens that are left are
those of a scan from there. -/
theorem eq_tokensFrom {offset : Nat} {text : Bytes} {earlier later : List Token}
    (tokenization : Tokenization source (earlier ++ later)) (rest : source.drop offset = text)
    (passed : ∀ token ∈ earlier, token.stop ≤ offset) (ahead : ∀ token ∈ later, offset ≤ token.start) :
    later = tokensFrom offset text := by
  have bounds {token : Token} (member : token ∈ later) :=
    tokenization.spans token (List.mem_append_right _ member)
  fun_induction tokensFrom offset text generalizing earlier later with
  | case1 offset =>
    have ended : source.length ≤ offset := List.drop_eq_nil_iff.mp rest
    apply List.eq_nil_iff_forall_not_mem.mpr
    intro token member
    have within := bounds member
    have start := ahead token member
    omega
  | case2 offset first behind leads ih =>
    have here : source[offset]? = some first := by rw [← List.head?_drop, rest, List.head?_cons]
    have next : source.drop (offset + 1) = behind := by rw [← List.tail_drop, rest, List.tail_cons]
    apply ih tokenization next (fun token member => Nat.le_succ_of_le (passed token member))
    · intro token member
      -- No token starts at a byte that begins none.
      have start := ahead token member
      obtain ⟨byte, isByte, starts⟩ := tokenization.startsToken (List.mem_append_right _ member)
      by_contra notPast
      obtain rfl : token.start = offset := by omega
      obtain rfl : first = byte := Option.some.inj (here.symm.trans isByte)
      rw [leading_eq_none_iff_startsToken.mp leads] at starts
      cases starts
    · exact fun member => bounds member
  | case3 offset first following lexeme behind leads ih =>
    have here : source[offset]? = some first := by rw [← List.head?_drop, rest, List.head?_cons]
    have leadsHere := Lexeme.leads_of_leading leads
    have whole := Lexeme.spelling_append_of_leading leads
    -- The byte has to be covered, and nothing earlier reaches as far.
    have covered : ∃ token ∈ later, token.start = offset := by
      by_contra none
      have starts := tokenization.skipped offset first here fun token member covers => by
        rcases List.mem_append.mp member with early | late
        · have stop := passed token early
          omega
        · have start := ahead token late
          exact none ⟨token, late, by omega⟩
      rw [leading_eq_none_iff_startsToken.mpr starts] at leads
      cases leads
    obtain ⟨token, member, start⟩ := covered
    have pairwise := (List.pairwise_append.mp tokenization.ordered).2.1
    cases later with
    | nil => cases member
    | cons head tail =>
      obtain ⟨headFirst, tailPairwise⟩ := List.pairwise_cons.mp pairwise
      obtain rfl : token = head := by
        rcases List.mem_cons.mp member with same | late
        · exact same
        · have order := headFirst token late
          have headStart := ahead head List.mem_cons_self
          have within := bounds List.mem_cons_self
          omega
      have split := drop_start_of_slice
        (tokenization.spelled token (List.mem_append_right _ List.mem_cons_self))
      rw [start, rest, ← whole] at split
      have same : lexeme = token.lexeme :=
        leadsHere.unique (tokenization.leads (List.mem_append_right _ List.mem_cons_self)) split
      have isToken : token = ⟨lexeme, offset⟩ := by rw [same, ← start]
      have stop : token.stop = offset + lexeme.spelling.length := by rw [isToken, Token.stop]
      have next : source.drop (offset + lexeme.spelling.length) = behind := by
        rw [← List.drop_drop, rest, ← whole, List.drop_left]
      have remaining : Tokenization source ((earlier ++ [token]) ++ tail) := by simpa using tokenization
      rw [isToken]
      congr 1
      apply ih remaining next
      · intro other member
        rcases List.mem_append.mp member with early | last
        · have before := passed other early
          omega
        · obtain rfl := List.mem_singleton.mp last
          exact stop.le
      · intro other member
        exact stop ▸ headFirst other member
      · exact fun member => bounds (List.mem_cons_of_mem _ member)

theorem iff_eq_tokens : Tokenization source list ↔ list = tokens source := by
  constructor
  · intro tokenization
    have begun : Tokenization source ([] ++ list) := tokenization
    exact begun.eq_tokensFrom rfl (by simp) (by simp)
  · rintro rfl
    exact tokenization_tokens source

/-- A token that ends where a numeral starts is one of a single byte: a word or
another numeral would have taken the digits in. -/
theorem eq_sign_before_numeral (tokenization : Tokenization source list) {other token : Token}
    {digits : Bytes} (otherMember : other ∈ list) (member : token ∈ list)
    (numeral : token.lexeme = .numeral digits) (adjacent : other.stop = token.start) :
    other.lexeme.spelling ∈ [[0x28], [0x29], [0x2B], [0x2D]] := by
  have maximal := tokenization.maximal other otherMember
  have split := drop_start_of_slice (tokenization.spelled token member)
  obtain ⟨nonempty, all, -⟩ : digits ≠ [] ∧ (∀ byte ∈ digits, Byte.isDigit byte = true) ∧ _ := by
    simpa only [numeral, Lexeme.Maximal] using tokenization.maximal token member
  obtain ⟨first, rest, rfl⟩ := List.exists_cons_of_ne_nil nonempty
  have digit : Byte.isDigit first = true := all first List.mem_cons_self
  have next : source[other.stop]? = some first := by
    rw [adjacent, ← List.head?_drop, split, numeral]
    rfl
  rw [next] at maximal
  cases kind : other.lexeme with
  | openGroup | closeGroup | plus | minus => simp [Lexeme.spelling]
  | numeral digits =>
    rw [kind] at maximal
    have ends := maximal.2.2 first rfl
    rw [digit] at ends
    cases ends
  | word name =>
    rw [kind] at maximal
    have ends := maximal.2 first rfl
    rw [Byte.isWordByte, digit, Bool.or_true] at ends
    cases ends

/-- No digits of a word are split off: the byte in front of a numeral could not be
part of one. -/
theorem before_numeral (tokenization : Tokenization source list) {token : Token} {digits : Bytes}
    (member : token ∈ list) (numeral : token.lexeme = .numeral digits) {place : Nat} {byte : UInt8}
    (adjacent : place + 1 = token.start) (here : source[place]? = some byte) :
    Byte.isWordByte byte = false := by
  by_contra wordByte
  have covered : ∃ other ∈ list, other.start ≤ place ∧ place < other.stop := by
    by_contra uncovered
    have starts := tokenization.skipped place byte here fun other present covers =>
      uncovered ⟨other, present, covers⟩
    have skips : Lexeme.leading? byte [] = none := leading_eq_none_iff_startsToken.mpr starts
    exact wordByte (leading_eq_none_iff.mp skips).2.2.2.2
  obtain ⟨other, present, start, stop⟩ := covered
  have ends : other.stop = token.start := by
    obtain ⟨before, after, rfl⟩ := List.append_of_mem member
    obtain ⟨-, behind, order⟩ := List.pairwise_append.mp tokenization.ordered
    rcases List.mem_append.mp present with early | late
    · have apart := order other early token List.mem_cons_self
      omega
    · rcases List.mem_cons.mp late with rfl | later
      · omega
      · have apart := (List.pairwise_cons.mp behind).1 other later
        have within := tokenization.spans token member
        omega
  have sign := tokenization.eq_sign_before_numeral present member numeral ends
  have single : other.lexeme.spelling = [byte] := by
    have split := drop_start_of_slice (tokenization.spelled other present)
    have length : other.lexeme.spelling.length = 1 := by
      simp only [List.mem_cons, List.not_mem_nil, or_false] at sign
      rcases sign with same | same | same | same <;> rw [same, List.length_singleton]
    obtain ⟨only, spelled⟩ := List.length_eq_one_iff.mp length
    have place : other.start = place := by
      rw [Token.stop, length] at stop
      omega
    rw [place, spelled] at split
    rw [← List.head?_drop, split] at here
    rw [spelled, ← Option.some.inj here]
  rw [single] at sign
  apply wordByte
  simp only [List.mem_cons, List.cons.injEq, and_true, List.not_mem_nil, or_false] at sign
  rcases sign with rfl | rfl | rfl | rfl <;> decide

end Tokenization

/-! ## Pulling tokens -/

namespace Cursor

/-- A pull gives the first token ahead and leaves the others ahead; without one it
leads to the end. -/
theorem pull_cases (cursor : Cursor) :
    tokensFrom cursor.offset cursor.ahead = [] ∧
      cursor.pull = (none, ⟨cursor.offset + cursor.ahead.length, []⟩) ∨
    ∃ token behind, tokensFrom cursor.offset cursor.ahead = token :: tokensFrom token.stop behind ∧
      cursor.pull = (some token, ⟨token.stop, behind⟩) := by
  obtain ⟨offset, ahead⟩ := cursor
  simp only [pull]
  induction ahead generalizing offset with
  | nil => exact .inl ⟨by rw [tokensFrom], rfl⟩
  | cons first rest ih =>
    cases leads : Lexeme.leading? first rest with
    | none =>
      have length : offset + (first :: rest).length = offset + 1 + rest.length := by
        rw [List.length_cons]
        omega
      rw [tokensFrom_skip offset leads, length]
      simp only [pullFrom, leads]
      exact ih (offset + 1)
    | some found =>
      obtain ⟨lexeme, behind⟩ := found
      refine .inr ⟨⟨lexeme, offset⟩, behind, tokensFrom_token offset leads, ?_⟩
      simp only [pullFrom, leads, Token.stop]

/-- Asked again and again for the next token, a cursor gives the tokens ahead of it
in order, and then nothing. -/
theorem replies_next (cursor : Cursor) (count : Nat) :
    (cursor.serveAll (List.replicate count .next)).map Prod.fst =
      ((tokensFrom cursor.offset cursor.ahead).map Reply.token ++
        List.replicate count Reply.nothing).take count := by
  induction count generalizing cursor with
  | zero => simp [serveAll]
  | succ count ih =>
    rw [List.replicate_succ, serveAll, List.map_cons, ih]
    rcases cursor.pull_cases with ⟨nothing, pulled⟩ | ⟨token, behind, tokens, pulled⟩
    · simp [serve, pulled, nothing, tokensFrom, List.replicate_succ]
    · simp only [serve, pulled, tokens, List.take_append, List.length_map, List.take_replicate,
        Nat.sub_le, Nat.min_eq_left, List.map_cons, List.cons_append, List.take_succ_cons,
        List.cons.injEq, List.append_cancel_left_eq, List.replicate_inj, or_true, and_true, true_and]
      omega

end Cursor

/-- A scan is exact longest match. Pulled one after the other, the tokens of a source
are the only list in which each token has the form of its kind and goes on as far as
it can, spans ascend without overlapping, and what no span covers begins no token; no
digits of a word are split off; and the text of each token is the bytes of its span. -/
theorem scan_is_longest_match (source : Bytes) :
    (∀ count, ((Cursor.start source).serveAll (List.replicate count .next)).map Prod.fst =
      ((tokens source).map Cursor.Reply.token ++
        List.replicate count Cursor.Reply.nothing).take count) ∧
    (∀ list, Tokenization source list ↔ list = tokens source) ∧
    (∀ token ∈ tokens source, ∀ digits place byte, token.lexeme = .numeral digits →
      place + 1 = token.start → source[place]? = some byte → Byte.isWordByte byte = false) ∧
    ∀ token ∈ tokens source, ∃ text bytes, token.span.text? source = some text ∧
      token.span.slice? source = some bytes ∧ Utf8.encode text = bytes ∧ text ≠ "" := by
  refine ⟨(Cursor.start source).replies_next, fun list => Tokenization.iff_eq_tokens, ?_, ?_⟩
  · intro token scanned digits place byte numeral adjacent here
    exact (tokenization_tokens source).before_numeral scanned numeral adjacent here
  · intro token scanned
    have encoded : Utf8.encode token.lexeme.text = token.lexeme.spelling :=
      encode_text_of_scanned scanned
    refine ⟨_, _, text_of_scanned scanned, slice_of_scanned scanned, encoded, ?_⟩
    intro empty
    have within := tokens_within scanned
    have length : token.lexeme.spelling = [] := by rw [← encoded, empty]; rfl
    rw [Token.stop, length, List.length_nil] at within
    omega

end ArithAsm
