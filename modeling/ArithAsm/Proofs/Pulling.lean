import ArithAsm.Proofs.Tokenization
import Mathlib.Order.Monotone.Basic

/-! Pulling tokens one at a time. However requests for a token and for the position are mixed, the
pulls go through the tokens of the source in order, and past the last one they find the end. The
position is the end of the token that was pulled last; it never goes back, and at the end it stays. -/
namespace ArithAsm.Cursor

/-- Whether the request moves the cursor on to the next token. -/
def Request.pulls : Request → Bool
  | .position => false
  | .next | .nextToken => true

/-- The reply to a request in a source of `length` bytes when it is `token?`'s turn. -/
def Request.answer (length : Nat) : Request → Option Token → Reply
  | .position, _ => .nothing
  | .next, some token | .nextToken, some token => .token token
  | .next, none => .nothing
  | .nextToken, none => .endOfInput length

/-- How many of the requests before `turn` pull a token. -/
def pullsBefore (requests : List Request) (turn : Nat) : Nat :=
  (requests.take turn).countP Request.pulls

/-- The token whose turn it is, if one is left: every pull before took one. -/
def tokenAt? (source : Bytes) (requests : List Request) (turn : Nat) : Option Token :=
  (tokens source)[pullsBefore requests turn]?

/-- The replies, each with the position after it, are what the tokens of the source call for. -/
structure InTurn (source : Bytes) (requests : List Request) (replies : List (Reply × Nat)) : Prop where
  length : replies.length = requests.length
  /-- A pull brings the token whose turn it is, or finds the end of the source. -/
  reply : ∀ (turn : Nat) (request : Request) (reply : Reply) (position : Nat),
    requests[turn]? = some request → replies[turn]? = some (reply, position) →
      reply = request.answer source.length (tokenAt? source requests turn)
  /-- A pull leads right behind its token. -/
  behind : ∀ (turn : Nat) (request : Request) (reply : Reply) (position : Nat) (token : Token),
    requests[turn]? = some request → request.pulls = true →
      replies[turn]? = some (reply, position) → tokenAt? source requests turn = some token →
        position = token.stop
  /-- From the first pull on that finds no token, the position is the end. -/
  ended : ∀ (turn later : Nat) (request : Request) (reply : Reply) (position : Nat),
    requests[turn]? = some request → request.pulls = true → tokenAt? source requests turn = none →
      turn ≤ later → replies[later]? = some (reply, position) → position = source.length
  /-- Asking for the position does not change it. -/
  unmoved : ∀ turn, requests[turn]? = some .position →
    (0 :: replies.map Prod.snd)[turn + 1]? = (0 :: replies.map Prod.snd)[turn]?
  ascending : (0 :: replies.map Prod.snd).Pairwise (· ≤ ·)
  within : ∀ reply ∈ replies, reply.2 ≤ source.length

/-! ## Places between pulls -/

/-- Where a cursor stands after `count` pulls: behind the token pulled last, or at the end if the
last pull found none. -/
def placeAfter (source : Bytes) : Nat → Nat
  | 0 => 0
  | count + 1 => (tokens source)[count]?.elim source.length Token.stop

theorem placeAfter_le (source : Bytes) (count : Nat) : placeAfter source count ≤ source.length := by
  cases count with
  | zero => exact Nat.zero_le _
  | succ count =>
    rw [placeAfter]
    cases held : (tokens source)[count]? with
    | none => exact Nat.le_refl _
    | some token => exact (tokens_within (List.mem_of_getElem? held)).2

theorem placeAfter_of_le {source : Bytes} {count : Nat} (past : (tokens source).length ≤ count) :
    placeAfter source (count + 1) = source.length := by
  rw [placeAfter, List.getElem?_eq_none past]
  rfl

/-- A further pull never leads back. -/
theorem placeAfter_mono (source : Bytes) : Monotone (placeAfter source) := by
  refine monotone_nat_of_le_succ fun count => ?_
  cases count with
  | zero => exact Nat.zero_le _
  | succ count =>
    rcases Nat.lt_or_ge (count + 1) (tokens source).length with more | past
    · have ordered := List.pairwise_iff_getElem.mp (tokens_pairwise source) count (count + 1)
        (Nat.lt_of_succ_lt more) more (Nat.lt_succ_self count)
      have forward := (tokens_within (List.getElem_mem more)).1
      simp only [placeAfter, List.getElem?_eq_getElem more,
        List.getElem?_eq_getElem (Nat.lt_of_succ_lt more), Option.elim_some]
      omega
    · rw [placeAfter_of_le past]
      exact placeAfter_le source (count + 1)

/-! ## One request -/

/-- Pulling loses no byte: what is passed and what is ahead make up the source. -/
theorem length_pull (cursor : Cursor) :
    cursor.pull.2.offset + cursor.pull.2.ahead.length = cursor.offset + cursor.ahead.length := by
  -- `pull_cases` does not tell how much is left ahead, so the bytes passed are counted here.
  obtain ⟨offset, ahead⟩ := cursor
  simp only [pull]
  induction ahead generalizing offset with
  | nil => rfl
  | cons first rest ih =>
    cases leads : Lexeme.leading? first rest with
    | none =>
      simp only [pullFrom, leads]
      rw [ih (offset + 1), List.length_cons]
      omega
    | some found =>
      have length := congrArg List.length (Lexeme.spelling_append_of_leading leads)
      rw [List.length_append] at length
      simp only [pullFrom, leads]
      omega

/-- The cursor has been pulled `count` times since the beginning of the source. -/
structure Pulled (source : Bytes) (count : Nat) (cursor : Cursor) : Prop where
  place : cursor.offset = placeAfter source count
  ahead : tokensFrom cursor.offset cursor.ahead = (tokens source).drop count
  whole : cursor.offset + cursor.ahead.length = source.length

theorem pulled_start (source : Bytes) : Pulled source 0 (start source) where
  place := rfl
  ahead := rfl
  whole := Nat.zero_add _

variable {source : Bytes} {cursor : Cursor} {count : Nat}

/-- One pull brings the next token and leaves the ones behind it ahead. -/
theorem Pulled.pull (pulled : cursor.Pulled source count) :
    cursor.pull.1 = (tokens source)[count]? ∧ cursor.pull.2.Pulled source (count + 1) := by
  have whole := cursor.length_pull.trans pulled.whole
  rcases cursor.pull_cases with ⟨nothing, found⟩ | ⟨token, behind, shape, found⟩
  · have past : (tokens source).length ≤ count :=
      List.drop_eq_nil_iff.mp (pulled.ahead.symm.trans nothing)
    have later := List.drop_eq_nil_iff.mpr (Nat.le_succ_of_le past)
    rw [found] at whole ⊢
    refine ⟨(List.getElem?_eq_none past).symm, ?_, ?_, whole⟩
    · rw [placeAfter_of_le past]
      exact pulled.whole
    · rw [later, tokensFrom]
  · rw [pulled.ahead] at shape
    have turn : (tokens source)[count]? = some token := by
      rw [← List.head?_drop, shape, List.head?_cons]
    rw [found] at whole ⊢
    refine ⟨turn.symm, ?_, ?_, whole⟩
    · rw [placeAfter, turn, Option.elim_some]
    · rw [← List.tail_drop, shape, List.tail_cons]

/-- One request is answered with the token whose turn it is, and the cursor moves on exactly if the
request pulls. -/
theorem Pulled.serve (pulled : cursor.Pulled source count) (request : Request) :
    (cursor.serve request).1 = request.answer source.length (tokens source)[count]? ∧
      (cursor.serve request).2.Pulled source (count + request.pulls.toNat) := by
  obtain ⟨brought, moved⟩ := pulled.pull
  rcases found : cursor.pull with ⟨token?, behind⟩
  rw [found] at brought moved
  cases request with
  | position => exact ⟨rfl, pulled⟩
  | next =>
    rw [← brought]
    cases token? <;> simp only [Cursor.serve, found] <;> exact ⟨rfl, moved⟩
  | nextToken =>
    rw [← brought]
    cases token? with
    | some token =>
      simp only [Cursor.serve, found]
      exact ⟨rfl, moved⟩
    | none =>
      have last : behind.offset = source.length := by
        rw [moved.place, placeAfter, ← brought, Option.elim_none]
      simp only [Cursor.serve, found, last]
      exact ⟨rfl, moved⟩

/-! ## Requests in any order -/

theorem pullsBefore_cons (request : Request) (rest : List Request) (turn : Nat) :
    pullsBefore (request :: rest) (turn + 1) = request.pulls.toNat + pullsBefore rest turn := by
  rw [pullsBefore, List.take_succ_cons, List.countP_cons, Nat.add_comm, pullsBefore]
  cases request.pulls <;> rfl

theorem pullsBefore_succ {requests : List Request} {turn : Nat} {request : Request}
    (here : requests[turn]? = some request) :
    pullsBefore requests (turn + 1) = pullsBefore requests turn + request.pulls.toNat := by
  rw [pullsBefore, List.take_add_one, here, List.countP_append, pullsBefore]
  cases pulls : request.pulls <;> simp [pulls]

theorem pullsBefore_mono (requests : List Request) : Monotone (pullsBefore requests) := by
  intro first second earlier
  exact (List.take_prefix_take_left earlier).sublist.countP_le

/-- A run of requests goes through the tokens by the number of pulls so far. -/
theorem Pulled.serveAll (pulled : cursor.Pulled source count) (requests : List Request) (turn : Nat) :
    (cursor.serveAll requests)[turn]? = requests[turn]?.map fun request =>
      (request.answer source.length (tokens source)[count + pullsBefore requests turn]?,
        placeAfter source (count + pullsBefore requests (turn + 1))) := by
  induction requests generalizing cursor count turn with
  | nil => simp [Cursor.serveAll]
  | cons request rest ih =>
    obtain ⟨answered, moved⟩ := pulled.serve request
    rw [Cursor.serveAll, pullsBefore_cons, ← Nat.add_assoc]
    cases turn with
    | zero => simp [answered, moved.place, pullsBefore]
    | succ turn =>
      rw [pullsBefore_cons, ← Nat.add_assoc, List.getElem?_cons_succ, List.getElem?_cons_succ]
      exact ih moved turn

section
variable (source : Bytes) (requests : List Request)

theorem serveAll_start (turn : Nat) : ((start source).serveAll requests)[turn]? =
    requests[turn]?.map fun request => (request.answer source.length (tokenAt? source requests turn),
      placeAfter source (pullsBefore requests (turn + 1))) := by
  have replies := (pulled_start source).serveAll requests turn
  simp only [Nat.zero_add] at replies
  exact replies

theorem length_serveAll (cursor : Cursor) : (cursor.serveAll requests).length = requests.length := by
  induction requests generalizing cursor with
  | nil => rfl
  | cons request rest ih => rw [serveAll, List.length_cons, List.length_cons, ih]

/-- The positions, from the beginning on, are the places between the pulls. -/
theorem positions_start : 0 :: ((start source).serveAll requests).map Prod.snd =
    (List.range (requests.length + 1)).map fun turn => placeAfter source (pullsBefore requests turn) := by
  apply List.ext_getElem?
  intro turn
  cases turn with
  | zero => simp [pullsBefore, placeAfter]
  | succ turn =>
    rw [List.getElem?_cons_succ, List.getElem?_map, serveAll_start, List.getElem?_map]
    rcases Nat.lt_or_ge turn requests.length with inside | past
    · simp [inside]
    · simp [past]

end

theorem of_replied {requests : List Request} {turn position : Nat} {reply : Reply}
    (replied : ((start source).serveAll requests)[turn]? = some (reply, position)) :
    ∃ request, requests[turn]? = some request ∧
      reply = request.answer source.length (tokenAt? source requests turn) ∧
      position = placeAfter source (pullsBefore requests (turn + 1)) := by
  rw [serveAll_start] at replied
  obtain ⟨request, here, same⟩ := Option.map_eq_some_iff.mp replied
  obtain ⟨rfl, rfl⟩ := Prod.mk.inj same
  exact ⟨request, here, rfl, rfl⟩

/-- However pulls and requests for the position are mixed, the replies are what the tokens of the
source call for. -/
theorem pulls_go_through_tokens (source : Bytes) (requests : List Request) :
    InTurn source requests ((start source).serveAll requests) where
  length := length_serveAll requests (start source)
  reply turn request reply position here replied := by
    obtain ⟨_, again, rfl, -⟩ := of_replied replied
    rw [Option.some.inj (here.symm.trans again)]
  behind turn request reply position token here pulls replied held := by
    obtain ⟨-, -, -, rfl⟩ := of_replied replied
    rw [tokenAt?] at held
    rw [pullsBefore_succ here, pulls, Bool.toNat_true, placeAfter, held, Option.elim_some]
  ended turn later request reply position here pulls nothing after replied := by
    obtain ⟨-, -, -, rfl⟩ := of_replied replied
    have past := List.getElem?_eq_none_iff.mp nothing
    have passed := pullsBefore_succ here
    rw [pulls, Bool.toNat_true] at passed
    have counted := pullsBefore_mono requests (Nat.succ_le_succ after)
    obtain ⟨count, more⟩ := Nat.exists_eq_add_of_le' (passed ▸ counted)
    rw [more, ← Nat.add_assoc]
    exact placeAfter_of_le (Nat.le_add_left_of_le past)
  unmoved turn here := by
    have inside := (List.getElem?_eq_some_iff.mp here).1
    have same : pullsBefore requests (turn + 1) = pullsBefore requests turn := pullsBefore_succ here
    rw [positions_start, List.getElem?_map, List.getElem?_map, List.getElem?_range (by omega),
      List.getElem?_range (by omega), Option.map_some, Option.map_some, same]
  ascending := by
    rw [positions_start, List.pairwise_map]
    refine List.pairwise_lt_range.imp fun earlier => ?_
    exact placeAfter_mono source (pullsBefore_mono requests earlier.le)
  within := by
    rintro ⟨reply, position⟩ member
    obtain ⟨turn, replied⟩ := List.getElem?_of_mem member
    obtain ⟨-, -, -, rfl⟩ := of_replied replied
    exact placeAfter_le source _

-- The bytes behind the last token are passed by the pull that finds the end, and by no other.
example : (start [0x37, 0x20]).serveAll [.next, .position, .next, .nextToken] =
    [(.token ⟨.numeral [0x37], 0⟩, 1), (.nothing, 1), (.nothing, 2), (.endOfInput 2, 2)] := by
  decide

end ArithAsm.Cursor
