import ArithAsm.Proofs.Machine.Instruction
import ArithAsm.Proofs.Reading.Exactness
import ArithAsm.Proofs.Refusals
import ArithAsm.Proofs.Scanning

/-! Nothing is lost or doubled between a source and its assembly. The lines of a
program, read as text, hold the numbers of its tokens in the same order, a remark
for every operator and a call for every word; no operand is wider than its
instruction can carry, and so the tokens tell how many lines there are. -/
namespace ArithAsm
open Machine (Register Verb number?)
open Machine.Instruction

/-! ## Lines as text -/

/-- What separates the words of a line: blanks and commas. -/
def separatesWords (c : Char) : Bool :=
  isBlank c || c == ','

/-- The words of a text. -/
def wordsOf (text : List Char) : List (List Char) :=
  (text.splitOnP separatesWords).filter (! ·.isEmpty)

/-- The integers among the words of a line. -/
def integersOf (line : String) : List Nat :=
  (wordsOf line.toList).filterMap number?

/-- Whether a line is an addition or a subtraction. -/
def combines (line : String) : Bool :=
  (wordsOf line.toList).head?.any fun verb => verb = "add".toList ∨ verb = "sub".toList

private theorem number_repr (n : Nat) : number? n.repr.toList = some n := by
  have digits : (Nat.toDigits 10 n).all Char.isDigit = true :=
    List.all_eq_true.mpr fun c member => Nat.isDigit_of_mem_toDigits (by decide) (by decide) member
  simp [number?, digits, Nat.toDigits_ne_nil, Nat.toList_repr]

/-- Words do not reach across what separates them. -/
theorem wordsOf_append {c : Char} (separates : separatesWords c = true) (front back : List Char) :
    wordsOf (front ++ c :: back) = wordsOf front ++ wordsOf back := by
  simp only [wordsOf]
  rw [List.splitOnP_append_cons front back separates, List.filter_append]

/-- A text that nothing separates is one word. -/
theorem wordsOf_plain {text : List Char} (plain : ∀ c ∈ text, IsPlain c) (nonempty : text ≠ []) :
    wordsOf text = [text] := by
  have solid : ∀ c ∈ text, separatesWords c = false := by
    intro c member
    obtain ⟨notBlank, -, notComma, -⟩ := plain c member
    simp [separatesWords, notBlank, notComma]
  rw [wordsOf, List.splitOnP_eq_singleton solid]
  simpa using nonempty

/-- An instruction with a number for its second operand. -/
def instructionText (verb : Verb) (target : Register) (n : Nat) : String :=
  "\t" ++ verb.name ++ " " ++ target.name ++ ", " ++ n.repr

theorem wordsOf_instructionText (verb : Verb) (target : Register) (n : Nat) :
    wordsOf (instructionText verb target n).toList =
      [verb.name.toList, target.name.toList, n.repr.toList] := by
  have spelled : (instructionText verb target n).toList = [] ++ '\t' :: (verb.name.toList ++
      ' ' :: (target.name.toList ++ ',' :: ([] ++ ' ' :: n.repr.toList))) := by
    simp [instructionText]
  have empty : wordsOf [] = [] := rfl
  rw [spelled, wordsOf_append (by decide), wordsOf_append (by decide), wordsOf_append (by decide),
    wordsOf_append (by decide), wordsOf_plain (verb_name_plain verb) (verb_name_ne_nil verb),
    wordsOf_plain (register_name_plain target) (register_name_ne_nil target),
    wordsOf_plain (repr_plain n) (repr_ne_nil n), empty]
  rfl

theorem integersOf_instructionText (verb : Verb) (target : Register) (n : Nat) :
    integersOf (instructionText verb target n) = [n] := by
  have noVerb : number? verb.name.toList = none := by cases verb <;> rfl
  have noRegister : number? target.name.toList = none := by cases target <;> rfl
  rw [integersOf, wordsOf_instructionText, List.filterMap_cons_none noVerb,
    List.filterMap_cons_none noRegister, List.filterMap_cons_some (number_repr n), List.filterMap_nil]

theorem combines_instructionText (verb : Verb) (target : Register) (n : Nat) :
    combines (instructionText verb target n) = true ↔ verb = .add ∨ verb = .subtract := by
  rw [combines, wordsOf_instructionText]
  cases verb <;> simp [Verb.name]

/-! ## The lines of a form and its leaves -/

/-- The number that a leaf stands for, if it is a literal. -/
def Leaf.value? : Leaf → Option Nat
  | number literal _ => some literal.value.toNat
  | _ => none

/-- Whether the value is too wide for an addition or a subtraction to carry. -/
def Literal.isWide (literal : Literal) : Bool :=
  0x7FFFFFFF < literal.value.toNat

mutual

/-- The literals that are added or subtracted: the operands of `+`, and those of
`-` behind the first. -/
def Form.combined : Form → List Literal
  | .literal _ => []
  | .group _ members => Program.combined members
  | .dump argument => argument.combined
  | .add terms => terms
  | .sub _ terms => terms

/-- The literals that are added or subtracted, form by form. -/
def Program.combined : Program → List Literal
  | [] => []
  | form :: rest => form.combined ++ Program.combined rest

end

/-- The lines are what the leaves amount to, where `wide` operands take a line
more each. -/
structure Accounts (lines : List Line) (leaves : List Leaf) (wide : Nat) : Prop where
  integers : (lines.map Line.text).flatMap integersOf = leaves.filterMap Leaf.value?
  additions : (lines.map Line.text).count "\t;; ADDITION" = leaves.count (.operator .plus)
  subtractions : (lines.map Line.text).count "\t;; SUBTRACTION" = leaves.count (.operator .minus)
  calls : (lines.map Line.text).count "\tcall dump" = leaves.count .dump
  narrow : ∀ line ∈ lines.map Line.text, combines line = true →
    ∀ n ∈ integersOf line, n ≤ 0x7FFFFFFF
  length : lines.length = leaves.countP Leaf.isNumber + leaves.count (.operator .plus) +
    leaves.count (.operator .minus) + 2 * leaves.count .dump + wide

namespace Accounts
variable {lines more : List Line} {leaves others : List Leaf} {wide wider : Nat}

theorem nothing : Accounts [] [] 0 := by
  constructor <;> simp

/-- Lines in a row account for leaves in a row. -/
theorem append (first : Accounts lines leaves wide) (second : Accounts more others wider) :
    Accounts (lines ++ more) (leaves ++ others) (wide + wider) where
  integers := by simp [first.integers, second.integers]
  additions := by simp only [List.map_append, List.count_append, first.additions, second.additions]
  subtractions := by
    simp only [List.map_append, List.count_append, first.subtractions, second.subtractions]
  calls := by simp only [List.map_append, List.count_append, first.calls, second.calls]
  narrow := by
    intro line member
    rw [List.map_append, List.mem_append] at member
    exact member.elim (first.narrow line) (second.narrow line)
  length := by
    simp only [List.length_append, List.countP_append, List.count_append, first.length, second.length]
    omega

/-- A number that one line carries. -/
theorem number {line : Line} {literal : Literal} (marked : Bool) (verb : Verb) (target : Register)
    (spelled : line.text = instructionText verb target literal.value.toNat)
    (carried : verb = .add ∨ verb = .subtract → literal.isWide = false) :
    Accounts [line] [.number literal marked] 0 := by
  have integers : integersOf line.text = [literal.value.toNat] := by
    rw [spelled, integersOf_instructionText]
  have other (text : String) (silent : integersOf text = []) : line.text ≠ text := by
    rintro rfl
    simp [silent] at integers
  constructor
  · simp [integers, Leaf.value?]
  · simp [other "\t;; ADDITION" (by decide)]
  · simp [other "\t;; SUBTRACTION" (by decide)]
  · simp [other "\tcall dump" (by decide)]
  · simp only [List.map_cons, List.map_nil, List.mem_singleton, forall_eq, integers]
    intro combining
    rw [spelled, combines_instructionText] at combining
    simpa [Literal.isWide] using carried combining
  · simp [Leaf.isNumber]

/-- A number that is staged in front of the line that combines it. -/
theorem staged (operation : Operation) (literal : Literal) (marked : Bool) :
    Accounts [.stage literal.value, .combineStaged operation] [.number literal marked] 1 := by
  have stage : Accounts [.stage literal.value] [.number literal marked] 0 :=
    number marked .move .rax rfl (by simp)
  have combine : Accounts [.combineStaged operation] [] 1 := by
    cases operation <;> constructor <;> decide +kernel
  exact stage.append combine

/-- An operand takes the lines that combine it. -/
theorem operand (operation : Operation) (literal : Literal) (marked : Bool) :
    Accounts (literal.combineLines operation) [.number literal marked]
      (if literal.isWide then 1 else 0) := by
  have narrow_iff : literal.value ≤ maxImmediate ↔ literal.isWide = false := by
    simp [Literal.isWide, maxImmediate, UInt64.le_iff_toNat_le]
  rw [Literal.combineLines]
  split
  · rename_i narrow
    rw [narrow_iff] at narrow
    rw [narrow]
    cases operation with
    | add => exact number marked .add .rdi rfl fun _ => narrow
    | sub => exact number marked .subtract .rdi rfl fun _ => narrow
  · rename_i wide
    have isWide : literal.isWide = true := by simpa [narrow_iff] using wide
    rw [isWide]
    exact staged operation literal marked

theorem operands (operation : Operation) (terms : List Literal) :
    Accounts (terms.flatMap (Literal.combineLines operation)) (Literal.operandLeaves terms)
      (terms.countP Literal.isWide) := by
  induction terms with
  | nil => exact nothing
  | cons term rest ih =>
    rw [List.flatMap_cons, List.countP_cons, Nat.add_comm]
    cases rest with
    | nil => exact (operand operation term true).append ih
    | cons next rest => exact (operand operation term false).append ih

theorem addition : Accounts [.operatorRemark .add] [.operator .plus] 0 := by
  constructor <;> decide +kernel

theorem subtraction : Accounts [.operatorRemark .sub] [.operator .minus] 0 := by
  constructor <;> decide +kernel

/-- Where leaves stand matters only to the order of the numbers among them. -/
theorem reorder (accounts : Accounts lines leaves wide) (same : leaves.Perm others)
    (order : leaves.filterMap Leaf.value? = others.filterMap Leaf.value?) :
    Accounts lines others wide where
  integers := accounts.integers.trans order
  additions := accounts.additions.trans (same.count_eq _)
  subtractions := accounts.subtractions.trans (same.count_eq _)
  calls := accounts.calls.trans (same.count_eq _)
  narrow := accounts.narrow
  length := by
    rw [← same.countP_eq, ← same.count_eq, ← same.count_eq, ← same.count_eq]
    exact accounts.length

/-- A dump stands before its argument and is carried out behind it. -/
theorem dump (argument : Accounts lines leaves wide) :
    Accounts (lines ++ [.dumpRemark, .callDump]) (.dump :: leaves) wide := by
  have call : Accounts [.dumpRemark, .callDump] [.dump] 0 := by
    constructor <;> decide +kernel
  refine (argument.append call).reorder (List.perm_append_singleton _ _) ?_
  rw [List.filterMap_append, List.filterMap_cons_none rfl, List.filterMap_cons_none rfl,
    List.filterMap_nil, List.append_nil]

/-- Parentheses leave no trace. -/
theorem parentheses (inside : Accounts lines leaves wide) (start stop : Nat) :
    Accounts lines (.openGroup start :: (leaves ++ [.closeGroup stop])) wide where
  integers := by
    rw [inside.integers, List.filterMap_cons_none rfl, List.filterMap_append,
      List.filterMap_cons_none rfl, List.filterMap_nil, List.append_nil]
  additions := by simp [inside.additions]
  subtractions := by simp [inside.subtractions]
  calls := by simp [inside.calls]
  narrow := inside.narrow
  length := by simp [inside.length, Leaf.isNumber]

end Accounts

mutual

/-- The lines of a form account for its leaves. -/
theorem accounts_form : (form : Form) →
    Accounts form.lines form.leaves (form.combined.countP Literal.isWide)
  | .literal number => .number false .move .rdi rfl (by simp)
  | .group span members => (accounts_program members).parentheses span.start span.stop
  | .dump argument => (accounts_form argument).dump
  | .add terms => by
    simpa [Form.lines, Form.leaves, Form.combined] using
      Accounts.addition.append (.operands .add terms)
  | .sub seed terms => by
    have load : Accounts [.load seed.value] [.number seed terms.isEmpty] 0 :=
      .number _ .move .rdi rfl (by simp)
    have leaves : Literal.operandLeaves (seed :: terms) =
        [.number seed terms.isEmpty] ++ Literal.operandLeaves terms := by
      cases terms <;> rfl
    rw [Form.leaves, leaves]
    simpa [Form.lines, Form.combined] using
      Accounts.subtraction.append (load.append (.operands .sub terms))

theorem accounts_program : (program : Program) →
    Accounts program.lines program.leaves (program.combined.countP Literal.isWide)
  | [] => .nothing
  | form :: rest => by
    simp only [Program.lines, Program.leaves, Program.combined, List.countP_append]
    exact (accounts_form form).append (accounts_program rest)

end

/-! ## The tokens of a source -/

/-- The number that a numeral writes. -/
def Lexeme.value? : Lexeme → Option Nat
  | numeral digits => some (decimalValue digits)
  | _ => none

/-- Whether the lexeme is a word. -/
def Lexeme.isWord : Lexeme → Bool
  | word _ => true
  | _ => false

section
variable {leaves : List Leaf} {written : List Token}

/-- A leaf is a number, a dump or an operator as the token that writes it is. -/
theorem Leaf.WrittenBy.agrees {leaf : Leaf} {token : Token} (written : leaf.WrittenBy token) :
    leaf.value? = token.lexeme.value? ∧ (leaf == .dump) = token.lexeme.isWord ∧
      ∀ sign : Operator, (leaf == .operator sign) = (token.lexeme == sign.lexeme) := by
  obtain ⟨lexeme, start⟩ := token
  cases leaf with
  | openGroup start | closeGroup stop =>
    obtain ⟨rfl, -⟩ := written
    exact ⟨rfl, rfl, fun sign => by cases sign <;> rfl⟩
  | dump =>
    cases written
    exact ⟨rfl, rfl, fun sign => by cases sign <;> rfl⟩
  | operator other =>
    cases written
    cases other <;> exact ⟨rfl, rfl, fun sign => by cases sign <;> rfl⟩
  | number literal marked =>
    obtain ⟨digits, rfl, -, value, -⟩ := written
    exact ⟨congrArg some value, rfl, fun sign => by cases sign <;> rfl⟩

/-- Leaves and the tokens that write them are counted alike. -/
theorem Leaf.written_countP {p : Leaf → Bool} {q : Lexeme → Bool}
    (alike : ∀ leaf token, WrittenBy leaf token → p leaf = q token.lexeme)
    (spelled : List.Forall₂ WrittenBy leaves written) :
    leaves.countP p = (written.map Token.lexeme).countP q := by
  induction spelled with
  | nil => rfl
  | cons head tail ih => simp [List.countP_cons, alike _ _ head, ih]

/-- Literals have the values of their numerals. -/
theorem Leaf.written_values (spelled : List.Forall₂ WrittenBy leaves written) :
    leaves.filterMap Leaf.value? = (written.map Token.lexeme).filterMap Lexeme.value? := by
  induction spelled with
  | nil => rfl
  | cons head tail ih => simp only [List.map_cons, List.filterMap_cons, head.agrees.1, ih]

end

/-- The lines that compiling hands back hold the numbers of the source in order,
each once, a remark for each operator and a call for each word. No addition or
subtraction carries a number of `2 ^ 31` or more, and there is one line for each
numeral and operator, two for each word, and one more for each literal that is
too wide where it is added or subtracted. -/
theorem core_accounts_for_tokens {σ : Type} {sink : Sink σ} {state : σ} {source : Bytes}
    {core : Listing} (accepted : (compile sink state source).result = .ok core) :
    ∃ program, parse source = .ok program ∧
      core.lines.toList.flatMap integersOf = (lexemes source).filterMap Lexeme.value? ∧
      core.lines.toList.count "\t;; ADDITION" = (lexemes source).count .plus ∧
      core.lines.toList.count "\t;; SUBTRACTION" = (lexemes source).count .minus ∧
      core.lines.toList.count "\tcall dump" = (lexemes source).countP Lexeme.isWord ∧
      (∀ line ∈ core.lines.toList, combines line = true → ∀ n ∈ integersOf line, n ≤ 0x7FFFFFFF) ∧
      core.length = (lexemes source).countP Lexeme.isNumeral + (lexemes source).count .plus +
        (lexemes source).count .minus + 2 * (lexemes source).countP Lexeme.isWord +
        program.combined.countP Literal.isWide := by
  obtain ⟨program, parsed, lines⟩ := core_of_compile accepted
  have spelled := (read_eq_ok_iff.mp (parse_eq_ok_iff_read.mp parsed)).leaves
  have accounts := accounts_program program
  have operators (sign : Operator) :
      program.leaves.count (.operator sign) = (lexemes source).count sign.lexeme :=
    Leaf.written_countP (fun _ _ written => written.agrees.2.2 sign) spelled
  have words : program.leaves.count .dump = (lexemes source).countP Lexeme.isWord :=
    Leaf.written_countP (fun _ _ written => written.agrees.2.1) spelled
  have numerals := Leaf.written_countP (fun _ _ written => (Reader.isNumeral_of_written written).symm) spelled
  have length : core.length = program.lines.length := by
    rw [Listing.length, ← Array.length_toList, lines, List.length_map]
  rw [lines, length, accounts.length]
  refine ⟨program, parsed, accounts.integers.trans (Leaf.written_values spelled),
    accounts.additions.trans (operators .plus), accounts.subtractions.trans (operators .minus),
    accounts.calls.trans words, accounts.narrow, ?_⟩
  rw [numerals, operators, operators, words]
  rfl

/-- A difference of two wide numbers: the first is loaded, the second is staged. -/
theorem wide_difference_accounts_for_tokens :
    ∃ core, (compile Listing.sink .empty (Utf8.encode "dump - 5000000000 2147483648")).result = .ok core ∧
      core.lines.toList.flatMap integersOf = [5000000000, 2147483648] ∧ core.length = 6 := by
  have scanned : tokens (Utf8.encode "dump - 5000000000 2147483648") =
      [⟨.word (Utf8.encode "dump"), 0⟩, ⟨.minus, 5⟩, ⟨.numeral (Utf8.encode "5000000000"), 7⟩,
        ⟨.numeral (Utf8.encode "2147483648"), 18⟩] := by decide +kernel
  have parsed : parse (Utf8.encode "dump - 5000000000 2147483648") =
      .ok [.dump (.sub ⟨5000000000, ⟨7, 17⟩⟩ [⟨2147483648, ⟨18, 28⟩⟩])] := by
    rw [parse, read, scanned]
    rfl
  have accepted := (compile_to_listing parsed).2
  obtain ⟨program, same, integers, -, -, -, -, length⟩ := core_accounts_for_tokens accepted
  obtain rfl := Except.ok.inj (parsed.symm.trans same)
  refine ⟨_, accepted, integers.trans ?_, length.trans ?_⟩
  · rw [lexemes, scanned]
    decide +kernel
  · rw [lexemes, scanned]
    decide +kernel

end ArithAsm
