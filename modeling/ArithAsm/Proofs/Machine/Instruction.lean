import Mathlib.Data.List.TakeWhile

/-! The instructions of a 64-bit processor that a listing may hold, and their
decoding from text. A line is a label, a remark, or a mnemonic with operands
between commas; an operand is a register or an unsigned decimal. Only a move
carries an immediate of the full width. -/
namespace ArithAsm.Machine

/-- The general registers, each 64 bits wide. -/
inductive Register where
  | rax | rbx | rcx | rdx | rsi | rdi | rbp | rsp
  | r8 | r9 | r10 | r11 | r12 | r13 | r14 | r15
deriving DecidableEq, Repr

namespace Register

/-- The register as it is written. -/
def name : Register → String
  | rax => "rax" | rbx => "rbx" | rcx => "rcx" | rdx => "rdx"
  | rsi => "rsi" | rdi => "rdi" | rbp => "rbp" | rsp => "rsp"
  | r8 => "r8" | r9 => "r9" | r10 => "r10" | r11 => "r11"
  | r12 => "r12" | r13 => "r13" | r14 => "r14" | r15 => "r15"

/-- Every register once. -/
def all : List Register :=
  [rax, rbx, rcx, rdx, rsi, rdi, rbp, rsp, r8, r9, r10, r11, r12, r13, r14, r15]

/-- The register that a text names. -/
def ofText? (text : List Char) : Option Register :=
  all.find? fun register => register.name.toList == text

theorem ofText_name (register : Register) : ofText? register.name.toList = some register := by
  cases register <;> rfl

end Register

/-- What the second operand of an instruction may be. -/
inductive Operand where
  | immediate (value : UInt64)
  | register (source : Register)
deriving DecidableEq, Repr

/-- The number that a text of decimal digits writes. -/
def number? (text : List Char) : Option Nat :=
  if text ≠ [] ∧ text.all Char.isDigit then some (Nat.ofDigitChars 10 text 0) else none

/-- The operand that a text writes. An immediate has at most 64 bits. -/
def Operand.ofText? (text : List Char) : Option Operand :=
  match number? text with
  | some value => if value < UInt64.size then some (.immediate value.toUInt64) else none
  | none => (Register.ofText? text).map .register

/-- The instructions that leave their result in a register. -/
inductive Verb where
  | move
  | add
  | subtract
  | xor
deriving DecidableEq, Repr

namespace Verb

/-- The mnemonic. -/
def name : Verb → String
  | move => "mov"
  | add => "add"
  | subtract => "sub"
  | xor => "xor"

/-- The verb that a mnemonic stands for. -/
def ofText? (text : List Char) : Option Verb :=
  [move, add, subtract, xor].find? fun verb => verb.name.toList == text

theorem ofText_name (verb : Verb) : ofText? verb.name.toList = some verb := by
  cases verb <;> rfl

/-- Whether there is an encoding with this operand. Apart from moves, immediates
are sign-extended from 32 bits. -/
def carries : Verb → Operand → Bool
  | move, _ => true
  | _, .immediate value => value.toNat ≤ 0x7FFFFFFF
  | _, .register _ => true

/-- The result, modulo `2 ^ 64`. -/
def apply : Verb → UInt64 → UInt64 → UInt64
  | move, _, operand => operand
  | add, target, operand => target + operand
  | subtract, target, operand => target - operand
  | xor, target, operand => target ^^^ operand

end Verb

/-- A decoded line. -/
inductive Instruction where
  /-- A label, a remark or an empty line. -/
  | skip
  | compute (verb : Verb) (target : Register) (operand : Operand)
  | call (routine : String)
  | systemCall
deriving DecidableEq, Repr

namespace Instruction

/-- Spaces and tabs. -/
def isBlank (c : Char) : Bool :=
  c == ' ' || c == '\t'

/-- An instruction from its mnemonic and the texts of its operands. -/
def ofParts? (mnemonic : List Char) (operands : List (List Char)) : Option Instruction :=
  match operands with
  | [[]] => if mnemonic = "syscall".toList then some .systemCall else none
  | [routine] => if mnemonic = "call".toList then some (.call (String.ofList routine)) else none
  | [target, source] => do
    let verb ← Verb.ofText? mnemonic
    let operand ← Operand.ofText? source
    if verb.carries operand then return .compute verb (← Register.ofText? target) operand
    else none
  | _ => none

/-- The instruction of a line. What stands behind a semicolon is a remark. -/
def decode? (line : String) : Option Instruction :=
  let statement := (line.toList.takeWhile (· != ';')).dropWhile isBlank
  if statement = [] ∨ statement.getLast? = some ':' then some .skip
  else
    let mnemonic := statement.takeWhile (!isBlank ·)
    let rest := (statement.dropWhile (!isBlank ·)).dropWhile isBlank
    ofParts? mnemonic ((rest.splitOn ',').map (·.dropWhile isBlank))

/-- A character that neither separates nor ends anything in a line. -/
def IsPlain (c : Char) : Prop :=
  isBlank c = false ∧ c ≠ ';' ∧ c ≠ ',' ∧ c ≠ ':'

theorem verb_name_plain (verb : Verb) : ∀ c ∈ verb.name.toList, IsPlain c := by
  cases verb <;> simp [Verb.name, IsPlain, isBlank]

theorem register_name_plain (register : Register) :
    ∀ c ∈ register.name.toList, IsPlain c := by
  cases register <;> simp [Register.name, IsPlain, isBlank]

theorem verb_name_ne_nil (verb : Verb) : verb.name.toList ≠ [] := by
  cases verb <;> simp [Verb.name]

theorem register_name_ne_nil (register : Register) : register.name.toList ≠ [] := by
  cases register <;> simp [Register.name]

/-- Nothing is dropped in front of a plain text. -/
private theorem dropWhile_blank_append {text : List Char} (plain : ∀ c ∈ text, IsPlain c)
    (nonempty : text ≠ []) (rest : List Char) : (text ++ rest).dropWhile isBlank = text ++ rest := by
  cases text with
  | nil => contradiction
  | cons c text => simp [(plain c (by simp)).1]

/-- An indented line is cut at the first blank behind its mnemonic. -/
private theorem decode_indented {line : String} (mnemonic operands : List Char)
    (spelled : line.toList = '\t' :: (mnemonic ++ ' ' :: operands))
    (plain : ∀ c ∈ mnemonic, IsPlain c) (nonempty : mnemonic ≠ [])
    (clear : ∀ c ∈ operands, c ≠ ';' ∧ c ≠ ':') (flush : operands.dropWhile isBlank = operands) :
    decode? line = ofParts? mnemonic ((operands.splitOn ',').map (·.dropWhile isBlank)) := by
  have allClear : ∀ c ∈ '\t' :: (mnemonic ++ ' ' :: operands), c ≠ ';' ∧ c ≠ ':' := by
    intro c member
    simp only [List.mem_cons, List.mem_append] at member
    rcases member with rfl | member | rfl | member
    · decide
    · exact ⟨(plain c member).2.1, (plain c member).2.2.2⟩
    · decide
    · exact clear c member
  have statement : (line.toList.takeWhile (· != ';')).dropWhile isBlank =
      mnemonic ++ ' ' :: operands := by
    rw [spelled, List.takeWhile_eq_self_iff.mpr fun c member => bne_iff_ne.mpr (allClear c member).1,
      List.dropWhile_cons_of_pos (by decide), dropWhile_blank_append plain nonempty]
  have noLabel : (mnemonic ++ ' ' :: operands).getLast? ≠ some ':' := fun last =>
    (allClear ':' (List.mem_cons_of_mem _ (List.mem_of_getLast? last))).2 rfl
  have solid : ∀ c ∈ mnemonic, (!isBlank c) = true := fun c member => by simp [(plain c member).1]
  have first : (mnemonic ++ ' ' :: operands).takeWhile (!isBlank ·) = mnemonic := by
    rw [List.takeWhile_append_of_pos solid, List.takeWhile_cons_of_neg (by decide), List.append_nil]
  have rest : ((mnemonic ++ ' ' :: operands).dropWhile (!isBlank ·)).dropWhile isBlank = operands := by
    rw [List.dropWhile_append_of_pos solid, List.dropWhile_cons_of_neg (by decide),
      List.dropWhile_cons_of_pos (by decide), flush]
  simp only [decode?, statement, first, rest, noLabel]
  simp

/-- A mnemonic, a register and an operand with the usual separators decode to
what they name. -/
theorem decode_compute {verb : Verb} {target : Register} {source : String} {operand : Operand}
    (plain : ∀ c ∈ source.toList, IsPlain c) (nonempty : source.toList ≠ [])
    (names : Operand.ofText? source.toList = some operand) (encodable : verb.carries operand) :
    decode? ("\t" ++ verb.name ++ " " ++ target.name ++ ", " ++ source) =
      some (.compute verb target operand) := by
  have targetPlain := register_name_plain target
  have targetFlush := dropWhile_blank_append targetPlain (register_name_ne_nil target)
  have sourceFlush := dropWhile_blank_append plain nonempty []
  rw [decode_indented verb.name.toList (target.name.toList ++ ',' :: ' ' :: source.toList) (by simp)
    (verb_name_plain verb) (verb_name_ne_nil verb) ?_ (targetFlush _)]
  · have pieces : ((target.name.toList ++ ',' :: ' ' :: source.toList).splitOn ',').map
        (·.dropWhile isBlank) = [target.name.toList, source.toList] := by
      rw [List.splitOn_append_cons_self_of_not_mem fun member => (targetPlain _ member).2.2.1 rfl,
        List.splitOn_eq_singleton]
      · have targetAlone := targetFlush []
        simp only [List.append_nil] at targetAlone sourceFlush
        simp [targetAlone, sourceFlush, isBlank]
      · simp only [List.mem_cons, not_or]
        exact ⟨by decide, fun member => (plain _ member).2.2.1 rfl⟩
    simp [pieces, ofParts?, Verb.ofText_name, Register.ofText_name, names, encodable]
  · intro c member
    simp only [List.mem_cons, List.mem_append] at member
    rcases member with member | rfl | rfl | member
    · exact ⟨(targetPlain c member).2.1, (targetPlain c member).2.2.2⟩
    · decide
    · decide
    · exact ⟨(plain c member).2.1, (plain c member).2.2.2⟩

/-- A decimal number below `2 ^ 64` is an operand. -/
theorem operand_of_repr (value : UInt64) :
    Operand.ofText? value.toNat.repr.toList = some (.immediate value) := by
  have digits : (Nat.toDigits 10 value.toNat).all Char.isDigit = true :=
    List.all_eq_true.mpr fun c member => Nat.isDigit_of_mem_toDigits (by decide) (by decide) member
  have number : number? (Nat.toDigits 10 value.toNat) = some value.toNat := by
    simp [number?, digits, Nat.toDigits_ne_nil]
  simp [Operand.ofText?, Nat.toList_repr, number, value.toNat_lt]

theorem repr_plain (n : Nat) : ∀ c ∈ n.repr.toList, IsPlain c := by
  intro c member
  rw [Nat.toList_repr] at member
  have digit := Nat.isDigit_of_mem_toDigits (by decide) (by decide) member
  refine ⟨?_, ?_, ?_, ?_⟩
  · simp only [isBlank, Bool.or_eq_false_iff, beq_eq_false_iff_ne]
    constructor <;> rintro rfl <;> simp at digit
  all_goals
    rintro rfl
    simp at digit

theorem repr_ne_nil (n : Nat) : n.repr.toList ≠ [] := by
  rw [Nat.toList_repr]
  exact Nat.toDigits_ne_nil

end Instruction
end ArithAsm.Machine
