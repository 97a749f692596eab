import ArithAsm.Command.Run
import ArithAsm.Proofs.LossyText

/-! Which arguments are asked for as texts. A run gives up where a value that it asks for is none,
before it has touched anything. Values are cut out of arguments at ASCII bytes, so where all of the
arguments are texts the values are too, and then it never comes to this. -/
namespace ArithAsm

/-! ## Values of an invocation -/

theorem textOf_eq_ok_iff {value : Bytes} : (∃ text, textOf value = .ok text) ↔ Utf8.isText value = true := by
  rw [textOf, Utf8.isText]
  cases Utf8.decode? value <;> simp

theorem textOf_of_not_text {value : Bytes} (broken : Utf8.isText value = false) :
    textOf value = .error .notText := by
  rw [Utf8.isText, Option.isSome_eq_false_iff, Option.isNone_iff_eq_none] at broken
  rw [textOf, broken]
  rfl

theorem mapM_textOf_cases (values : List Bytes) :
    (∃ texts, values.mapM textOf = .ok texts) ∧ (∀ value ∈ values, Utf8.isText value = true) ∨
      values.mapM textOf = .error .notText ∧ ∃ value ∈ values, Utf8.isText value = false := by
  induction values with
  | nil => exact .inl ⟨⟨[], rfl⟩, nofun⟩
  | cons value rest ih =>
    rw [List.mapM_cons]
    cases text : Utf8.isText value with
    | false =>
      rw [textOf_of_not_text text]
      exact .inr ⟨rfl, value, List.mem_cons_self, text⟩
    | true =>
      obtain ⟨read, reads⟩ := textOf_eq_ok_iff.mpr text
      rw [reads]
      rcases ih with ⟨⟨texts, all⟩, others⟩ | ⟨aborts, broken, member, noText⟩
      · exact .inl ⟨⟨read :: texts, by rw [all]; rfl⟩, List.forall_mem_cons.mpr ⟨text, others⟩⟩
      · exact .inr ⟨by rw [aborts]; rfl, broken, List.mem_cons_of_mem value member, noText⟩

namespace Invocation

/-- Every value that is asked for is a text. -/
def ValuesAreText (invocation : Invocation) : Prop :=
  ∀ value ∈ invocation.givenPaths ++ invocation.maxSize.toList, Utf8.isText value = true

instance (invocation : Invocation) : Decidable invocation.ValuesAreText :=
  inferInstanceAs (Decidable (∀ value ∈ _, Utf8.isText value = true))

theorem limit_cases (invocation : Invocation) :
    (∃ limit, invocation.limit = .ok limit) ∧
        (∀ value ∈ invocation.maxSize.toList, Utf8.isText value = true) ∨
      invocation.limit = .error .notText ∧
        ∃ value ∈ invocation.maxSize.toList, Utf8.isText value = false := by
  unfold limit
  cases invocation.maxSize with
  | none => exact .inl ⟨⟨_, rfl⟩, nofun⟩
  | some value =>
    cases text : Utf8.isText value with
    | false =>
      simp only [textOf_of_not_text text]
      exact .inr ⟨rfl, value, List.mem_singleton_self value, text⟩
    | true =>
      obtain ⟨read, reads⟩ := textOf_eq_ok_iff.mpr text
      simp only [reads]
      exact .inl ⟨⟨_, rfl⟩, by simpa using text⟩

/-- With values that are texts a run goes on within its limit, and otherwise it gives up and has
touched nothing. -/
theorem run_cases (invocation : Invocation) (host : Host) :
    invocation.ValuesAreText ∧
        (∃ limit, invocation.limit = .ok limit ∧ invocation.run host = invocation.runWithin host limit) ∨
      ¬ invocation.ValuesAreText ∧ (invocation.run host).ending = .aborted .notText ∧
        (invocation.run host).tree = host.tree ∧ (invocation.run host).calls = [] := by
  unfold ValuesAreText run
  rcases mapM_textOf_cases invocation.givenPaths with
    ⟨⟨texts, all⟩, paths⟩ | ⟨aborts, value, member, broken⟩
  · rw [all]
    rcases invocation.limit_cases with ⟨⟨limit, limited⟩, own⟩ | ⟨aborts, value, member, broken⟩
    · rw [limited]
      refine .inl ⟨fun value member => ?_, limit, rfl, rfl⟩
      exact (List.mem_append.mp member).elim (paths value) (own value)
    · rw [aborts]
      refine .inr ⟨fun whole => ?_, rfl, rfl, rfl⟩
      exact nomatch broken.symm.trans (whole value (List.mem_append_right _ member))
  · rw [aborts]
    refine .inr ⟨fun whole => ?_, rfl, rfl, rfl⟩
    exact nomatch broken.symm.trans (whole value (List.mem_append_left _ member))

end Invocation

/-! ## Arguments that are texts -/

/-- The values of the item are texts. -/
def Item.HoldsText : Item → Prop
  | .input value | .setting _ (some value) => Utf8.isText value = true
  | .flag _ | .setting _ none => True

/-- What is made of arguments has the property, or is stopped for another reason than that an
argument is no text. -/
def KeepsText {α : Type} (property : α → Prop) : Except Stop α → Prop
  | .ok made => property made
  | .error stop => stop ≠ .notText

section
variable {α β : Type} {property : α → Prop} {further : β → Prop} {made : Except Stop α}

theorem KeepsText.bind {next : α → Except Stop β} (keeps : KeepsText property made)
    (step : ∀ value, property value → KeepsText further (next value)) :
    KeepsText further (made.bind next) := by
  cases made with
  | error stop => exact keeps
  | ok value => exact step value keeps

theorem KeepsText.map {change : α → β} (keeps : KeepsText property made)
    (step : ∀ value, property value → further (change value)) :
    KeepsText further (made.map change) := by
  cases made with
  | error stop => exact keeps
  | ok value => exact step value keeps

end

/-- Topics of help are compared with words and need not be texts. -/
theorem Stop.ofHelp_ne_notText (topics : List Bytes) : Stop.ofHelp topics ≠ .notText := by
  unfold Stop.ofHelp
  split
  · exact nofun
  · split
    · exact nofun
    · split <;> exact nofun
  · exact nofun

/-- The names of short options are ASCII. -/
theorem ascii_of_short {mode : Option Mode} {byte : UInt8}
    (named : (Setting.ofShort? mode (Char.ofNat byte.toNat)).isSome = true ∨
      (Flag.ofShort? mode (Char.ofNat byte.toNat)).isSome = true) : byte ≤ 0x7F := by
  have small : byte.toNat < 256 := byte.toNat_lt
  have valid : byte.toNat.isValidChar := .inl (by omega)
  have code : (Char.ofNat byte.toNat).toNat = byte.toNat := by
    rw [Char.ofNat, dif_pos valid]
    rfl
  have among : Char.ofNat byte.toNat ∈ ['o', 'v', 'S', 't', 'd'] := by
    rcases named with setting | flag
    · unfold Setting.ofShort? at setting
      split at setting <;> simp_all
    · unfold Flag.ofShort? at flag
      split at flag <;> simp_all
  have bounded : ∀ c ∈ ['o', 'v', 'S', 't', 'd'], c.toNat ≤ 0x7F := by simp
  rw [UInt8.le_iff_toNat_le, ← code]
  exact bounded _ among

theorem keepsText_readShort (mode : Option Mode) {bytes : Bytes} (text : Utf8.isText bytes = true) :
    KeepsText (fun brought => ∀ item ∈ brought.1, item.HoldsText) (readShort mode bytes) := by
  induction bytes with
  | nil => exact nofun
  | cons byte rest ih =>
    unfold readShort
    simp only
    cases setting : Setting.ofShort? mode (Char.ofNat byte.toNat) with
    | some setting =>
      have ascii : byte ≤ 0x7F := ascii_of_short (.inl (by rw [setting]; rfl))
      rw [Utf8.isText_cons_ascii ascii] at text
      simp only
      split
      · exact nofun
      · intro item member
        obtain rfl := List.mem_singleton.mp member
        exact Utf8.isText_dropWhile_eq (by decide) text
    | none =>
      simp only
      cases flag : Flag.ofShort? mode (Char.ofNat byte.toNat) with
      | some flag =>
        have ascii : byte ≤ 0x7F := ascii_of_short (.inr (by rw [flag]; rfl))
        rw [Utf8.isText_cons_ascii ascii] at text
        exact (ih text).map fun brought holds => List.forall_mem_cons.mpr ⟨trivial, holds⟩
      | none =>
        simp only
        split
        · exact nofun
        split
        · exact nofun
        · exact nofun

theorem keepsText_readLong (mode : Option Mode) {bytes : Bytes} {rest : List Bytes}
    (text : Utf8.isText bytes = true) (texts : ∀ argument ∈ rest, Utf8.isText argument = true) :
    KeepsText (fun brought => ∀ item ∈ brought.1, item.HoldsText) (readLong mode bytes rest) := by
  have trimmed := Utf8.isText_dropWhile_eq (show Byte.dash ≤ 0x7F by decide) text
  obtain ⟨name, behind⟩ := Utf8.isText_cut_ne (show Byte.equals ≤ 0x7F by decide) trimmed
  unfold readLong
  simp only
  split
  · split
    · intro item member
      obtain rfl := List.mem_singleton.mp member
      exact Utf8.isText_dropWhile_eq (by decide) behind
    · exact nofun
  split
  · intro item member
    obtain rfl := List.mem_singleton.mp member
    trivial
  split
  · exact nofun
  split
  · exact nofun
  · have all : (_ :: rest).all Utf8.isText = true :=
      List.all_eq_true.mpr (List.forall_mem_cons.mpr ⟨name, texts⟩)
    show Stop.ofUnknown _ rest ≠ .notText
    rw [Stop.ofUnknown, if_pos all]
    exact nofun

namespace Gathered
variable {gathered : Gathered} {argument : Bytes} {rest : List Bytes}

/-- The values that have been gathered are texts. -/
def HoldsText (gathered : Gathered) : Prop :=
  ∀ item ∈ gathered.items, item.HoldsText

theorem HoldsText.add (holds : gathered.HoldsText) {more : List Item}
    (others : ∀ item ∈ more, item.HoldsText) : ∀ item ∈ gathered.items ++ more, item.HoldsText :=
  fun item member => (List.mem_append.mp member).elim (holds item) (others item)

theorem HoldsText.giveUp (holds : gathered.HoldsText) : gathered.giveUp.HoldsText := by
  unfold Gathered.giveUp
  split
  · exact holds
  · exact holds.add (by simp [Item.HoldsText])

theorem keepsText_addInput (holds : gathered.HoldsText) (text : Utf8.isText argument = true) :
    KeepsText HoldsText (gathered.addInput argument) := by
  unfold addInput
  split
  · exact nofun
  · exact holds.add (by simpa [Item.HoldsText] using text)

theorem keepsText_step (mode : Mode) (holds : gathered.HoldsText) (text : Utf8.isText argument = true)
    (texts : ∀ argument ∈ rest, Utf8.isText argument = true) :
    KeepsText HoldsText (gathered.step mode argument rest) := by
  have brings (brought : Brought) (own : ∀ item ∈ brought.1, item.HoldsText) :
      (gathered.bring brought).HoldsText := holds.giveUp.add own
  have dash : (0x2D : UInt8) ≤ 0x7F := by decide
  unfold step
  split
  · exact keepsText_addInput holds text
  split
  · exact holds.giveUp
  split
  · rw [Utf8.isText_cons_ascii dash, Utf8.isText_cons_ascii dash] at text
    exact (keepsText_readLong _ text texts).map brings
  · rw [Utf8.isText_cons_ascii dash] at text
    exact (keepsText_readShort _ text).map brings
  · split
    · exact holds.add (by simpa [Item.HoldsText] using text)
    · exact keepsText_addInput holds text

theorem keepsText_steps (mode : Mode) {arguments : List Bytes} (holds : gathered.HoldsText)
    (texts : ∀ argument ∈ arguments, Utf8.isText argument = true) :
    KeepsText HoldsText (gathered.steps mode arguments) := by
  induction arguments generalizing gathered with
  | nil => exact holds.giveUp
  | cons argument rest ih =>
    obtain ⟨text, others⟩ := List.forall_mem_cons.mp texts
    exact (keepsText_step mode holds text others).bind fun next further => ih further others

end Gathered

/-! ## Invocations -/

theorem keepsText_theInput {items : List Item} (holds : ∀ item ∈ items, item.HoldsText) :
    KeepsText (fun value => Utf8.isText value = true) (theInput items) := by
  unfold theInput
  simp only
  split
  · rename_i input inputs
    obtain ⟨item, member, own⟩ := List.mem_filterMap.mp (inputs ▸ List.mem_singleton_self input)
    cases item with
    | input value =>
      obtain rfl := Option.some.inj own
      exact holds _ member
    | flag flag => cases own
    | setting setting value => cases own
  · exact nofun

theorem keepsText_oneValue (setting : Setting) {items : List Item}
    (holds : ∀ item ∈ items, item.HoldsText) :
    KeepsText (fun value => ∀ given ∈ value.toList, Utf8.isText given = true)
      (oneValue setting items) := by
  unfold oneValue
  simp only
  split
  · exact nofun
  · rename_i value values
    obtain ⟨item, member, own⟩ := List.mem_filterMap.mp (values ▸ List.mem_singleton_self (some value))
    cases item with
    | input value => cases own
    | flag flag => cases own
    | setting given other =>
      simp only at own
      split at own
      · obtain rfl := Option.some.inj own
        intro text among
        obtain rfl := List.mem_singleton.mp among
        exact holds _ member
      · cases own
  · exact nofun

theorem keepsText_oneFlag (flag : Flag) (items : List Item) :
    KeepsText (fun _ => True) (oneFlag flag items) := by
  unfold oneFlag
  split
  · trivial
  · trivial
  · exact nofun

namespace Invocation

theorem keepsText_ofItems (mode : Mode) (count : Nat) {items : List Item}
    (holds : ∀ item ∈ items, item.HoldsText) :
    KeepsText ValuesAreText (ofItems mode count items) := by
  refine (keepsText_theInput holds).bind fun input inputText => ?_
  refine (keepsText_oneValue .output holds).bind fun output outputText => ?_
  refine (keepsText_oneValue .maxSize holds).bind fun maxSize maxSizeText => ?_
  refine (keepsText_oneFlag .assemblyOnly items).bind fun assemblyOnly _ => ?_
  refine (keepsText_oneFlag .showTokens items).bind fun showTokens _ => ?_
  refine (keepsText_oneFlag .showLines items).bind fun showLines _ => ?_
  intro value member
  rcases List.mem_append.mp member with path | own
  · cases mode with
    | simulate => exact List.mem_singleton.mp path ▸ inputText
    | compile => exact (List.mem_cons.mp path).elim (fun same => same ▸ inputText) (outputText value)
  · exact maxSizeText value own

theorem keepsText_verboseIn {argument : Bytes} {rest : List Bytes} (text : Utf8.isText argument = true)
    (texts : ∀ other ∈ rest, Utf8.isText other = true) :
    KeepsText (fun _ => True) (verboseIn argument rest) := by
  have dash : (0x2D : UInt8) ≤ 0x7F := by decide
  unfold verboseIn
  split
  · exact nofun
  split
  · rw [Utf8.isText_cons_ascii dash, Utf8.isText_cons_ascii dash] at text
    exact (keepsText_readLong none text texts).map fun _ _ => trivial
  · rw [Utf8.isText_cons_ascii dash] at text
    exact (keepsText_readShort none text).map fun _ _ => trivial
  · exact nofun

/-- Arguments that are texts give values that are. -/
theorem keepsText_ofArgumentsAfter (count : Nat) {arguments : List Bytes}
    (texts : ∀ argument ∈ arguments, Utf8.isText argument = true) :
    KeepsText ValuesAreText (ofArgumentsAfter count arguments) := by
  induction arguments generalizing count with
  | nil => exact nofun
  | cons argument rest ih =>
    obtain ⟨text, others⟩ := List.forall_mem_cons.mp texts
    unfold ofArgumentsAfter
    split
    · rename_i mode _
      have start : Gathered.start.HoldsText := nofun
      refine (Gathered.keepsText_steps mode start others).bind ?_
      intro gathered holds
      exact keepsText_ofItems mode count holds
    split
    · exact Stop.ofHelp_ne_notText rest
    · refine (keepsText_verboseIn text others).bind ?_
      intro more _
      exact ih (count + more) others

theorem keepsText_ofArguments {arguments : List Bytes}
    (texts : ∀ argument ∈ arguments, Utf8.isText argument = true) :
    KeepsText ValuesAreText (ofArguments arguments) :=
  keepsText_ofArgumentsAfter 0 texts

end Invocation
end ArithAsm
