import ArithAsm.Command.Run
import ArithAsm.Proofs.Building
import Mathlib.Data.List.Basic

/-! How much of its commentary a run shows. The verbosity decides nothing else about a run, and the
records shown at one level are among those shown at any level below it. One more `-v` raises the
verbosity, wherever it stands, but for one case: the first `-v` behind the command word takes the
place of all those in front of it, and lowers the verbosity if there were several. -/
namespace ArithAsm

/-! ## Levels -/

theorem Level.rank_ofVerbosity_mono {less more : Nat} (le : less ≤ more) :
    (ofVerbosity less).rank ≤ (ofVerbosity more).rank := by
  have rank (count : Nat) : (ofVerbosity count).rank = min count 4 := by
    match count with
    | 0 | 1 | 2 | 3 => rfl
    | count + 4 => exact (Nat.min_eq_right (Nat.le_add_left 4 count)).symm
  rw [rank, rank]
  omega

section
variable {least most : Level} (below : least.rank ≤ most.rank)
include below

theorem Record.shownAt_mono {record : Record} (shown : record.shownAt least = true) :
    record.shownAt most = true :=
  decide_eq_true (Nat.le_trans (of_decide_eq_true shown) below)

/-- At a less severe level more records are shown, in the same order. -/
theorem shownRecords_sublist (records : List Record) :
    (shownRecords least records).Sublist (shownRecords most records) :=
  List.monotone_filter_right records fun _ => Record.shownAt_mono below

/-- What is shown at the more severe level can be told from what is shown at the other. -/
theorem shownRecords_shownRecords (records : List Record) :
    shownRecords least (shownRecords most records) = shownRecords least records := by
  rw [shownRecords, shownRecords, List.filter_filter]
  refine List.filter_congr fun record _ => ?_
  cases shown : record.shownAt least with
  | false => rfl
  | true => rw [Record.shownAt_mono below shown, Bool.and_true]

end

/-! ## Runs at any verbosity -/

/-- The outcomes differ at most in the records shown. -/
structure Outcome.AlikeButRecords (first second : Outcome) : Prop where
  ending : first.ending = second.ending
  stdout : first.stdout = second.stdout
  tree : first.tree = second.tree
  calls : first.calls = second.calls

/-- The outcome with those of its records that are shown at a verbosity. -/
def Outcome.abridged (outcome : Outcome) (verbosity : Nat) : Outcome :=
  { outcome with records := shownRecords (Level.ofVerbosity verbosity) outcome.records }

namespace Outcome

theorem alikeButRecords_abridged (outcome : Outcome) (first second : Nat) :
    (outcome.abridged first).AlikeButRecords (outcome.abridged second) :=
  ⟨rfl, rfl, rfl, rfl⟩

variable {less more : Nat} (le : less ≤ more) (outcome : Outcome)
include le

theorem records_abridged_sublist :
    (outcome.abridged less).records.Sublist (outcome.abridged more).records :=
  shownRecords_sublist (Level.rank_ofVerbosity_mono le) outcome.records

theorem records_abridged_of_le : (outcome.abridged less).records =
    shownRecords (Level.ofVerbosity less) (outcome.abridged more).records :=
  (shownRecords_shownRecords (Level.rank_ofVerbosity_mono le) outcome.records).symm

end Outcome

namespace Invocation

/-- The same invocation with another verbosity. -/
def withVerbosity (invocation : Invocation) (verbosity : Nat) : Invocation :=
  { invocation with verbosity }

theorem exists_unabridged_within (invocation : Invocation) (host : Host)
    (limit : Except LimitError UInt64) : ∃ unabridged : Outcome, ∀ verbosity,
      (invocation.withVerbosity verbosity).runWithin host limit = unabridged.abridged verbosity := by
  cases limit with
  | error cause =>
    exact ⟨⟨.exited 1, "", invocation.openingRecords ++
      [fatalRecord s!"invalid --max-size: {cause.message}"], host.tree, []⟩, fun _ => rfl⟩
  | ok limit =>
    have performs (verbosity : Nat) :
        (invocation.withVerbosity verbosity).perform host limit = invocation.perform host limit := rfl
    cases performed : invocation.perform host limit with
    | error abort =>
      refine ⟨⟨.aborted abort, "", invocation.openingRecords, host.tree, []⟩, fun _ => ?_⟩
      simp only [runWithin, performs, performed]
      rfl
    | ok session =>
      cases result : session.effect.result with
      | ok done =>
        refine ⟨⟨.exited 0, session.stdout, invocation.openingRecords ++ session.effect.records,
          session.effect.tree, session.effect.calls⟩, fun _ => ?_⟩
        simp only [runWithin, performs, performed, result]
        rfl
      | error error =>
        refine ⟨⟨.exited 1, session.stdout, invocation.openingRecords ++ session.effect.records ++
          [fatalRecord error.message], session.effect.tree, session.effect.calls⟩, fun _ => ?_⟩
        simp only [runWithin, performs, performed, result]
        rfl

/-- The verbosity has no say in anything but which of the records are shown. -/
theorem exists_unabridged (invocation : Invocation) (host : Host) :
    ∃ unabridged : Outcome, ∀ verbosity,
      (invocation.withVerbosity verbosity).run host = unabridged.abridged verbosity := by
  have paths (verbosity : Nat) :
      (invocation.withVerbosity verbosity).givenPaths = invocation.givenPaths := rfl
  have limits (verbosity : Nat) : (invocation.withVerbosity verbosity).limit = invocation.limit := rfl
  -- Whichever way a run goes, its records are all made before the verbosity is looked at.
  cases given : invocation.givenPaths.mapM textOf with
  | error abort =>
    refine ⟨⟨.aborted abort, "", [], host.tree, []⟩, fun _ => ?_⟩
    simp only [run, paths, given]
    rfl
  | ok texts =>
    cases limited : invocation.limit with
    | error abort =>
      refine ⟨⟨.aborted abort, "", invocation.openingRecords, host.tree, []⟩, fun _ => ?_⟩
      simp only [run, paths, given, limits, limited]
      rfl
    | ok limit =>
      obtain ⟨unabridged, within⟩ := invocation.exists_unabridged_within host limit
      refine ⟨unabridged, fun verbosity => ?_⟩
      simp only [run, paths, given, limits, limited]
      exact within verbosity

end Invocation

/-! ## A flag among the arguments -/

/-- A long option that is known brings the same whatever comes after it. -/
theorem readLong_of_ok {mode : Option Mode} {text : Bytes} {rest : List Bytes} {brought : Brought}
    (reads : readLong mode text rest = .ok brought) (instead : List Bytes) :
    readLong mode text instead = .ok brought := by
  unfold readLong at reads ⊢
  simp only at reads ⊢
  split at reads
  · exact reads
  split at reads
  · exact reads
  split at reads
  · cases reads
  split at reads
  · cases reads
  · cases reads

namespace Gathered

/-- The same arguments with a flag in front of them. -/
def prepend (flag : Flag) (gathered : Gathered) : Gathered :=
  { gathered with items := .flag flag :: gathered.items }

variable (flag : Flag) (gathered : Gathered)

theorem giveUp_prepend : (gathered.prepend flag).giveUp = gathered.giveUp.prepend flag := by
  obtain ⟨items, awaited, inputsOnly⟩ := gathered
  cases awaited <;> rfl

theorem bring_prepend (brought : Brought) :
    (gathered.prepend flag).bring brought = (gathered.bring brought).prepend flag := by
  rw [bring, giveUp_prepend]
  rfl

theorem addInput_prepend (value : Bytes) :
    (gathered.prepend flag).addInput value = (gathered.addInput value).map (prepend flag) := by
  simp only [addInput, prepend, List.any_cons, Bool.false_or]
  split <;> rfl

/-- A flag that has been gathered has no say in how further arguments are taken in. -/
theorem step_prepend (mode : Mode) (argument : Bytes) (rest : List Bytes) :
    (gathered.prepend flag).step mode argument rest =
      (gathered.step mode argument rest).map (prepend flag) := by
  have awaits : (gathered.prepend flag).awaited = gathered.awaited := rfl
  have ended : (gathered.prepend flag).inputsOnly = gathered.inputsOnly := rfl
  simp only [step, awaits, ended, addInput_prepend, giveUp_prepend]
  split
  · rfl
  split
  · rfl
  split
  · cases readLong (some mode) _ rest with
    | error stop => rfl
    | ok brought => exact congrArg Except.ok (gathered.bring_prepend flag brought)
  · cases readShort (some mode) _ with
    | error stop => rfl
    | ok brought => exact congrArg Except.ok (gathered.bring_prepend flag brought)
  · split <;> rfl

theorem steps_prepend (mode : Mode) (arguments : List Bytes) :
    (gathered.prepend flag).steps mode arguments =
      (gathered.steps mode arguments).map (prepend flag) := by
  induction arguments generalizing gathered with
  | nil => rw [steps, steps, giveUp_prepend]; rfl
  | cons argument rest ih =>
    rw [steps, steps, step_prepend]
    cases gathered.step mode argument rest with
    | error stop => rfl
    | ok next => exact ih next

end Gathered

/-- The command word stands between `front`, which holds no other, and `behind`. -/
structure Mode.WordBetween (mode : Mode) (arguments front behind : List Bytes) : Prop where
  split : arguments = front ++ Utf8.encode mode.word :: behind
  first : ∀ argument ∈ front, Mode.ofWord? argument = none

namespace Invocation

/-- How often `-v` is given in front of the command word. What comes after an argument has no say in
the count. -/
def verboseInFront : List Bytes → Nat
  | [] => 0
  | argument :: rest => (verboseIn argument []).toOption.getD 0 + verboseInFront rest

/-- How often `-v` is given behind the command word. -/
def verboseBehind (mode : Mode) (behind : List Bytes) : Nat :=
  ((Gathered.start.steps mode behind).toOption.map fun gathered =>
    flagCount .verbose gathered.items).getD 0

/-- The verbosity that counts of `-v` in front of the command word and behind it lead to. -/
def verbosityOf (inFront inBehind : Nat) : Nat :=
  if inBehind = 0 then inFront else inBehind

/-- The larger of the two counts is this one, as what is given behind the word stands in both. -/
theorem max_sharedCount (inFront inBehind : Nat) :
    max (sharedCount inFront inBehind).2 (sharedCount inFront inBehind).1 =
      verbosityOf inFront inBehind :=
  Nat.max_self _

variable {mode : Mode} {items more : List Item} {invocation : Invocation}
  {arguments front behind : List Bytes} {count : Nat}

/-! ### Items -/

/-- Items that agree in all but the number of `-v` make up the same invocation but for its
verbosity. -/
theorem ofItems_eq (input : theInput more = theInput items)
    (value : ∀ setting, oneValue setting more = oneValue setting items)
    (flags : ∀ flag, flag ≠ .verbose → oneFlag flag more = oneFlag flag items)
    (mode : Mode) (inFront : Nat) :
    ofItems mode inFront more = (ofItems mode 0 items).map
      (·.withVerbosity (verbosityOf inFront (flagCount .verbose more))) := by
  simp only [ofItems, max_sharedCount, bind, Except.bind, input, value, flags .assemblyOnly (by decide),
    flags .showTokens (by decide), flags .showLines (by decide)]
  rcases theInput items with _ | input
  · rfl
  rcases oneValue .output items with _ | output
  · rfl
  rcases oneValue .maxSize items with _ | maxSize
  · rfl
  rcases oneFlag .assemblyOnly items with _ | assemblyOnly
  · rfl
  rcases oneFlag .showTokens items with _ | showTokens
  · rfl
  rcases oneFlag .showLines items with _ | showLines
  · rfl
  rfl

theorem oneFlag_cons_verbose {flag : Flag} (other : flag ≠ .verbose) (items : List Item) :
    oneFlag flag (.flag .verbose :: items) = oneFlag flag items := by
  have apart : Item.flag .verbose ≠ Item.flag flag := fun same => other (Item.flag.inj same).symm
  rw [oneFlag, oneFlag, flagCount, flagCount, List.count_cons_of_ne apart]

theorem mode_of_ofItems (made : ofItems mode count items = .ok invocation) :
    invocation.mode = mode := by
  simp only [ofItems, bind, Except.bind] at made
  iterate 6
    split at made
    · cases made
  obtain rfl := Except.ok.inj made
  rfl

/-- The count in front and one more `-v` behind the command word change the verbosity of what the
items make up, and nothing else. -/
theorem ofItems_verbose (made : ofItems mode count items = .ok invocation) (inFront : Nat) :
    ofItems mode inFront items =
        .ok (invocation.withVerbosity (verbosityOf inFront (flagCount .verbose items))) ∧
      ofItems mode inFront (.flag .verbose :: items) =
        .ok (invocation.withVerbosity (verbosityOf inFront (flagCount .verbose items + 1))) := by
  have same (inFront : Nat) : ofItems mode inFront items = (ofItems mode 0 items).map
      (·.withVerbosity (verbosityOf inFront (flagCount .verbose items))) :=
    ofItems_eq rfl (fun _ => rfl) (fun _ _ => rfl) mode inFront
  have input : theInput (.flag .verbose :: items) = theInput items := rfl
  have added := ofItems_eq input (fun _ => rfl)
    (fun _ other => oneFlag_cons_verbose other items) mode inFront
  rw [flagCount, List.count_cons_self, ← flagCount] at added
  rw [same] at made
  cases base : ofItems mode 0 items with
  | error stop =>
    rw [base] at made
    cases made
  | ok plain =>
    rw [base] at made
    obtain rfl := Except.ok.inj made
    rw [same, added, base]
    exact ⟨rfl, rfl⟩

/-! ### Arguments -/

theorem ofArgumentsAfter_word (count : Nat) (mode : Mode) (rest : List Bytes) :
    ofArgumentsAfter count (Utf8.encode mode.word :: rest) =
      (Gathered.start.steps mode rest).bind fun gathered => ofItems mode count gathered.items := by
  have named : Mode.ofWord? (Utf8.encode mode.word) = some mode := by cases mode <;> decide
  rw [ofArgumentsAfter, named]

/-- What an argument in front of the command word is counted for does not depend on what comes
after. -/
theorem verboseIn_of_ok {argument : Bytes} {rest : List Bytes}
    (given : verboseIn argument rest = .ok count) (instead : List Bytes) :
    verboseIn argument instead = .ok count := by
  unfold verboseIn at given ⊢
  split at given
  · cases given
  rename_i option
  rw [if_neg option]
  split at given
  · rename_i text
    cases reads : readLong none text rest with
    | error stop =>
      rw [reads] at given
      cases given
    | ok brought =>
      rw [reads] at given
      simp only [readLong_of_ok reads instead]
      exact given
  · exact given
  · cases given

/-- An argument that is no command word and leads on gives its count of `-v`. -/
theorem ofArgumentsAfter_cons {argument : Bytes} {rest : List Bytes}
    (plain : Mode.ofWord? argument = none)
    (accepted : ofArgumentsAfter count (argument :: rest) = .ok invocation) (other : Nat)
    (instead : List Bytes) : ofArgumentsAfter other (argument :: instead) =
      ofArgumentsAfter (other + (verboseIn argument []).toOption.getD 0) instead := by
  simp only [ofArgumentsAfter, plain] at accepted ⊢
  by_cases help : argument = helpWord
  · rw [if_pos help] at accepted
    cases accepted
  · rw [if_neg help] at accepted ⊢
    cases given : verboseIn argument rest with
    | error stop =>
      rw [given] at accepted
      cases accepted
    | ok more =>
      rw [verboseIn_of_ok given, verboseIn_of_ok given]
      rfl

/-- What stands in front of the command word is counted, and has no other part in what is asked
for. -/
theorem ofArgumentsAfter_front {rest : List Bytes}
    (plain : ∀ argument ∈ front, Mode.ofWord? argument = none)
    (accepted : ofArgumentsAfter count (front ++ rest) = .ok invocation) (other : Nat)
    (instead : List Bytes) : ofArgumentsAfter other (front ++ instead) =
      ofArgumentsAfter (other + verboseInFront front) instead := by
  induction front generalizing count other with
  | nil => rfl
  | cons argument front ih =>
    obtain ⟨first, others⟩ := List.forall_mem_cons.mp plain
    -- That the arguments were accepted once keeps `help` and unknown options out of the front.
    have passed := ofArgumentsAfter_cons first accepted
    rw [List.cons_append, passed count] at accepted
    rw [List.cons_append, passed other, ih others accepted, verboseInFront, Nat.add_assoc]

/-- Arguments that lead to an invocation hold its command word. -/
theorem exists_wordBetween (accepted : ofArgumentsAfter count arguments = .ok invocation) :
    ∃ front behind, invocation.mode.WordBetween arguments front behind := by
  induction arguments generalizing count with
  | nil => cases accepted
  | cons argument rest ih =>
    cases known : Mode.ofWord? argument with
    | some mode =>
      have named := List.find?_some known
      obtain rfl : Utf8.encode mode.word = argument := eq_of_beq named
      rw [ofArgumentsAfter_word] at accepted
      cases gathered : Gathered.start.steps mode rest with
      | error stop =>
        rw [gathered] at accepted
        cases accepted
      | ok gathers =>
        rw [gathered] at accepted
        obtain rfl := mode_of_ofItems accepted
        exact ⟨[], rest, rfl, nofun⟩
    | none =>
      have passed := ofArgumentsAfter_cons known accepted count rest
      obtain ⟨front, behind, rfl, first⟩ := ih (passed ▸ accepted)
      exact ⟨argument :: front, behind, rfl, List.forall_mem_cons.mpr ⟨known, first⟩⟩

theorem ofArgumentsAfter_verbose (count : Nat) (rest : List Bytes) :
    ofArgumentsAfter count (Utf8.encode "-v" :: rest) = ofArgumentsAfter (count + 1) rest := rfl

/-- A `-v` right behind the command word comes in front of what is gathered there. -/
theorem steps_verbose {gathered : Gathered} (mode : Mode)
    (gathers : Gathered.start.steps mode behind = .ok gathered) :
    Gathered.start.steps mode (Utf8.encode "-v" :: behind) = .ok (gathered.prepend .verbose) := by
  have first : Gathered.start.step mode (Utf8.encode "-v") behind = .ok (Gathered.start.prepend .verbose) := by
    cases mode <;> rfl
  rw [Gathered.steps, first]
  show (Gathered.start.prepend .verbose).steps mode behind = _
  rw [Gathered.steps_prepend, gathers]
  rfl

/-- One more `-v` on either side of the command word changes the verbosity and nothing else. -/
theorem ofArguments_verbose (accepted : ofArguments arguments = .ok invocation)
    (between : mode.WordBetween arguments front behind) :
    let inFront := verboseInFront front
    let inBehind := verboseBehind mode behind
    invocation.verbosity = verbosityOf inFront inBehind ∧
      ofArguments (front ++ Utf8.encode "-v" :: Utf8.encode mode.word :: behind) =
        .ok (invocation.withVerbosity (verbosityOf (inFront + 1) inBehind)) ∧
      ofArguments (front ++ Utf8.encode mode.word :: Utf8.encode "-v" :: behind) =
        .ok (invocation.withVerbosity (verbosityOf inFront (inBehind + 1))) := by
  obtain ⟨rfl, first⟩ := between
  have passed := ofArgumentsAfter_front first accepted 0
  rw [Nat.zero_add] at passed
  rw [ofArguments, passed, ofArgumentsAfter_word] at accepted
  cases gathers : Gathered.start.steps mode behind with
  | error stop =>
    rw [gathers] at accepted
    cases accepted
  | ok gathered =>
    rw [gathers] at accepted
    have made : ofItems mode (verboseInFront front) gathered.items = .ok invocation := accepted
    have counted : verboseBehind mode behind = flagCount .verbose gathered.items := by
      rw [verboseBehind, gathers]
      rfl
    have same := (ofItems_verbose made (verboseInFront front)).1
    rw [made] at same
    simp only [counted]
    refine ⟨congrArg Invocation.verbosity (Except.ok.inj same), ?_, ?_⟩
    · rw [ofArguments, passed, ofArgumentsAfter_verbose, ofArgumentsAfter_word, gathers]
      exact (ofItems_verbose made _).1
    · rw [ofArguments, passed, ofArgumentsAfter_word, steps_verbose mode gathers]
      exact (ofItems_verbose made _).2

end Invocation

/-- One more `-v` in front of the command word or right behind it changes nothing about a run but
the records that it shows. In front of the word it hides none, and behind it neither, unless there
are several in front and none behind: then what is left is what the level of a single `-v` shows. -/
theorem more_commentary_hides_only_by_overriding {arguments : List Bytes} {invocation : Invocation}
    (host : Host) (accepted : Invocation.ofArguments arguments = .ok invocation) :
    (∃ front behind, invocation.mode.WordBetween arguments front behind) ∧
    ∀ front behind, invocation.mode.WordBetween arguments front behind →
      let inFront := Invocation.verboseInFront front
      let inBehind := Invocation.verboseBehind invocation.mode behind
      let plain := run host arguments
      let early := run host (front ++ Utf8.encode "-v" :: Utf8.encode invocation.mode.word :: behind)
      let late := run host (front ++ Utf8.encode invocation.mode.word :: Utf8.encode "-v" :: behind)
      invocation.verbosity = Invocation.verbosityOf inFront inBehind ∧
        plain.AlikeButRecords early ∧ plain.AlikeButRecords late ∧
        plain.records.Sublist early.records ∧
        (inFront ≤ 1 ∨ 0 < inBehind → plain.records.Sublist late.records) ∧
        (2 ≤ inFront → inBehind = 0 → late.records = shownRecords .warn plain.records) := by
  refine ⟨Invocation.exists_wordBetween accepted, fun front behind between => ?_⟩
  obtain ⟨verbosity, earlyAccepted, lateAccepted⟩ := Invocation.ofArguments_verbose accepted between
  intro inFront inBehind plain early late
  obtain ⟨unabridged, runs⟩ := invocation.exists_unabridged host
  have plainRun : plain = unabridged.abridged (Invocation.verbosityOf inFront inBehind) := by
    simp only [plain, run, accepted]
    rw [← verbosity]
    exact runs invocation.verbosity
  have earlyRun : early = unabridged.abridged (Invocation.verbosityOf (inFront + 1) inBehind) := by
    simp only [early, run, earlyAccepted]
    exact runs _
  have lateRun : late = unabridged.abridged (Invocation.verbosityOf inFront (inBehind + 1)) := by
    simp only [late, run, lateAccepted]
    exact runs _
  rw [plainRun, earlyRun, lateRun]
  refine ⟨verbosity, unabridged.alikeButRecords_abridged _ _, unabridged.alikeButRecords_abridged _ _,
    unabridged.records_abridged_sublist ?_, fun kept => unabridged.records_abridged_sublist ?_,
    fun several none => ?_⟩
  · unfold Invocation.verbosityOf
    split <;> omega
  · unfold Invocation.verbosityOf
    split <;> split <;> omega
  · rw [none]
    exact Outcome.records_abridged_of_le (Nat.le_of_succ_le several) unabridged

/-- Two flags in front of the word are overridden by the first one behind it. -/
theorem flag_behind_word_overrides_two :
    let plain := run (.obliging "p" "1") (["-v", "-v", "comp", "p"].map Utf8.encode)
    let early := run (.obliging "p" "1") (["-v", "-v", "-v", "comp", "p"].map Utf8.encode)
    let late := run (.obliging "p" "1") (["-v", "-v", "comp", "-v", "p"].map Utf8.encode)
    plain.records.Sublist early.records ∧ late.records = shownRecords .warn plain.records ∧
      plain.tree = late.tree := by
  have accepted : Invocation.ofArguments (["-v", "-v", "comp", "p"].map Utf8.encode) =
      .ok ⟨.compile, Utf8.encode "p", none, none, false, false, false, 2⟩ := rfl
  have between : Mode.WordBetween .compile (["-v", "-v", "comp", "p"].map Utf8.encode)
      (["-v", "-v"].map Utf8.encode) [Utf8.encode "p"] := ⟨rfl, by decide⟩
  obtain ⟨-, -, late, early, -, hides⟩ :=
    (more_commentary_hides_only_by_overriding (.obliging "p" "1") accepted).2 _ _ between
  exact ⟨early, hides (by decide) rfl, late.tree⟩

/-- The first `-v` behind the word overrides three in front of it, and takes the whole commentary
away. -/
theorem first_flag_behind_word_hides_records :
    (run (.obliging "f" "1") (["-vvv", "sim", "f"].map Utf8.encode)).records =
        [⟨.debug, .source, "read 1 byte(s) from `f`"⟩,
          ⟨.debug, .simulator, "simulated 1 byte(s), result 1"⟩] ∧
      (run (.obliging "f" "1") (["-vvv", "sim", "-v", "f"].map Utf8.encode)).records = [] := by
  decide +kernel

end ArithAsm
