import ArithAsm.Proofs.DumpRoutine.Parts

/-! The routine that prints the accumulator, executed as a whole: into the loop, once around
for each digit, and back to the caller. -/
namespace ArithAsm.Processor
open Machine (Register)
open Execution

section
variable (unspecified : Unspecified) {code : List String} {line : Nat} {rest : List Instruction}
  {base : UInt64} {entry : State}

/-- The loop puts all the digits of the accumulator in front of the text. -/
theorem reaches_digits (spells : Spells code line (round ++ .jumpAbove ".L2" :: rest))
    (label : lineOf code ".L2" = line) (room : entry.memory.Maps base 40) {n : Nat} {text : Bytes}
    {state : State} (value : (state.registers .rdi).toNat = n) (looping : Looping base entry text state)
    (fits : (Utf8.encode n.repr).length + text.length ≤ 31) :
    ∃ after, Reaches code unspecified ⟨.line line, state⟩ ⟨.line (line + round.length + 1), after⟩ ∧
      Prepared base entry (Utf8.encode n.repr ++ text) after ∧
      after.registers .rsi = base + .ofNat (32 - (Utf8.encode n.repr ++ text).length) := by
  obtain ⟨spellsRound, spellsJump⟩ := spells.append
  -- Each round takes the last digit away.
  induction n using Nat.strongRecOn generalizing text state with
  | ind n ih =>
    have nonempty := List.length_pos_iff.mpr (Utf8.encode_repr_ne_nil n)
    obtain ⟨after, performed, loopingAfter, rdi, rsi, above⟩ :=
      perform_round unspecified looping room (by omega)
    rw [value] at loopingAfter above
    have reaches := reaches_of_performAll spellsRound performed
    by_cases more : 9 < n
    · have split := encode_repr_of_le more
      have tenth : (after.registers .rdi).toNat = n / 10 := by
        rw [rdi, UInt64.toNat_div, value]
        rfl
      have shorter : (Utf8.encode (n / 10).repr).length + (digitByte (n % 10) :: text).length ≤ 31 := by
        rw [split, List.length_append, List.length_singleton] at fits
        rw [List.length_cons]
        omega
      obtain ⟨last, onward, prepared, start⟩ := ih (n / 10) (by omega) tenth loopingAfter shorter
      have whole : Utf8.encode (n / 10).repr ++ digitByte (n % 10) :: text = Utf8.encode n.repr ++ text := by
        rw [split, List.append_assoc]
        rfl
      rw [whole] at prepared start
      refine ⟨last, ?_, prepared, start⟩
      have jumps := step_of_above unspecified spellsJump (above.mpr more)
      rw [label] at jumps
      exact reaches.trans (onward.step jumps)
    · have single : Utf8.encode n.repr = [digitByte n] := encode_repr_of_lt (by omega)
      have falls := step_of_not_above unspecified spellsJump fun taken => more (above.mp taken)
      rw [Nat.mod_eq_of_lt (by omega)] at loopingAfter
      refine ⟨after, reaches.trans ((Reaches.refl _).step falls), ?_, ?_⟩
      · rw [single]
        exact loopingAfter.toPrepared
      · rw [single, rsi]
        simp only [List.singleton_append, List.length_cons]
        congr 2
        omega

/-- From its label on, the routine comes back with the accumulator printed. -/
theorem reaches_return (spells : Spells code line routine) (label : lineOf code ".L2" = line + 9)
    (top : entry.registers .rsp = base + .ofNat 40) (aligned : base % 16 = 0)
    (room : entry.memory.Maps base 48) {returnAddress : UInt64}
    (pushed : entry.memory.read (base + .ofNat 40) 8 = littleEndian 8 returnAddress.toNat) :
    ∃ state final, Reaches code unspecified ⟨.line line, entry⟩ ⟨.left returnAddress, final⟩ ∧
      Confined base entry state ∧ final.memory = state.memory ∧
      final.events = state.events ++
        [.write 1 (Utf8.encode ((entry.registers .rdi).toNat.repr ++ "\n"))] ∧
      final.registers .rdi = entry.registers .rdi ∧ final.registers .rsp = base + .ofNat 48 ∧
      ∀ register ∉ .rsp :: working, final.registers register = entry.registers register := by
  have frame : entry.memory.Maps base 40 := fun index within => room index (by omega)
  obtain ⟨spellsSetup, spellsLoop⟩ := spells.append
  obtain ⟨spellsOutput, spellsLeave⟩ := spellsLoop.append.2.here.2.append
  -- Up to the loop.
  obtain ⟨entered, enters, preparedEntered, rdiEntered, r8⟩ := perform_entrance unspecified top frame
  obtain ⟨initial, initializes, looping, rdiInitial⟩ :=
    perform_initialization unspecified preparedEntered r8 aligned frame
  have reachesLoop := reaches_of_performAll spellsSetup (State.performAll_append enters initializes)
  -- Through the loop.
  have value : (initial.registers .rdi).toNat = (entry.registers .rdi).toNat := by
    rw [rdiInitial, rdiEntered]
  have digits : (Utf8.encode (entry.registers .rdi).toNat.repr).length ≤ 19 + 1 := by
    apply length_encode_repr_le
    have bound := (entry.registers .rdi).toNat_lt
    omega
  obtain ⟨state, reachesOutput, prepared, start⟩ := reaches_digits unspecified spellsLoop label frame value
    looping (by rw [List.length_singleton]; omega)
  have newline : Utf8.encode "\n" = [10] := rfl
  rw [← newline, ← Utf8.encode_append] at prepared start
  -- Out of the routine.
  obtain ⟨written, writes, rdi, rsp, others, memory, events⟩ :=
    perform_output unspecified prepared frame start
  have reachesLeave := reaches_of_performAll spellsOutput writes
  have maps : written.memory.Maps (written.registers .rsp) 8 := by
    rw [rsp, memory]
    exact prepared.confined.maps (room.part (by omega))
  have unchanged : state.memory.read (base + .ofNat 40) 8 = entry.memory.read (base + .ofNat 40) 8 := by
    apply List.map_congr_left
    intro index member
    have within := List.mem_range.mp member
    apply prepared.confined.intact
    rw [UInt64.add_assoc, ← UInt64.ofNat_add, distance_of_offset base (by omega)]
    omega
  have popped := State.pop_of_maps maps
  rw [rsp, memory, unchanged, pushed, wordOf_littleEndian, UInt64.add_assoc] at popped
  have leaves := step_of_leave unspecified spellsLeave popped
  refine ⟨state, written.assign .rsp (base + .ofNat 48), ?_, prepared.confined, memory, events, ?_, ?_, ?_⟩
  · exact (reachesLoop.trans reachesOutput).trans (reachesLeave.trans ((Reaches.refl _).step leaves))
  · rw [State.registers_assign_of_ne (by simp), rdi]
  · exact State.registers_assign_self _ _
  · intro register outside
    have notStack : register ≠ .rsp := fun same => outside (by simp [same])
    rw [State.registers_assign_of_ne notStack, others register outside]

end

/-- The routine stands in every listing that holds its lines. -/
theorem spells_routine (opening rest : List String) :
    Spells (opening ++ (dumpRoutine ++ rest)) (opening.length + 1) routine := by
  have whole : Spells (opening ++ (dumpRoutine ++ rest)) opening.length (.skip :: routine) := by
    refine ⟨rest.map Instruction.decode?, ?_⟩
    rw [List.drop_left, List.map_append, decode_dumpRoutine]
  exact whole.here.2

/-- A label of the routine is found in it, unless it is also somewhere before. -/
theorem lineOf_label {opening rest : List String} {label : String} (first : label ++ ":" ∉ opening)
    (member : label ++ ":" ∈ dumpRoutine) :
    lineOf (opening ++ (dumpRoutine ++ rest)) label =
      opening.length + dumpRoutine.idxOf (label ++ ":") := by
  rw [lineOf, List.idxOf_append_of_notMem first, List.idxOf_append_of_mem member]

/-- A call puts the return address directly above the frame. -/
theorem call_of_room {caller : State} (returnAddress : UInt64)
    (room : caller.memory.Maps (caller.registers .rsp - 48) 48) :
    caller.push? returnAddress = some (caller.pushed returnAddress) ∧
      (caller.pushed returnAddress).registers .rsp = caller.registers .rsp - 48 + .ofNat 40 ∧
      (caller.pushed returnAddress).memory.read (caller.registers .rsp - 48 + .ofNat 40) 8 =
        littleEndian 8 returnAddress.toNat := by
  have next : caller.registers .rsp - 8 = caller.registers .rsp - 48 + .ofNat 40 := by grind
  refine ⟨State.push_of_maps returnAddress (next ▸ room.part (by omega)), ?_, ?_⟩
  · rw [State.registers_pushed_rsp, next]
  · rw [← next]
    exact State.read_pushed returnAddress

/-- A place in the frame of the routine, called with this stack pointer: one of the 40
bytes below the return address. -/
def InFrame (stack place : UInt64) : Prop :=
  (place - (stack - 48)).toNat < 40

/-- Called with the stack aligned and 48 bytes of room below it, the routine comes back to
where it was called from, whatever the accumulator holds. It has written its decimal digits
and a newline to the standard output at once and stored nothing outside of its frame, and
has kept all registers that it does not say it destroys, the accumulator and the stack
pointer among them. -/
theorem dump_prints_accumulator (opening rest : List String) (noDump : "dump:" ∉ opening)
    (noLoop : ".L2:" ∉ opening) (unspecified : Unspecified) (caller : State) (returnAddress : UInt64)
    (aligned : caller.registers .rsp % 16 = 0)
    (room : caller.memory.Maps (caller.registers .rsp - 48) 48) :
    ∃ (entered : Execution) (steps : Nat) (final : State) (places : List UInt64),
      call? (opening ++ (dumpRoutine ++ rest)) "dump" returnAddress caller = some entered ∧
      run? (opening ++ (dumpRoutine ++ rest)) unspecified steps entered =
        some ⟨.left returnAddress, final⟩ ∧
      final.events = entered.state.events ++ places.map .store ++
        [.write 1 (Utf8.encode ((caller.registers .rdi).toNat.repr ++ "\n"))] ∧
      (∀ place ∈ places, InFrame (caller.registers .rsp) place) ∧
      (∀ place, ¬InFrame (caller.registers .rsp) place →
        final.memory.byte place = entered.state.memory.byte place) ∧
      final.registers .rdi = caller.registers .rdi ∧ final.registers .rsp = caller.registers .rsp ∧
      ∀ register ∉ Machine.volatile, final.registers register = caller.registers register := by
  have dumpLine : lineOf (opening ++ (dumpRoutine ++ rest)) "dump" = opening.length + 1 :=
    lineOf_label noDump (by simp [dumpRoutine])
  have loopLine : lineOf (opening ++ (dumpRoutine ++ rest)) ".L2" = opening.length + 1 + 9 :=
    lineOf_label noLoop (by simp [dumpRoutine])
  have alignedBase : (caller.registers .rsp - 48) % 16 = 0 := by
    have whole : (caller.registers .rsp).toNat % 16 = 0 := by simpa [← UInt64.toNat_inj] using aligned
    apply UInt64.toNat_inj.mp
    simp [UInt64.toNat_sub]
    omega
  obtain ⟨pushes, top, pushed⟩ := call_of_room returnAddress room
  obtain ⟨state, final, ⟨steps, ran⟩, confined, memory, events, rdi, rsp, kept⟩ :=
    reaches_return unspecified (spells_routine opening rest) loopLine top alignedBase room pushed
  obtain ⟨places, stores, within⟩ := confined.events
  rw [State.registers_pushed_of_ne (by simp)] at rdi events
  have back : final.registers .rsp = caller.registers .rsp := by
    rw [rsp]
    exact UInt64.sub_add_cancel _ _
  refine ⟨⟨.line (opening.length + 1), caller.pushed returnAddress⟩, steps, final, places, ?_, ran, ?_, within,
    ?_, rdi, back, ?_⟩
  · rw [call?, pushes, dumpLine, Option.map_some]
  · rw [events, stores]
  · intro place outside
    rw [memory]
    exact confined.intact place (Nat.le_of_not_lt outside)
  · intro register notVolatile
    by_cases isRdi : register = .rdi
    · rw [isRdi, rdi]
    by_cases isRsp : register = .rsp
    · rw [isRsp, back]
    rw [kept register (by simp [working, isRdi, isRsp, notVolatile]), State.registers_pushed_of_ne isRsp]

/-- The largest value has twenty digits. -/
theorem dump_prints_largest :
    let code := ["section .text", "global _start"] ++ (dumpRoutine ++ [entryLabel])
    let caller : State := ⟨fun register => if register = .rdi then 0xFFFFFFFFFFFFFFFF else 0x7FFFFFF0, 0,
      ⟨false, true⟩, ⟨fun _ => true, fun _ => 0xAA⟩, []⟩
    ∃ (entered : Execution) (steps : Nat) (final : State) (places : List UInt64),
      call? code "dump" 0x401000 caller = some entered ∧
      run? code ⟨fun _ => true, fun _ => 0x401080, fun _ => 0x202⟩ steps entered =
        some ⟨.left 0x401000, final⟩ ∧
      final.events = entered.state.events ++ places.map .store ++
        [.write 1 (Utf8.encode "18446744073709551615\n")] ∧
      final.registers .rdi = 0xFFFFFFFFFFFFFFFF ∧ final.registers .rsp = 0x7FFFFFF0 := by
  intro code caller
  have text : (caller.registers .rdi).toNat.repr ++ "\n" = "18446744073709551615\n" := by decide +kernel
  obtain ⟨entered, steps, final, places, called, ran, events, -, -, rdi, rsp, -⟩ := dump_prints_accumulator
    ["section .text", "global _start"] [entryLabel] (by simp) (by simp)
    ⟨fun _ => true, fun _ => 0x401080, fun _ => 0x202⟩ caller 0x401000 (by decide) fun _ _ => rfl
  rw [text] at events
  exact ⟨entered, steps, final, places, called, ran, events, rdi, rsp⟩

end ArithAsm.Processor
