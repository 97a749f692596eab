import ArithAsm.Assembly.Boilerplate
import ArithAsm.Proofs.DumpRoutine.Frame

/-! The print routine in parts, and what each of them does to the frame. -/
namespace ArithAsm.Processor
open Machine (Register)

/-! ## The instructions -/

/-- Makes room for the buffer, and loads the reciprocal. -/
def allocation : List Instruction :=
  [.compute .quad .subtract .rsp (.immediate 32), .clearVector,
    .compute .quad .move .r8 (.immediate reciprocal)]

/-- Saves the accumulator above the buffer. -/
def entrance : List Instruction :=
  .skip :: .push .rdi :: allocation

/-- Clears the buffer, with a newline at its end. -/
def initialization : List Instruction :=
  [.storeVector ⟨.rsp, none, 16⟩, .loadAddress .rcx ⟨.rsp, none, 30⟩,
    .storeByte ⟨.rsp, none, 31⟩ (.immediate 10), .storeVector ⟨.rsp, none, 0⟩]

/-- Divides by ten, with the quotient in `rdx` and the remainder in `rax`. -/
def division : List Instruction :=
  [.skip, .compute .quad .move .rax (.register .rdi), .multiply .r8,
    .compute .quad .move .rax (.register .rdi), .shiftRight .rdx 3,
    .loadAddress .rsi ⟨.rdx, some (.rdx, 4), 0⟩, .compute .quad .add .rsi (.register .rsi),
    .compute .quad .subtract .rax (.register .rsi)]

/-- Makes a digit of the remainder, and moves on to the place in front. -/
def conversion : List Instruction :=
  [.compute .quad .move .rsi (.register .rcx), .compute .quad .subtract .rcx (.immediate 1),
    .compute .double .add .rax (.immediate 48)]

/-- Goes on with the quotient, and tests whether that leaves a digit. -/
def comparison : List Instruction :=
  [.compute .quad .move .rax (.register .rdi), .compute .quad .move .rdi (.register .rdx),
    .compare .rax (.immediate 9)]

/-- Puts the last digit in front of the text. -/
def round : List Instruction :=
  division ++ (conversion ++ .storeByte ⟨.rcx, none, 1⟩ (.register .rax) :: comparison)

/-- The arguments of the system call. -/
def arguments : List Instruction :=
  [.compute .quad .move .rax (.immediate 1), .loadAddress .rdx ⟨.rsp, none, 32⟩,
    .compute .double .move .rdi (.immediate 1), .compute .quad .subtract .rdx (.register .rsi)]

/-- Takes the frame down. -/
def release : List Instruction :=
  [.compute .quad .add .rsp (.immediate 32), .pop .rdi]

/-- Writes the text, and leaves the frame. -/
def output : List Instruction :=
  (arguments ++ [.systemCall]) ++ release

/-- The whole routine, from its label on. -/
def routine : List Instruction :=
  (entrance ++ initialization) ++ (round ++ .jumpAbove ".L2" :: (output ++ [.leave]))

/-- The first line is a remark. -/
theorem decode_dumpRoutine : dumpRoutine.map Instruction.decode? = (.skip :: routine).map some := by
  decide +kernel

/-! ## What the parts do -/

section
variable (unspecified : Unspecified) {base : UInt64} {state entry : State} {text : Bytes}

theorem perform_allocation (state : State) :
    ∃ after, state.performAll? unspecified allocation = some after ∧
      after.registers .rsp = state.registers .rsp - 32 ∧ after.registers .r8 = reciprocal ∧
      Changes [.rsp, .r8] state after := by
  have performed : state.performAll? unspecified allocation = some _ := rfl
  refine ⟨_, performed, ?_, ?_, .of_performAll performed rfl⟩
  · simp [Machine.Verb.apply]
  · simp [Machine.Verb.apply]

theorem perform_division (divisor : state.registers .r8 = reciprocal) :
    ∃ after, state.performAll? unspecified division = some after ∧
      after.registers .rax = state.registers .rdi % 10 ∧
      after.registers .rdx = state.registers .rdi / 10 ∧ Changes [.rax, .rdx, .rsi] state after := by
  have performed : state.performAll? unspecified division = some _ := rfl
  refine ⟨_, performed, ?_, ?_, .of_performAll performed rfl⟩
  · simp [State.locate, Machine.Verb.apply, divisor, quotient_of_reciprocal, remainder_of_quotient]
  · simp [Machine.Verb.apply, divisor, quotient_of_reciprocal]

theorem perform_conversion {n : UInt64} (remainder : state.registers .rax = n % 10) :
    ∃ after, state.performAll? unspecified conversion = some after ∧
      (after.registers .rax).toUInt8 = digitByte (n.toNat % 10) ∧
      after.registers .rsi = state.registers .rcx ∧ after.registers .rcx = state.registers .rcx - 1 ∧
      Changes [.rax, .rcx, .rsi] state after := by
  have performed : state.performAll? unspecified conversion = some _ := rfl
  refine ⟨_, performed, ?_, ?_, ?_, .of_performAll performed rfl⟩
  · apply UInt8.toNat_inj.mp
    simp [Machine.Verb.apply, remainder, digitByte]
    omega
  · simp [Machine.Verb.apply]
  · simp [Machine.Verb.apply]

/-- The branch is taken if the number was more than a digit. -/
theorem perform_comparison (state : State) :
    ∃ after, state.performAll? unspecified comparison = some after ∧
      after.registers .rdi = state.registers .rdx ∧
      (after.flags.carry = false ∧ after.flags.zero = false ↔ 9 < (state.registers .rdi).toNat) ∧
      Changes [.rax, .rdi] state after := by
  have performed : state.performAll? unspecified comparison = some _ := rfl
  refine ⟨_, performed, ?_, ?_, .of_performAll performed rfl⟩
  · simp [Machine.Verb.apply]
  · have bound := (state.registers .rdi).toNat_lt
    simp [State.compute, Width.truncate, Machine.Verb.apply, Verb.flags,
      UInt64.le_iff_toNat_le, ← UInt64.toNat_inj, UInt64.toNat_sub]
    omega

theorem perform_arguments (state : State) :
    ∃ after, state.performAll? unspecified arguments = some after ∧
      after.registers .rax = 1 ∧ after.registers .rdi = 1 ∧
      after.registers .rdx = state.registers .rsp + 32 - state.registers .rsi ∧
      Changes [.rax, .rdi, .rdx] state after := by
  have performed : state.performAll? unspecified arguments = some _ := rfl
  refine ⟨_, performed, ?_, ?_, ?_, .of_performAll performed rfl⟩
  · simp [Machine.Verb.apply]
  · simp [Machine.Verb.apply]
  · simp [State.locate, Machine.Verb.apply]

/-- A vector is stored below the text without a fault. -/
theorem perform_storeVector (prepared : Prepared base entry text state) (aligned : base % 16 = 0)
    (room : entry.memory.Maps base 40) (offset : Nat) (multiple : offset % 16 = 0)
    (below : offset + 16 ≤ 32 - text.length) :
    ∃ after, state.perform? unspecified (.storeVector ⟨.rsp, none, offset⟩) = some after ∧
      Prepared base entry text after ∧ after.registers = state.registers := by
  have place : state.locate ⟨.rsp, none, offset⟩ = base + .ofNat offset := by
    simp [State.locate, prepared.stack]
  have alignedPlace : (base + .ofNat offset) % 16 = 0 := by
    have whole : base.toNat % 16 = 0 := by simpa [← UInt64.toNat_inj] using aligned
    apply UInt64.toNat_inj.mp
    simp [UInt64.toNat_add]
    omega
  refine ⟨state.stored (base + .ofNat offset) (littleEndian 16 state.vector.toNat), ?_, ?_, rfl⟩
  · rw [State.perform?, place, if_pos alignedPlace]
    apply State.store_of_maps
    rw [length_littleEndian]
    exact prepared.confined.maps (room.part (by omega))
  · apply prepared.stored
    rwa [length_littleEndian]

/-- A byte is stored in front of the text. -/
theorem perform_storeByte (prepared : Prepared base entry text state) (room : entry.memory.Maps base 40)
    {address : Address} {offset : Nat} (place : state.locate address = base + .ofNat offset)
    (adjacent : offset + 1 + text.length = 32) (source : Machine.Operand) :
    ∃ after, state.perform? unspecified (.storeByte address source) = some after ∧
      Prepared base entry ((state.value source).toUInt8 :: text) after ∧
      after.registers = state.registers := by
  refine ⟨state.stored (base + .ofNat offset) [(state.value source).toUInt8], ?_, ?_, rfl⟩
  · rw [State.perform?, place]
    apply State.store_of_maps
    exact prepared.confined.maps (room.part (by rw [List.length_singleton]; omega))
  · have single : offset + [(state.value source).toUInt8].length + text.length = 32 := adjacent
    exact prepared.put single

/-- The frame is there, with nothing in the buffer yet. -/
theorem perform_entrance (top : entry.registers .rsp = base + .ofNat 40)
    (room : entry.memory.Maps base 40) :
    ∃ after, entry.performAll? unspecified entrance = some after ∧ Prepared base entry [] after ∧
      after.registers .rdi = entry.registers .rdi ∧ after.registers .r8 = reciprocal := by
  have next : entry.registers .rsp - 8 = base + .ofNat 32 := by
    rw [top]
    grind
  have pushes := State.push_of_maps (entry.registers .rdi) (next ▸ room.part (by omega))
  obtain ⟨after, allocates, rsp, r8, changes⟩ :=
    perform_allocation unspecified (entry.pushed (entry.registers .rdi))
  have others : ∀ register, register ≠ .rsp → register ≠ .r8 →
      after.registers register = entry.registers register := by
    intro register notStack notDivisor
    rw [changes.others register (by simp [notStack, notDivisor]), State.registers_pushed_of_ne notStack]
  refine ⟨after, State.performAll_cons rfl (State.performAll_cons pushes allocates), ⟨?_, ?_, ?_, ?_, ?_, ?_⟩,
    others .rdi (by simp) (by simp), r8⟩
  · exact Nat.zero_le _
  · rw [rsp, State.registers_pushed_rsp, next]
    exact UInt64.add_sub_cancel _ _
  · intro register outside
    simp only [working, Machine.volatile, List.mem_cons, not_or] at outside
    exact others register (by tauto) (by tauto)
  · have pushed : Confined base entry (entry.pushed (entry.registers .rdi)) := by
      rw [State.pushed, next]
      apply Confined.stored
      · exact (Confined.refl base entry).changes (Changes.assign entry .rsp (base + .ofNat 32))
      · rw [length_littleEndian]
    exact pushed.changes changes
  · rw [changes.memory, ← next]
    exact State.read_pushed _
  · rfl

/-- A newline is at the end of the buffer. -/
theorem perform_initialization (prepared : Prepared base entry [] state)
    (divisor : state.registers .r8 = reciprocal) (aligned : base % 16 = 0)
    (room : entry.memory.Maps base 40) :
    ∃ after, state.performAll? unspecified initialization = some after ∧
      Looping base entry [10] after ∧ after.registers .rdi = state.registers .rdi := by
  obtain ⟨cleared, clears, preparedCleared, registersCleared⟩ :=
    perform_storeVector unspecified prepared aligned room 16 (by simp) (by simp)
  have pointed := preparedCleared.changes
    (Changes.assign cleared .rcx (cleared.locate ⟨.rsp, none, 30⟩)) (by simp [working, Machine.volatile])
  have last : State.locate (cleared.assign .rcx (cleared.locate ⟨.rsp, none, 30⟩)) ⟨.rsp, none, 31⟩ =
      base + .ofNat 31 := by
    simp [State.locate, preparedCleared.stack]
  obtain ⟨ended, ends, preparedEnded, registersEnded⟩ :=
    perform_storeByte unspecified pointed room last (by simp) (.immediate 10)
  obtain ⟨after, finishes, preparedAfter, registersAfter⟩ :=
    perform_storeVector unspecified preparedEnded aligned room 0 (by simp) (by simp)
  have others : ∀ register, register ≠ .rcx → after.registers register = state.registers register := by
    intro register other
    rw [registersAfter, registersEnded, State.registers_assign_of_ne other, registersCleared]
  refine ⟨after, ?_, ⟨preparedAfter, ?_, ?_⟩, others .rdi (by simp)⟩
  · exact State.performAll_cons clears (State.performAll_cons rfl
      (State.performAll_cons ends (State.performAll_cons finishes rfl)))
  · rw [others .r8 (by simp), divisor]
  · rw [registersAfter, registersEnded, State.registers_assign_self]
    simp [State.locate, preparedCleared.stack]

/-- One round of the loop puts the last digit in front of the text. -/
theorem perform_round (looping : Looping base entry text state) (room : entry.memory.Maps base 40)
    (short : text.length < 31) :
    ∃ after, state.performAll? unspecified round = some after ∧
      Looping base entry (digitByte ((state.registers .rdi).toNat % 10) :: text) after ∧
      after.registers .rdi = state.registers .rdi / 10 ∧
      after.registers .rsi = base + .ofNat (31 - text.length) ∧
      (after.flags.carry = false ∧ after.flags.zero = false ↔ 9 < (state.registers .rdi).toNat) := by
  obtain ⟨divided, divides, rax, rdx, changesDivided⟩ := perform_division unspecified looping.divisor
  obtain ⟨converted, converts, digit, rsi, rcx, changesConverted⟩ := perform_conversion unspecified rax
  have pointer : divided.registers .rcx = base + .ofNat (31 - text.length) := by
    rw [changesDivided.others .rcx (by simp), looping.cursor]
  have place : converted.locate ⟨.rcx, none, 1⟩ = base + .ofNat (31 - text.length) := by
    simp [State.locate, rcx, pointer]
  have preparedConverted : Prepared base entry text converted :=
    (looping.toPrepared.changes changesDivided (by simp [working, Machine.volatile])).changes changesConverted
      (by simp [working, Machine.volatile])
  obtain ⟨stored, stores, preparedStored, registersStored⟩ :=
    perform_storeByte unspecified preparedConverted room place (by omega) (.register .rax)
  rw [State.value, digit] at preparedStored
  obtain ⟨after, compares, rdi, above, changesAfter⟩ := perform_comparison unspecified stored
  rw [registersStored] at rdi above
  have keptRdi : converted.registers .rdi = state.registers .rdi := by
    rw [changesConverted.others .rdi (by simp), changesDivided.others .rdi (by simp)]
  refine ⟨after, ?_, ⟨?_, ?_, ?_⟩, ?_, ?_, ?_⟩
  · exact State.performAll_append divides
      (State.performAll_append converts (State.performAll_cons stores compares))
  · exact preparedStored.changes changesAfter (by simp [working, Machine.volatile])
  · rw [changesAfter.others .r8 (by simp), registersStored, changesConverted.others .r8 (by simp),
      changesDivided.others .r8 (by simp), looping.divisor]
  · have next : 31 - text.length = 31 - (text.length + 1) + 1 := by omega
    rw [changesAfter.others .rcx (by simp), registersStored, rcx, pointer, next, UInt64.ofNat_add,
      ← UInt64.add_assoc]
    exact UInt64.add_sub_cancel _ _
  · rw [rdi, changesConverted.others .rdx (by simp), rdx]
  · rw [changesAfter.others .rsi (by simp), registersStored, rsi, pointer]
  · rw [above, keptRdi]

/-- The text is written. -/
theorem perform_write (prepared : Prepared base entry text state) (room : entry.memory.Maps base 40)
    (start : state.registers .rsi = base + .ofNat (32 - text.length)) :
    ∃ after, state.performAll? unspecified (arguments ++ [.systemCall]) = some after ∧
      after.registers .rsp = base ∧
      (∀ register ∉ .rsp :: working, after.registers register = entry.registers register) ∧
      after.memory = state.memory ∧ after.events = state.events ++ [.write 1 text] := by
  obtain ⟨called, loads, rax, rdi, rdx, changes⟩ := perform_arguments unspecified state
  have preparedCalled := prepared.changes changes (by simp [working, Machine.volatile])
  have startCalled : called.registers .rsi = base + .ofNat (32 - text.length) := by
    rw [changes.others .rsi (by simp), start]
  have fits := prepared.fits
  have length : (called.registers .rdx).toNat = text.length := by
    have whole : (32 : UInt64) = .ofNat (32 - text.length) + .ofNat text.length := by
      rw [← UInt64.ofNat_add, Nat.sub_add_cancel fits]
      rfl
    have difference : called.registers .rdx = .ofNat text.length := by
      rw [rdx, prepared.stack, start, whole]
      grind
    rw [difference]
    exact UInt64.toNat_ofNat_of_lt' (by rw [UInt64.size]; omega)
  have maps : called.memory.Maps (called.registers .rsi) (called.registers .rdx).toNat := by
    rw [startCalled, length]
    exact preparedCalled.confined.maps (room.part (by omega))
  have writes := State.perform_systemCall unspecified rax maps
  rw [startCalled, length, preparedCalled.buffer] at writes
  refine ⟨called.written unspecified text, ?_, ?_, ?_, changes.memory, ?_⟩
  · exact State.performAll_append loads (State.performAll_cons writes rfl)
  · rw [State.registers_written (by simp), preparedCalled.stack]
  · intro register outside
    have other : register ∉ [.rax, .rcx, .r11] := by
      simp only [working, Machine.volatile, List.mem_cons, List.not_mem_nil, or_false, not_or] at outside ⊢
      tauto
    rw [State.registers_written other, preparedCalled.kept register outside]
  · calc (called.written unspecified text).events
        = called.events ++ [.write (called.registers .rdi) text] := rfl
      _ = state.events ++ [.write 1 text] := by rw [changes.events, rdi]

/-- The frame is taken down, and the accumulator is what was saved. -/
theorem perform_release {word : UInt64} (stack : state.registers .rsp = base)
    (maps : state.memory.Maps (base + .ofNat 32) 8)
    (saved : state.memory.read (base + .ofNat 32) 8 = littleEndian 8 word.toNat) :
    ∃ after, state.performAll? unspecified release = some after ∧ after.registers .rdi = word ∧
      after.registers .rsp = base + .ofNat 40 ∧ Changes [.rsp, .rdi] state after := by
  have lifts : state.perform? unspecified (.compute .quad .add .rsp (.immediate 32)) =
      some (state.compute .quad .add .rsp 32) := rfl
  have top : (state.compute .quad .add .rsp 32).registers .rsp = base + .ofNat 32 := by
    simp [Machine.Verb.apply, stack]
  have mapsTop : (state.compute .quad .add .rsp 32).memory.Maps
      ((state.compute .quad .add .rsp 32).registers .rsp) 8 := by
    rw [top]
    exact maps
  have pops : (state.compute .quad .add .rsp 32).pop? =
      some (word, (state.compute .quad .add .rsp 32).assign .rsp (base + .ofNat 40)) := by
    have read : (state.compute .quad .add .rsp 32).memory.read (base + .ofNat 32) 8 =
        littleEndian 8 word.toNat := saved
    rw [State.pop_of_maps mapsTop, top, read, wordOf_littleEndian, UInt64.add_assoc]
    rfl
  refine ⟨((state.compute .quad .add .rsp 32).assign .rsp (base + .ofNat 40)).assign .rdi word, ?_, ?_, ?_,
    ?_, rfl, rfl⟩
  · refine State.performAll_cons lifts (State.performAll_cons ?_ rfl)
    rw [State.perform?, pops, Option.map_some]
  · exact State.registers_assign_self _ _
  · rw [State.registers_assign_of_ne (by simp), State.registers_assign_self]
  · intro register outside
    simp only [List.mem_cons, List.not_mem_nil, or_false, not_or] at outside
    simp [outside]

/-- The text is written, and the frame is taken down. -/
theorem perform_output (prepared : Prepared base entry text state) (room : entry.memory.Maps base 40)
    (start : state.registers .rsi = base + .ofNat (32 - text.length)) :
    ∃ after, state.performAll? unspecified output = some after ∧
      after.registers .rdi = entry.registers .rdi ∧ after.registers .rsp = base + .ofNat 40 ∧
      (∀ register ∉ .rsp :: working, after.registers register = entry.registers register) ∧
      after.memory = state.memory ∧ after.events = state.events ++ [.write 1 text] := by
  obtain ⟨written, writes, stack, kept, memory, events⟩ := perform_write unspecified prepared room start
  have maps : written.memory.Maps (base + .ofNat 32) 8 := by
    rw [memory]
    exact prepared.confined.maps (room.part (by omega))
  obtain ⟨after, releases, rdi, rsp, changes⟩ :=
    perform_release unspecified stack maps (by rw [memory, prepared.saved])
  refine ⟨after, State.performAll_append writes releases, rdi, rsp, ?_, ?_, ?_⟩
  · intro register outside
    have other : register ∉ [.rsp, .rdi] := by
      simp only [working, List.mem_cons, List.not_mem_nil, or_false, not_or] at outside ⊢
      exact ⟨outside.1, outside.2.1⟩
    rw [changes.others register other, kept register outside]
  · rw [changes.memory, memory]
  · rw [changes.events, events]

end

end ArithAsm.Processor
