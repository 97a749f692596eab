import ArithAsm.Proofs.DumpRoutine.Digits
import ArithAsm.Proofs.Machine.Run
import ArithAsm.Proofs.Processor.Run

/-! The frame of the print routine: the 40 bytes below the return address. The upper 8 hold
the accumulator, and the others are a buffer that is filled from its end. Places in it are
given by their distance from its beginning. -/
namespace ArithAsm.Processor
open Machine (Register)

section
variable {base place : UInt64} {offset start count : Nat} {bytes : Bytes}

/-- How far a place in the frame is from its beginning. -/
theorem distance_of_offset (base : UInt64) (small : offset < 2 ^ 64) :
    (base + .ofNat offset - base).toNat = offset := by
  rw [UInt64.add_comm, UInt64.add_sub_cancel, UInt64.toNat_ofNat_of_lt' small]

theorem distance_sub (behind : offset ≤ (place - base).toNat) :
    (place - (base + .ofNat offset)).toNat = (place - base).toNat - offset := by
  have small : offset < 2 ^ 64 := Nat.lt_of_le_of_lt behind (place - base).toNat_lt
  have split : place - (base + .ofNat offset) = place - base - .ofNat offset := by grind
  have below : UInt64.ofNat offset ≤ place - base := by
    rwa [UInt64.le_iff_toNat_le, UInt64.toNat_ofNat_of_lt' small]
  rw [split, UInt64.toNat_sub_of_le _ _ below, UInt64.toNat_ofNat_of_lt' small]

/-- What is written further down in the frame does not matter. -/
theorem read_write_below (memory : Memory) (below : offset + bytes.length ≤ start)
    (bound : start + count ≤ 2 ^ 64) :
    (memory.write (base + .ofNat offset) bytes).read (base + .ofNat start) count =
      memory.read (base + .ofNat start) count := by
  apply Memory.read_write_of_le
  intro index within
  have distance : (base + .ofNat start + .ofNat index - base).toNat = start + index := by
    rw [UInt64.add_assoc, ← UInt64.ofNat_add]
    exact distance_of_offset base (by omega)
  rw [distance_sub (by omega), distance]
  omega

end

/-- From `state` to `after`, nothing but these registers, flags and the vector change. -/
structure Changes (registers : List Register) (state after : State) : Prop where
  others : ∀ register ∉ registers, after.registers register = state.registers register
  memory : after.memory = state.memory
  events : after.events = state.events

/-- Whether the instruction does no more than compute into these registers. -/
def Instruction.computesIn (registers : List Register) : Instruction → Bool
  | .skip | .compare _ _ | .clearVector => true
  | .compute _ _ target _ | .shiftRight target _ | .loadAddress target _ => target ∈ registers
  | .multiply _ => .rax ∈ registers ∧ .rdx ∈ registers
  | .storeByte _ _ | .storeVector _ | .push _ | .pop _ | .systemCall | .jumpAbove _ | .leave => false

namespace Changes
variable {registers : List Register} {state middle after : State}

theorem refl (registers : List Register) (state : State) : Changes registers state state :=
  ⟨fun _ _ => rfl, rfl, rfl⟩

theorem assign (state : State) (target : Register) (value : UInt64) :
    Changes [target] state (state.assign target value) := by
  refine ⟨?_, rfl, rfl⟩
  intro register other
  exact State.registers_assign_of_ne (List.mem_singleton.not.mp other) value

theorem trans (first : Changes registers state middle) (second : Changes registers middle after) :
    Changes registers state after where
  others register outside := (second.others register outside).trans (first.others register outside)
  memory := second.memory.trans first.memory
  events := second.events.trans first.events

theorem of_perform {unspecified : Unspecified} {instruction : Instruction}
    (performed : state.perform? unspecified instruction = some after)
    (computes : instruction.computesIn registers) : Changes registers state after := by
  have apart {target register : Register} (inside : target ∈ registers) (outside : register ∉ registers) :
      register ≠ target := by
    rintro rfl
    exact outside inside
  cases instruction with
  | skip | compare | clearVector =>
    obtain rfl := Option.some.inj performed
    exact ⟨fun _ _ => rfl, rfl, rfl⟩
  | compute width verb target operand =>
    obtain rfl := Option.some.inj performed
    have inside : target ∈ registers := by simpa [Instruction.computesIn] using computes
    exact ⟨fun _ outside => State.registers_compute_of_ne (apart inside outside) _ _ _, rfl, rfl⟩
  | shiftRight target count =>
    obtain rfl := Option.some.inj performed
    have inside : target ∈ registers := by simpa [Instruction.computesIn] using computes
    exact ⟨fun _ outside => State.registers_shiftRight_of_ne (apart inside outside) _, rfl, rfl⟩
  | loadAddress target address =>
    obtain rfl := Option.some.inj performed
    have inside : target ∈ registers := by simpa [Instruction.computesIn] using computes
    exact ⟨fun _ outside => State.registers_assign_of_ne (apart inside outside) _, rfl, rfl⟩
  | multiply factor =>
    obtain rfl := Option.some.inj performed
    have inside : .rax ∈ registers ∧ .rdx ∈ registers := by simpa [Instruction.computesIn] using computes
    exact ⟨fun _ outside => State.registers_multiply_of_ne (apart inside.1 outside) (apart inside.2 outside) _ _,
      rfl, rfl⟩
  | storeByte | storeVector | push | pop | systemCall | jumpAbove | leave => cases computes

/-- Instructions that only compute change nothing but registers. -/
theorem of_performAll {unspecified : Unspecified} {instructions : List Instruction}
    (performed : state.performAll? unspecified instructions = some after)
    (computes : instructions.all (Instruction.computesIn registers)) : Changes registers state after := by
  induction instructions generalizing state with
  | nil =>
    obtain rfl := Option.some.inj performed
    exact .refl _ _
  | cons instruction rest ih =>
    obtain ⟨next, first, others⟩ := Option.bind_eq_some_iff.mp performed
    rw [List.all_cons, Bool.and_eq_true] at computes
    exact (of_perform first computes.1).trans (ih others computes.2)

end Changes

/-- From `entry` to `state`, only bytes of the frame were stored, and nothing else was done
to the outside. -/
structure Confined (base : UInt64) (entry state : State) : Prop where
  mapped : state.memory.mapped = entry.memory.mapped
  /-- What is not in the frame is as it was. -/
  intact : ∀ place, 40 ≤ (place - base).toNat → state.memory.byte place = entry.memory.byte place
  events : ∃ places : List UInt64, state.events = entry.events ++ places.map .store ∧
    ∀ place ∈ places, (place - base).toNat < 40

namespace Confined
variable {base : UInt64} {entry state after : State}

theorem refl (base : UInt64) (entry : State) : Confined base entry entry :=
  ⟨rfl, fun _ _ => rfl, [], by simp, by simp⟩

theorem changes {registers : List Register} (confined : Confined base entry state)
    (changes : Changes registers state after) : Confined base entry after := by
  refine ⟨?_, ?_, ?_⟩
  · rw [changes.memory, confined.mapped]
  · rw [changes.memory]
    exact confined.intact
  · rw [changes.events]
    exact confined.events

/-- One more store inside of the frame. -/
theorem stored (confined : Confined base entry state) {offset : Nat} {bytes : Bytes}
    (inside : offset + bytes.length ≤ 40) :
    Confined base entry (state.stored (base + .ofNat offset) bytes) := by
  refine ⟨confined.mapped, ?_, ?_⟩
  · intro place outside
    have elsewhere : bytes.length ≤ (place - (base + .ofNat offset)).toNat := by
      rw [distance_sub (by omega)]
      omega
    exact (Memory.byte_write_of_le elsewhere).trans (confined.intact place outside)
  · obtain ⟨places, events, within⟩ := confined.events
    refine ⟨places ++ (List.range bytes.length).map fun index => base + .ofNat offset + .ofNat index, ?_, ?_⟩
    · rw [State.stored, events, List.map_append, List.map_map, List.append_assoc]
      rfl
    · intro place member
      rcases List.mem_append.mp member with earlier | new
      · exact within place earlier
      · obtain ⟨index, bound, rfl⟩ := List.mem_map.mp new
        have below := List.mem_range.mp bound
        rw [UInt64.add_assoc, ← UInt64.ofNat_add, distance_of_offset base (by omega)]
        omega

/-- What the caller has mapped can be used. -/
theorem maps {start : UInt64} {count : Nat} (confined : Confined base entry state)
    (maps : entry.memory.Maps start count) : state.memory.Maps start count := by
  intro index within
  rw [confined.mapped]
  exact maps index within

end Confined

/-- The registers that the routine computes in. -/
def working : List Register :=
  .rdi :: Machine.volatile

/-- In the middle of the routine, with `text` at the end of the buffer. -/
structure Prepared (base : UInt64) (entry : State) (text : Bytes) (state : State) : Prop where
  fits : text.length ≤ 32
  stack : state.registers .rsp = base
  kept : ∀ register ∉ .rsp :: working, state.registers register = entry.registers register
  confined : Confined base entry state
  saved : state.memory.read (base + .ofNat 32) 8 = littleEndian 8 (entry.registers .rdi).toNat
  buffer : state.memory.read (base + .ofNat (32 - text.length)) text.length = text

namespace Prepared
variable {base : UInt64} {entry state after : State} {text bytes : Bytes} {offset : Nat}

theorem changes {registers : List Register} (prepared : Prepared base entry text state)
    (changes : Changes registers state after) (few : registers ⊆ working) :
    Prepared base entry text after where
  fits := prepared.fits
  stack := by
    have outside : Register.rsp ∉ registers := by
      intro member
      simpa [working, Machine.volatile] using few member
    rw [changes.others .rsp outside, prepared.stack]
  kept := by
    intro register outside
    have other : register ∉ registers := fun member => outside (List.mem_cons_of_mem _ (few member))
    rw [changes.others register other, prepared.kept register outside]
  confined := prepared.confined.changes changes
  saved := by rw [changes.memory, prepared.saved]
  buffer := by rw [changes.memory, prepared.buffer]

/-- What is stored below the text leaves it as it is. -/
theorem stored (prepared : Prepared base entry text state)
    (below : offset + bytes.length ≤ 32 - text.length) :
    Prepared base entry text (state.stored (base + .ofNat offset) bytes) where
  fits := prepared.fits
  stack := prepared.stack
  kept := prepared.kept
  confined := prepared.confined.stored (by omega)
  saved := by
    rw [State.memory_stored, read_write_below _ (by omega) (by omega), prepared.saved]
  buffer := by
    have fits := prepared.fits
    rw [State.memory_stored, read_write_below _ below (by omega), prepared.buffer]

/-- What is stored directly below the text becomes part of it. -/
theorem put (prepared : Prepared base entry text state) (adjacent : offset + bytes.length + text.length = 32) :
    Prepared base entry (bytes ++ text) (state.stored (base + .ofNat offset) bytes) where
  fits := by
    rw [List.length_append]
    omega
  stack := prepared.stack
  kept := prepared.kept
  confined := prepared.confined.stored (by omega)
  saved := (prepared.stored (by omega)).saved
  buffer := by
    have start : 32 - (bytes ++ text).length = offset := by
      rw [List.length_append]
      omega
    have behind : base + .ofNat offset + .ofNat bytes.length = base + .ofNat (32 - text.length) := by
      rw [UInt64.add_assoc, ← UInt64.ofNat_add, show offset + bytes.length = 32 - text.length by omega]
    have fits : bytes.length < UInt64.size := by
      rw [UInt64.size]
      omega
    rw [start, List.length_append, Memory.read_add, behind, (prepared.stored (by omega)).buffer,
      State.memory_stored, Memory.read_write_self _ _ fits]

end Prepared

/-- At the head of the loop, about to put a further digit in front of the text. -/
structure Looping (base : UInt64) (entry : State) (text : Bytes) (state : State) : Prop
    extends Prepared base entry text state where
  divisor : state.registers .r8 = reciprocal
  cursor : state.registers .rcx = base + .ofNat (31 - text.length)

end ArithAsm.Processor
