import ArithAsm.Proofs.Refusals
import Mathlib.Data.List.Basic

/-! What a destination with limited room keeps of an assembly. Buffers count bytes and
listings count lines, but both keep what fits, refuse a line of which not all does, and
so end up with the front of the whole output, cut nowhere but at their capacity. No line
holds a newline, so the text of a listing can be cut into its lines again. -/
namespace ArithAsm

/-! ## Sinks that keep what fits -/

/-- A line comes to some `units`, of which the sink has room for `capacity`. What fits of
a line is kept, and it is refused for `cause` unless all of it fits; `holding` is the
condition of the sink for what it has kept. -/
def Sink.KeepsUpTo {σ α : Type} (sink : Sink σ) (capacity : Nat) (cause : IoError)
    (units : String → List α) (holding : List α → σ) : Prop :=
  ∀ held line, held.length ≤ capacity →
    sink.offer (holding held) line = (holding ((held ++ units line).take capacity),
      if (held ++ units line).length ≤ capacity then none else some cause)

namespace Sink.KeepsUpTo
variable {σ α : Type} {sink : Sink σ} {capacity : Nat} {cause : IoError} {units : String → List α}
  {holding : List α → σ}

/-- Of lines that are fed in a row the front is kept that fits. -/
theorem feed (keeps : sink.KeepsUpTo capacity cause units holding) (held : List α) (lines : List Line)
    (room : held.length ≤ capacity) :
    (sink.feed (holding held) lines).state =
        holding ((held ++ (lines.map Line.text).flatMap units).take capacity) ∧
      (sink.feed (holding held) lines).refusal =
        if (held ++ (lines.map Line.text).flatMap units).length ≤ capacity then none else some cause := by
  induction lines generalizing held with
  | nil => simp [Sink.feed, room, List.take_of_length_le room]
  | cons line rest ih =>
    rw [List.map_cons, List.flatMap_cons, ← List.append_assoc]
    by_cases fits : (held ++ units line.text).length ≤ capacity
    · have offer := keeps held line.text room
      rw [if_pos fits, List.take_of_length_le fits] at offer
      simpa [Sink.feed, offer] using ih _ fits
    · -- The rest is never offered, and none of it would have been kept.
      have offer := keeps held line.text room
      rw [if_neg fits] at offer
      have front : ((held ++ units line.text) ++ (rest.map Line.text).flatMap units).take capacity =
          (held ++ units line.text).take capacity :=
        List.take_append_of_le_length (Nat.le_of_not_le fits)
      have beyond : ¬ ((held ++ units line.text) ++ (rest.map Line.text).flatMap units).length ≤
          capacity := by
        rw [List.length_append]
        omega
      rw [front, if_neg beyond]
      simp [Sink.feed, offer]

/-- Compiled into a sink that keeps what fits, an assembly is cut at the capacity, and it
is reported whether all of it was kept. -/
theorem compile (keeps : sink.KeepsUpTo capacity cause units holding) {source : Bytes}
    {program : Program} (parsed : parse source = .ok program) :
    (compile sink (holding []) source).state =
        holding (((program.assembly.map Line.text).flatMap units).take capacity) ∧
      (compile sink (holding []) source).result =
        if capacity < ((program.assembly.map Line.text).flatMap units).length then .error (.emit cause)
        else .ok ⟨(program.lines.map Line.text).toArray⟩ := by
  obtain ⟨state, refusal⟩ := keeps.feed [] program.assembly (Nat.zero_le capacity)
  rw [List.nil_append] at state refusal
  simp only [ArithAsm.compile, parsed, emit_eq_feed, state, refusal, true_and]
  by_cases fits : ((program.assembly.map Line.text).flatMap units).length ≤ capacity
  · rw [if_pos fits, if_neg (Nat.not_lt.mpr fits)]
  · rw [if_neg fits, if_pos (Nat.lt_of_not_le fits)]

end Sink.KeepsUpTo

/-! ## Buffers and listings -/

/-- A write stores what fits. -/
theorem Buffer.write_eq {capacity : Nat} {stored : Bytes} (room : stored.length ≤ capacity)
    (bytes : Bytes) :
    Buffer.write ⟨some capacity, stored.toArray⟩ bytes =
      (⟨some capacity, ((stored ++ bytes).take capacity).toArray⟩,
        if (stored ++ bytes).length ≤ capacity then none else some .shortWrite) := by
  have front : (stored ++ bytes).take capacity = stored ++ bytes.take (capacity - stored.length) := by
    rw [List.take_append, List.take_of_length_le room]
  have fits : bytes.length ≤ capacity - stored.length ↔ stored.length + bytes.length ≤ capacity := by
    omega
  simp [Buffer.write, front, fits]

/-- A buffer counts bytes, and a line comes to its own and a newline. -/
theorem buffer_keepsUpTo (capacity : Nat) :
    Buffer.sink.KeepsUpTo capacity .shortWrite (fun line => Utf8.encode line ++ [Byte.newline])
      (fun stored => ⟨some capacity, stored.toArray⟩) := by
  intro held line room
  rw [← List.append_assoc]
  simp only [Buffer.sink, Sink.ofWriter, Buffer.write_eq room]
  by_cases fits : (held ++ Utf8.encode line).length ≤ capacity
  · rw [if_pos fits, List.take_of_length_le fits]
    exact Buffer.write_eq fits [Byte.newline]
  · have front : ((held ++ Utf8.encode line) ++ [Byte.newline]).take capacity =
        (held ++ Utf8.encode line).take capacity :=
      List.take_append_of_le_length (Nat.le_of_not_le fits)
    have beyond : ¬ ((held ++ Utf8.encode line) ++ [Byte.newline]).length ≤ capacity := by
      rw [List.length_append]
      omega
    rw [if_neg fits, if_neg beyond, front]

/-- A listing counts lines. -/
theorem listing_keepsUpTo (capacity : Nat) :
    (Listing.sinkUpTo capacity).KeepsUpTo capacity (.other "sink full") (fun line => [line])
      (fun lines => ⟨lines.toArray⟩) := by
  intro held line room
  by_cases fits : held.length < capacity
  · have room : (held ++ [line]).length ≤ capacity := by
      rw [List.length_append]
      exact fits
    rw [if_pos room, List.take_of_length_le room]
    simp [Listing.sinkUpTo, Listing.length, Listing.push, fits]
  · have full : (held ++ [line]).take capacity = held := List.take_left' (by omega)
    have beyond : ¬ (held ++ [line]).length ≤ capacity := by
      rw [List.length_append]
      exact fits
    rw [if_neg beyond, full]
    simp [Listing.sinkUpTo, Listing.length, fits]

/-! ## Lines without newlines -/

theorem newline_notMem_toDigits (n : Nat) : '\n' ∉ Nat.toDigits 10 n := by
  intro member
  have digit := Nat.isDigit_of_mem_toDigits (by decide) (by decide) member
  simp at digit

/-- Only a line that is the same in every program has a text of its own choice. -/
theorem Line.newline_notMem_text {line : Line} (own : ∀ text, line ≠ .fixed text) :
    '\n' ∉ line.text.toList := by
  cases line with
  | fixed text => exact absurd rfl (own text)
  | load value => simp [text, toString, accumulator, newline_notMem_toDigits]
  | stage value => simp [text, toString, scratch, newline_notMem_toDigits]
  | combine operation value =>
    cases operation <;> simp [text, toString, accumulator, Operation.mnemonic, newline_notMem_toDigits]
  | combineStaged operation =>
    cases operation <;> simp [text, toString, accumulator, scratch, Operation.mnemonic]
  | operatorRemark operation => cases operation <;> simp [text, toString, Operation.remark]
  | dumpRemark | callDump => simp [text]

theorem Literal.combineLines_own (operation : Operation) (terms : List Literal) :
    ∀ line ∈ terms.flatMap (Literal.combineLines operation), ∀ text, line ≠ .fixed text := by
  intro line member text
  obtain ⟨term, -, combines⟩ := List.mem_flatMap.mp member
  rw [Literal.combineLines] at combines
  split at combines <;> rintro rfl <;> simp at combines

mutual

theorem Form.lines_own : (form : Form) → ∀ line ∈ form.lines, ∀ text, line ≠ .fixed text
  | .literal number => by simp [Form.lines]
  | .group _ members => Program.lines_own members
  | .dump argument => by
    simpa [Form.lines, or_imp, forall_and] using argument.lines_own
  | .add terms => by
    simpa [Form.lines] using Literal.combineLines_own .add terms
  | .sub seed terms => by
    simpa [Form.lines] using Literal.combineLines_own .sub terms

theorem Program.lines_own : (program : Program) → ∀ line ∈ program.lines, ∀ text, line ≠ .fixed text
  | [] => by simp [Program.lines]
  | form :: rest => by
    simpa [Program.lines, or_imp, forall_and] using ⟨form.lines_own, Program.lines_own rest⟩

end

/-- No line of an assembly holds a newline. -/
theorem Program.newline_notMem_assembly (program : Program) :
    ∀ text ∈ program.assembly.map Line.text, '\n' ∉ text.toList := by
  have opening : ∀ text ∈ prologue.map Line.text, '\n' ∉ text.toList := by decide +kernel
  have closing : ∀ text ∈ epilogue.map Line.text, '\n' ∉ text.toList := by decide +kernel
  intro text member
  rw [Program.assembly, List.map_append, List.map_append, List.mem_append, List.mem_append] at member
  rcases member with (early | own) | late
  · exact opening text early
  · obtain ⟨line, within, rfl⟩ := List.mem_map.mp own
    exact Line.newline_notMem_text (program.lines_own line within)
  · exact closing text late

/-! ## Texts of listings -/

/-- Cut at its newlines, a text falls into its lines and nothing behind the last. -/
theorem splitOn_newline {lines : List String} (whole : ∀ line ∈ lines, '\n' ∉ line.toList) :
    (String.join (lines.map (· ++ "\n"))).toList.splitOn '\n' = lines.map String.toList ++ [[]] := by
  induction lines with
  | nil => rfl
  | cons line rest ih =>
    obtain ⟨first, others⟩ := List.forall_mem_cons.mp whole
    have front : (String.join ((line :: rest).map (· ++ "\n"))).toList =
        line.toList ++ '\n' :: (String.join (rest.map (· ++ "\n"))).toList := by
      simp [String.join_cons]
    rw [front, List.splitOn_append_cons_self_of_not_mem first, ih others, List.map_cons, List.cons_append]

/-- A source that compiles is written into a buffer of any capacity up to that many bytes
of the text of its listing, and into a listing of any capacity up to that many of its
lines; compiling succeeds exactly if there is room for all. The text falls into the lines
of the listing at its newlines, since no line holds one. -/
theorem full_output_is_cut_at_capacity {source : Bytes} {core : Listing}
    (accepted : (compile Listing.sink .empty source).result = .ok core) :
    let listing := (compile Listing.sink .empty source).state
    let text := Utf8.encode listing.text
    (∀ capacity : Nat,
      let written := compile Buffer.sink ⟨some capacity, #[]⟩ source
      written.state.stored.toList = text.take capacity ∧
        written.result = if capacity < text.length then .error (.emit .shortWrite) else .ok core) ∧
    (∀ capacity : Nat,
      let kept := compile (Listing.sinkUpTo capacity) .empty source
      kept.state.lines.toList = listing.lines.toList.take capacity ∧
        kept.result =
          if capacity < listing.length then .error (.emit (.other "sink full")) else .ok core) ∧
    (∀ line ∈ listing.lines, '\n' ∉ line.toList) ∧
    listing.text.toList.splitOn '\n' = listing.lines.toList.map String.toList ++ [[]] := by
  intro listing text
  obtain ⟨program, parsed, -⟩ := core_of_compile accepted
  obtain ⟨lines, result⟩ := compile_to_listing parsed
  have copied : core = ⟨(program.lines.map Line.text).toArray⟩ :=
    Except.ok.inj (accepted.symm.trans result)
  have unbroken : ∀ line ∈ listing.lines.toList, '\n' ∉ line.toList := by
    rw [show listing.lines.toList = _ from lines]
    exact program.newline_notMem_assembly
  refine ⟨fun capacity => ?_, fun capacity => ?_, by simpa using unbroken, splitOn_newline unbroken⟩
  · obtain ⟨stored, outcome⟩ := (buffer_keepsUpTo capacity).compile parsed
    have bytes : text = (program.assembly.map Line.text).flatMap _ :=
      listing.encode_text.trans (congrArg _ lines)
    exact ⟨by rw [stored, bytes], by rw [outcome, bytes, copied]⟩
  · obtain ⟨stored, outcome⟩ := (listing_keepsUpTo capacity).compile parsed
    have count : listing.length = (program.assembly.map Line.text).length := by
      rw [← lines, Array.length_toList, Listing.length]
    rw [List.flatMap_singleton', ← lines] at stored
    rw [List.flatMap_singleton', ← count, ← copied] at outcome
    exact ⟨congrArg (·.lines.toList) stored, outcome⟩

/-- Twenty bytes of room end in the middle of the second line. -/
theorem small_buffer_ends_inside_line :
    (∃ core, (compile Listing.sink .empty (Utf8.encode "dump 7")).result = .ok core) ∧
      (compile Buffer.sink ⟨some 20, #[]⟩ (Utf8.encode "dump 7")).state.stored.toList =
        Utf8.encode "section .text\nglobal" ∧
      (compile Buffer.sink ⟨some 20, #[]⟩ (Utf8.encode "dump 7")).result = .error (.emit .shortWrite) := by
  have parsed : parse (Utf8.encode "dump 7") = .ok [.dump (.literal ⟨7, ⟨5, 6⟩⟩)] := by
    rw [parse, read, show tokens (Utf8.encode "dump 7") =
      [⟨.word (Utf8.encode "dump"), 0⟩, ⟨.numeral [0x37], 5⟩] by decide +kernel]
    rfl
  have accepted := (compile_to_listing parsed).2
  have text : Utf8.encode (compile Listing.sink .empty (Utf8.encode "dump 7")).state.text =
      (Program.assembly [.dump (.literal ⟨7, ⟨5, 6⟩⟩)]).flatMap fun line =>
        Utf8.encode line.text ++ [Byte.newline] := by
    rw [Listing.encode_text, (compile_to_listing parsed).1, List.flatMap_map]
  obtain ⟨written, -⟩ := full_output_is_cut_at_capacity accepted
  obtain ⟨stored, result⟩ := written 20
  rw [text] at stored result
  have front : ((Program.assembly [.dump (.literal ⟨7, ⟨5, 6⟩⟩)]).flatMap fun line =>
      Utf8.encode line.text ++ [Byte.newline]).take 21 = Utf8.encode "section .text\nglobal " := by
    decide +kernel
  have long := congrArg List.length front
  rw [List.length_take, show (Utf8.encode "section .text\nglobal ").length = 21 by decide +kernel] at long
  refine ⟨⟨_, accepted⟩, stored.trans ?_, result.trans (if_pos (by omega))⟩
  rw [show 20 = min 20 21 from rfl, ← List.take_take, front]
  decide +kernel

end ArithAsm
