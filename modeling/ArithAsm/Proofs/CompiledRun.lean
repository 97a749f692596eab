import ArithAsm.Proofs.Feeding
import ArithAsm.Proofs.Machine.Run
import ArithAsm.Proofs.Meaning

/-! Running a compiled program. Every line of an assembly from the entry point
on can be decoded, and whatever the print routine leaves in the registers that
it may destroy, the process prints what the program means and ends with status
zero. The proof follows the forms: the lines of each take a process that has
evaluated as far as `state` to one that has evaluated the form as well. -/
namespace ArithAsm
open Machine Machine.Process Machine.Instruction

/-! ## Decoding the lines of a program -/

/-- The verb that carries an operation out. -/
def Operation.verb : Operation → Verb
  | add => .add
  | sub => .subtract

private theorem decode_immediate {verb : Verb} {target : Register} {value : UInt64}
    (encodable : verb.carries (.immediate value)) :
    decode? ("\t" ++ verb.name ++ " " ++ target.name ++ ", " ++ value.toNat.repr) =
      some (.compute verb target (.immediate value)) :=
  decode_compute (repr_plain _) (repr_ne_nil _) (operand_of_repr value) encodable

theorem decode_load (value : UInt64) :
    decode? (Line.load value).text = some (.compute .move .rdi (.immediate value)) := by
  rw [← decode_immediate rfl]
  rfl

theorem decode_stage (value : UInt64) :
    decode? (Line.stage value).text = some (.compute .move .rax (.immediate value)) := by
  rw [← decode_immediate rfl]
  rfl

/-- An operand that is not staged fits the instruction that carries it. -/
theorem decode_combine (operation : Operation) {value : UInt64} (narrow : value ≤ maxImmediate) :
    decode? (Line.combine operation value).text =
      some (.compute operation.verb .rdi (.immediate value)) := by
  have encodable : operation.verb.carries (.immediate value) := by
    have bound : value.toNat ≤ 2147483647 := UInt64.le_iff_toNat_le.mp narrow
    cases operation <;> simpa [Operation.verb, Verb.carries] using bound
  rw [← decode_immediate encodable]
  cases operation <;> rfl

theorem decode_combineStaged (operation : Operation) :
    decode? (Line.combineStaged operation).text =
      some (.compute operation.verb .rdi (.register .rax)) := by
  cases operation <;> decide +kernel

theorem decode_operatorRemark (operation : Operation) :
    decode? (Line.operatorRemark operation).text = some .skip := by
  cases operation <;> decide +kernel

theorem decode_dumpRemark : decode? Line.dumpRemark.text = some .skip := by decide +kernel

theorem decode_callDump : decode? Line.callDump.text = some (.call "dump") := by decide +kernel

theorem decode_clear : decode? "\txor rdi, rdi" = some (.compute .xor .rdi (.register .rdi)) := by
  decide +kernel

/-! ## Single lines -/

/-- A process that has evaluated as far as `state` and is about to execute the
lines `ahead`, the last ones of the listing. -/
structure Stands (code ahead : List String) (state : Evaluation) (process : Process) : Prop where
  running : process.status = none
  ahead : code.drop process.line = ahead
  accumulator : process.registers .rdi = state.accumulator
  printed : process.printed = state.printed

variable {code rest : List String} {text : String} {state : Evaluation} {process : Process}

theorem Stands.here (stands : Stands code (text :: rest) state process) :
    code[process.line]? = some text := by
  rw [← List.head?_drop, stands.ahead, List.head?_cons]

theorem Stands.behind (stands : Stands code (text :: rest) state process) :
    code.drop (process.line + 1) = rest := by
  rw [← List.tail_drop, stands.ahead, List.tail_cons]

private theorem runs_skip (stands : Stands code (text :: rest) state process)
    (decoded : decode? text = some .skip) : Inevitably code (Stands code rest state) process :=
  inevitably_of_execute stands.running stands.here decoded (fun _ => rfl) fun _ =>
    .now ⟨stands.running, stands.behind, stands.accumulator, stands.printed⟩

private theorem runs_immediate {verb : Verb} {value : UInt64}
    (stands : Stands code (text :: rest) state process)
    (decoded : decode? text = some (.compute verb .rdi (.immediate value))) :
    Inevitably code (Stands code rest (state.load (verb.apply state.accumulator value))) process :=
  inevitably_of_execute stands.running stands.here decoded (fun _ => rfl) fun _ =>
    .now ⟨stands.running, stands.behind, by
      simp [assign, Process.value, stands.accumulator, Evaluation.load], stands.printed⟩

/-- The scratch register need only survive from one line to the next. -/
private theorem runs_staged {verb : Verb} {value : UInt64} {stage : String}
    (stands : Stands code (stage :: text :: rest) state process)
    (staged : decode? stage = some (.compute .move .rax (.immediate value)))
    (decoded : decode? text = some (.compute verb .rdi (.register .rax))) :
    Inevitably code (Stands code rest (state.load (verb.apply state.accumulator value))) process := by
  refine inevitably_of_execute stands.running stands.here staged (fun _ => rfl) fun _ => ?_
  have between : Stands code (text :: rest) state (process.assign .rax value) :=
    ⟨stands.running, stands.behind, by simp [assign, stands.accumulator], stands.printed⟩
  refine inevitably_of_execute between.running between.here decoded (fun _ => rfl) fun _ =>
    .now ⟨between.running, between.behind, ?_, between.printed⟩
  simp [assign, Process.value, stands.accumulator, Evaluation.load, Verb.apply]

/-- Printing keeps the accumulator, the one register that the lines after it
rely on. -/
private theorem runs_print (stands : Stands code (text :: rest) state process)
    (decoded : decode? text = some (.call "dump")) (defined : "dump:" ∈ code) :
    Inevitably code (Stands code rest state.print) process := by
  have effect (leftovers : Leftovers) :
      process.execute code leftovers (.call "dump") = some (process.afterPrint leftovers) := by
    simp [execute, defined]
  refine inevitably_of_execute stands.running stands.here decoded effect fun leftovers =>
    .now ⟨stands.running, stands.behind, ?_, ?_⟩
  · simp [afterPrint, volatile, stands.accumulator, Evaluation.print]
  · simp [afterPrint, stands.printed, stands.accumulator, Evaluation.print]

/-! ## Forms -/

/-- One operand, carried by the instruction or staged in front of it. -/
private theorem runs_combine {operation : Operation} {number : Literal}
    (stands : Stands code ((number.combineLines operation).map Line.text ++ rest) state process) :
    Inevitably code
      (Stands code rest (state.load (operation.verb.apply state.accumulator number.value))) process := by
  by_cases narrow : number.value ≤ maxImmediate
  · simp only [Literal.combineLines, if_pos narrow, List.map_cons, List.map_nil,
      List.singleton_append] at stands
    exact runs_immediate stands (decode_combine operation narrow)
  · simp only [Literal.combineLines, if_neg narrow, List.map_cons, List.map_nil,
      List.cons_append, List.nil_append] at stands
    exact runs_staged stands (decode_stage _) (decode_combineStaged operation)

private theorem runs_operands {operation : Operation} (terms : List Literal)
    (stands : Stands code ((terms.flatMap (Literal.combineLines operation)).map Line.text ++ rest)
      state process) :
    Inevitably code (Stands code rest (state.load
      (terms.foldl (fun total term => operation.verb.apply total term.value) state.accumulator)))
      process := by
  induction terms generalizing state process with
  | nil => exact .now stands
  | cons number terms ih =>
    simp only [List.flatMap_cons, List.map_append, List.append_assoc] at stands
    exact inevitably_trans (runs_combine stands) fun process stands => ih stands

mutual

/-- The lines of a form evaluate it, whatever lines follow. -/
theorem runs_form (defined : "dump:" ∈ code) {rest : List String} {state : Evaluation}
    {process : Process} :
    (form : Form) → Stands code (form.lines.map Line.text ++ rest) state process →
      Inevitably code (Stands code rest (form.evaluate state)) process
  | .literal number, stands => by
    simp only [Form.lines, List.map_cons, List.map_nil, List.singleton_append] at stands
    exact runs_immediate stands (decode_load _)
  | .group _ members, stands => by
    simp only [Form.lines] at stands
    simpa only [Form.evaluate] using runs_program defined members stands
  | .dump argument, stands => by
    simp only [Form.lines, List.map_append, List.append_assoc] at stands
    refine inevitably_trans (runs_form defined argument stands) fun process stands => ?_
    refine inevitably_trans (runs_skip stands decode_dumpRemark) fun process stands => ?_
    exact runs_print stands decode_callDump defined
  | .add terms, stands => by
    simp only [Form.lines, List.map_cons, List.cons_append] at stands
    exact inevitably_trans (runs_skip stands (decode_operatorRemark _)) fun process stands =>
      runs_operands terms stands
  | .sub seed terms, stands => by
    simp only [Form.lines, List.map_cons, List.cons_append] at stands
    refine inevitably_trans (runs_skip stands (decode_operatorRemark _)) fun process stands => ?_
    exact inevitably_trans (runs_immediate stands (decode_load _)) fun process stands =>
      runs_operands terms stands

/-- The lines of forms in a row evaluate them in order. -/
theorem runs_program (defined : "dump:" ∈ code) {rest : List String} {state : Evaluation}
    {process : Process} :
    (program : Program) → Stands code (program.lines.map Line.text ++ rest) state process →
      Inevitably code (Stands code rest (program.evaluate state)) process
  | [], stands => .now stands
  | form :: forms, stands => by
    simp only [Program.lines, List.map_append, List.append_assoc] at stands
    exact inevitably_trans (runs_form defined form stands) fun process stands =>
      runs_program defined forms stands

end

/-! ## Whole listings -/

/-- The lines that compiling a source leaves in an empty listing. -/
def listingOf (source : Bytes) : List String :=
  (compile Listing.sink .empty source).state.lines.toList

/-- A process that begins at the entry label of a listing. -/
def Machine.Process.entering (code : List String) (registers : Register → UInt64)
    (vector : BitVec 128) : Process :=
  .start (code.idxOf entryLabel) registers vector

private theorem drop_entry (program : Program) :
    (program.assembly.map Line.text).drop ((program.assembly.map Line.text).idxOf entryLabel) =
      "_start:" :: "\txor rdi, rdi" ::
        (program.lines.map Line.text ++ epilogue.map Line.text) := by
  have index : (prologue.map Line.text).idxOf entryLabel = 36 := by decide +kernel
  have labelled : entryLabel ∈ prologue.map Line.text := by decide +kernel
  have opening : (prologue.map Line.text).drop 36 = ["_start:", "\txor rdi, rdi"] := by decide +kernel
  have room : 36 ≤ (prologue.map Line.text).length := by decide +kernel
  simp only [Program.assembly, List.map_append, List.append_assoc]
  rw [List.idxOf_append, if_pos labelled, index, List.drop_append_of_le_length room, opening]
  rfl

/-- From the entry label on, the accumulator is cleared and the program's own
lines are next. -/
private theorem runs_entry (ahead : code.drop process.line = "_start:" :: "\txor rdi, rdi" :: rest)
    (running : process.status = none) (silent : process.printed = []) :
    Inevitably code (Stands code rest ⟨0, []⟩) process := by
  have begun : Stands code ("_start:" :: "\txor rdi, rdi" :: rest)
      ⟨process.registers .rdi, []⟩ process := ⟨running, ahead, rfl, silent⟩
  refine inevitably_trans (runs_skip begun (by decide +kernel)) fun process stands => ?_
  refine inevitably_of_execute stands.running stands.here decode_clear (fun _ => rfl) fun _ =>
    .now ⟨stands.running, stands.behind, ?_, stands.printed⟩
  simp [assign, Process.value, Verb.apply]

/-- The epilogue ends the process with status zero and prints nothing. -/
private theorem runs_epilogue (stands : Stands code (epilogue.map Line.text) state process) :
    Inevitably code (fun ended => ended.status = some 0 ∧ ended.printed = state.printed) process := by
  refine inevitably_trans (runs_skip stands (by decide +kernel)) fun process stands => ?_
  have exitNumber : decode? "\tmov rax, 60" = some (.compute .move .rax (.immediate 60)) := by
    decide +kernel
  have numbered (leftovers : Leftovers) : process.execute code leftovers
      (.compute .move .rax (.immediate 60)) = some (process.assign .rax 60) := rfl
  refine inevitably_of_execute stands.running stands.here exitNumber numbered fun _ => ?_
  have stands : Stands code ["\txor rdi, rdi", "\tsyscall"] state (process.assign .rax 60) :=
    ⟨stands.running, stands.behind, by simp [assign, stands.accumulator], stands.printed⟩
  have cleared (leftovers : Leftovers) : (process.assign .rax 60).execute code leftovers
      (.compute .xor .rdi (.register .rdi)) = some ((process.assign .rax 60).assign .rdi 0) := by
    simp [execute, Process.value, Verb.apply]
  refine inevitably_of_execute stands.running stands.here decode_clear cleared fun _ => ?_
  have stands : Stands code ["\tsyscall"] (state.load 0) ((process.assign .rax 60).assign .rdi 0) :=
    ⟨stands.running, stands.behind, by simp [assign, Evaluation.load], stands.printed⟩
  have exit : decode? "\tsyscall" = some .systemCall := by decide +kernel
  have ended (leftovers : Leftovers) :
      ((process.assign .rax 60).assign .rdi 0).execute code leftovers .systemCall =
        some { (process.assign .rax 60).assign .rdi 0 with status := some 0 } := by
    simp [execute, assign]
  exact inevitably_of_execute stands.running stands.here exit ended fun _ => .now ⟨rfl, stands.printed⟩

/-- A process that can take a step stands at a line that can be decoded. -/
theorem decoded_of_step {next : Process} (stepped : Advances code process next) :
    ∃ text instruction, code[process.line]? = some text ∧ decode? text = some instruction := by
  obtain ⟨leftovers, taken⟩ := stepped
  cases status : process.status with
  | some status => simp [step?, status] at taken
  | none =>
    simp only [step?, status] at taken
    obtain ⟨text, here, taken⟩ := Option.bind_eq_some_iff.mp taken
    obtain ⟨instruction, decoded, _⟩ := Option.bind_eq_some_iff.mp taken
    exact ⟨text, instruction, here, decoded⟩

/-- Executed from the entry label with any register contents, the listing of a
source that compiles behaves as the program means: every run comes to the
epilogue with the program's accumulator, having printed the program's values,
and from there ends with status zero. On the way every line is decoded and no
process is stuck. -/
theorem compiled_listing_runs_program {source : Bytes} {core : Listing}
    (registers : Register → UInt64) (vector : BitVec 128)
    (accepted : (compile Listing.sink .empty source).result = .ok core) :
    ∃ program, parse source = .ok program ∧
      Inevitably (listingOf source)
        (fun process => Stands (listingOf source) (epilogue.map Line.text) program.meaning process ∧
          Inevitably (listingOf source)
            (fun ended => ended.status = some 0 ∧ ended.printed = program.meaning.printed) process)
        (.entering (listingOf source) registers vector) ∧
      ∀ reached, Relation.ReflTransGen (Advances (listingOf source))
          (.entering (listingOf source) registers vector) reached →
        reached.status.isSome ∨ ∃ text instruction next,
          (listingOf source)[reached.line]? = some text ∧ decode? text = some instruction ∧
            Advances (listingOf source) reached next := by
  cases parsed : parse source with
  | error error => simp [compile, parsed] at accepted
  | ok program =>
    have written : listingOf source = program.assembly.map Line.text := (compile_to_listing parsed).1
    rw [written]
    have defined : "dump:" ∈ program.assembly.map Line.text := by
      have inPrologue : "dump:" ∈ prologue.map Line.text := by decide +kernel
      simp only [Program.assembly, List.map_append, List.mem_append]
      exact .inl (.inl inPrologue)
    have evaluates : Inevitably (program.assembly.map Line.text)
        (Stands (program.assembly.map Line.text) (epilogue.map Line.text) program.meaning)
        (.entering (program.assembly.map Line.text) registers vector) :=
      inevitably_trans (runs_entry (drop_entry program) rfl rfl) fun process stands =>
        runs_program defined program stands
    refine ⟨program, rfl, inevitably_trans evaluates fun process stands =>
      .now ⟨stands, runs_epilogue stands⟩, ?_⟩
    intro reached path
    have ends := inevitably_trans evaluates fun process stands => runs_epilogue stands
    rcases progress_of_inevitably ends (fun ended final => by simp [final.1]) path with
      ended | ⟨next, stepped⟩
    · exact .inl ended
    · obtain ⟨text, instruction, here, decoded⟩ := decoded_of_step stepped
      exact .inr ⟨text, instruction, next, here, decoded, stepped⟩

/-- A sum with an operand too wide to carry, from registers that are not clear. -/
theorem compiled_wide_sum_runs :
    Inevitably (listingOf (Utf8.encode "dump + 1 4294967296"))
      (fun ended => ended.status = some 0 ∧ ended.printed = [4294967297])
      (.entering (listingOf (Utf8.encode "dump + 1 4294967296")) (fun _ => 7) 7) := by
  have parsed : parse (Utf8.encode "dump + 1 4294967296") =
      .ok [.dump (.add [⟨1, ⟨7, 8⟩⟩, ⟨4294967296, ⟨9, 19⟩⟩])] := by
    rw [parse, read, show tokens (Utf8.encode "dump + 1 4294967296") =
      [⟨.word (Utf8.encode "dump"), 0⟩, ⟨.plus, 5⟩, ⟨.numeral (Utf8.encode "1"), 7⟩,
        ⟨.numeral (Utf8.encode "4294967296"), 9⟩] by decide +kernel]
    rfl
  obtain ⟨program, same, runs, _⟩ :=
    compiled_listing_runs_program (fun _ => 7) 7 (compile_to_listing parsed).2
  obtain rfl := Except.ok.inj (parsed.symm.trans same)
  exact inevitably_trans runs fun process reached => reached.2

end ArithAsm
