import ArithAsm.Proofs.BufferedWriting
import ArithAsm.Proofs.Building
import ArithAsm.Proofs.Command.Values
import ArithAsm.Proofs.SourceSupply

/-! The course of a compilation. The source is obtained, read as a program, compiled in
memory, written out and built, and each stage is reached only if those before it went
well. Up to the writing nothing has been touched, and no program is called before the
whole assembly is in its file. Where the writing fails on the way the file holds the front
of the assembly, and the run ends there. -/
namespace ArithAsm

/-- The bytes of the whole assembly that a source compiles to. -/
def assemblyText (source : Bytes) : Bytes :=
  Utf8.encode (compile Listing.sink .empty source).state.text

/-- The program of a single digit. -/
theorem parse_one : parse (Utf8.encode "1") = .ok [.literal ⟨1, ⟨0, 1⟩⟩] := by
  rw [parse, read, show tokens (Utf8.encode "1") = [⟨.numeral [0x31], 0⟩] by decide +kernel]
  rfl

/-- The exit code that a result leads to. -/
def exitCode : Except Error Unit → Nat
  | .ok () => 0
  | .error _ => 1

theorem exitCode_eq_zero_iff {result : Except Error Unit} : exitCode result = 0 ↔ result = .ok () := by
  cases result with
  | ok done => exact ⟨fun _ => rfl, fun _ => rfl⟩
  | error error => exact ⟨nofun, nofun⟩

theorem exitCode_cases (result : Except Error Unit) : exitCode result = 0 ∨ exitCode result = 1 := by
  cases result with
  | ok done => exact .inl rfl
  | error error => exact .inr rfl

namespace Invocation

/-- Writing the assembly of a source: what the files are like after that, and the refusal if there
was one. -/
def writing (invocation : Invocation) (host : Host) (source : Bytes) : FileTree × Option IoError :=
  host.writeListing invocation.outputPath (compile Listing.sink .empty source).state

/-- The build that follows once the assembly has been written. -/
def building (invocation : Invocation) (host : Host) (written : FileTree) : Effect Unit :=
  Toolchain.standard.build { host with tree := written } (Artifacts.ofAssembly invocation.outputPath)

/-- The input supplies the source, which is within the limit that is asked for. -/
structure Obtains (invocation : Invocation) (host : Host) (source : Bytes) : Prop where
  supplied : host.tree.Supplies invocation.inputPath source
  within : ∃ limit, invocation.limit = .ok (.ok limit) ∧ source.length ≤ limit.toNat

/-- The ways in which a compilation can go: how it ends, the files that it leaves and
the programs that it calls. -/
inductive Course (invocation : Invocation) (host : Host) : Ending → FileTree → List Call → Prop where
  | notText (broken : ¬ invocation.ValuesAreText) :
      Course invocation host (.aborted .notText) host.tree []
  | unlimited {cause : LimitError} (invalid : invocation.limit = .ok (.error cause)) :
      Course invocation host (.exited 1) host.tree []
  | overflow {limit : UInt64} (limited : invocation.limit = .ok (.ok limit))
      (largest : UInt64.size ≤ limit.toNat + 1) :
      Course invocation host (.aborted .limitOverflow) host.tree []
  | unread {limit : UInt64} (limited : invocation.limit = .ok (.ok limit))
      (missing : ∀ source, ¬ invocation.Obtains host source) :
      Course invocation host (.exited 1) host.tree []
  | malformed {source : Bytes} {error : Error} (obtained : invocation.Obtains host source)
      (fails : parse source = .error error) : Course invocation host (.exited 1) host.tree []
  | unwritten {source : Bytes} {program : Program} {tree : FileTree} {cause : IoError}
      (obtained : invocation.Obtains host source) (parsed : parse source = .ok program)
      (refused : invocation.writing host source = (tree, some cause)) :
      Course invocation host (.exited 1) tree []
  | written {source : Bytes} {program : Program} {tree : FileTree}
      (obtained : invocation.Obtains host source) (parsed : parse source = .ok program)
      (wrote : invocation.writing host source = (tree, none))
      (only : invocation.assemblyOnly = true) : Course invocation host (.exited 0) tree []
  | built {source : Bytes} {program : Program} {tree : FileTree}
      (obtained : invocation.Obtains host source) (parsed : parse source = .ok program)
      (wrote : invocation.writing host source = (tree, none))
      (more : invocation.assemblyOnly = false) :
      Course invocation host (.exited (exitCode (invocation.building host tree).result))
        (invocation.building host tree).tree (invocation.building host tree).calls

variable {invocation : Invocation} {host : Host}

/-! ## The courses are all -/

/-- A source that is read decides, by what becomes of it, how the run ends. -/
theorem run_of_source {limit : UInt64} {records : List Record} {source : Bytes}
    (reads : readSource host.tree invocation.inputPath limit = .ok (records, .ok source)) :
    (invocation.runWithin host (.ok limit)).ending =
        .exited (exitCode (invocation.process host source).effect.result) ∧
      (invocation.runWithin host (.ok limit)).tree = (invocation.process host source).effect.tree ∧
      (invocation.runWithin host (.ok limit)).calls =
        (invocation.process host source).effect.calls := by
  simp only [runWithin, perform, reads, Except.map]
  cases (invocation.process host source).effect.result with
  | ok done => exact ⟨rfl, rfl, rfl⟩
  | error error => exact ⟨rfl, rfl, rfl⟩

/-- Without a source nothing is done. -/
theorem run_of_unread {limit : UInt64} {records : List Record} {error : Error}
    (fails : readSource host.tree invocation.inputPath limit = .ok (records, .error error)) :
    (invocation.runWithin host (.ok limit)).ending = .exited 1 ∧
      (invocation.runWithin host (.ok limit)).tree = host.tree ∧
      (invocation.runWithin host (.ok limit)).calls = [] := by
  simp only [runWithin, perform, fails, Except.map, Session.idle, and_self]

theorem run_of_abort {limit : UInt64} {abort : Abort}
    (aborts : readSource host.tree invocation.inputPath limit = .error abort) :
    (invocation.runWithin host (.ok limit)).ending = .aborted abort ∧
      (invocation.runWithin host (.ok limit)).tree = host.tree ∧
      (invocation.runWithin host (.ok limit)).calls = [] := by
  simp only [runWithin, perform, aborts, Except.map, and_self]

/-- Once the source is at hand the course is that of compiling, writing and building. -/
theorem course_of_source {source : Bytes} (obtained : invocation.Obtains host source) :
    invocation.Course host (.exited (exitCode (invocation.compileSource host source).effect.result))
      (invocation.compileSource host source).effect.tree
      (invocation.compileSource host source).effect.calls := by
  unfold compileSource
  cases parsed : parse source with
  | error error =>
    have fails : (compile Listing.sink .empty source).result = .error error := by simp [compile, parsed]
    simp only [fails]
    exact .malformed obtained parsed
  | ok program =>
    simp only [(compile_to_listing parsed).2]
    cases wrote : invocation.writing host source with
    | mk tree refusal =>
      have asked := wrote
      unfold writing at asked
      simp only [asked]
      cases refusal with
      | some cause => exact .unwritten obtained parsed wrote
      | none =>
        cases only : invocation.assemblyOnly with
        | true => exact .written obtained parsed wrote only
        | false => exact .built obtained parsed wrote only

/-- Every compilation takes one of the courses. -/
theorem course_of_run (compiles : invocation.mode = .compile) :
    invocation.Course host (invocation.run host).ending (invocation.run host).tree
      (invocation.run host).calls := by
  rcases invocation.run_cases host with ⟨-, limit, limited, within⟩ | ⟨broken, ending, tree, calls⟩
  · rw [within]
    cases limit with
    | error cause => exact .unlimited limited
    | ok limit =>
      rcases readSource_cases host.tree invocation.inputPath limit with
        ⟨records, source, reads, supplied, small⟩ | ⟨records, error, fails, large⟩ | ⟨-, largest, overflows⟩
      · obtain ⟨ending, tree, calls⟩ := run_of_source reads
        rw [ending, tree, calls]
        simp only [process, compiles]
        exact course_of_source ⟨supplied, limit, limited, small⟩
      · obtain ⟨ending, tree, calls⟩ := run_of_unread fails
        rw [ending, tree, calls]
        refine .unread limited fun source obtained => ?_
        obtain ⟨supplied, again, limitedAgain, small⟩ := obtained
        obtain rfl := Except.ok.inj (Except.ok.inj (limited.symm.trans limitedAgain))
        exact Nat.not_lt.mpr small (large source supplied)
      · obtain ⟨ending, tree, calls⟩ := run_of_abort overflows
        rw [ending, tree, calls]
        exact .overflow limited largest
  · rw [ending, tree, calls]
    exact .notText broken

theorem course_of_arguments {arguments : List Bytes} (host : Host)
    (accepted : ofArguments arguments = .ok invocation) (compiles : invocation.mode = .compile) :
    invocation.Course host (ArithAsm.run host arguments).ending (ArithAsm.run host arguments).tree
      (ArithAsm.run host arguments).calls := by
  simp only [ArithAsm.run, accepted]
  exact course_of_run compiles

/-! ## Inversion -/

theorem Obtains.unique {source other : Bytes} (first : invocation.Obtains host source)
    (second : invocation.Obtains host other) : source = other :=
  first.supplied.unique second.supplied

/-- Every limit that is asked for is below the largest 64-bit number. -/
def LimitBelowLargest (invocation : Invocation) : Prop :=
  ∀ limit, invocation.limit = .ok (.ok limit) → limit.toNat < UInt64.size - 1

theorem LimitBelowLargest.not_large {limit : UInt64} (below : invocation.LimitBelowLargest)
    (limited : invocation.limit = .ok (.ok limit)) : ¬ UInt64.size ≤ limit.toNat + 1 := by
  have small := below limit limited
  omega

theorem limitBelowLargest_default (none : invocation.maxSize = none) : invocation.LimitBelowLargest := by
  intro limit limited
  simp only [Invocation.limit, none, Except.ok.injEq] at limited
  subst limited
  decide

namespace Course
variable {ending : Ending} {tree : FileTree} {calls : List Call}

/-- Where no program can be read nothing is touched and nothing is called. -/
theorem inert (course : invocation.Course host ending tree calls) (texts : invocation.ValuesAreText)
    (below : invocation.LimitBelowLargest)
    (none : ¬ ∃ source program, invocation.Obtains host source ∧ parse source = .ok program) :
    ending = .exited 1 ∧ tree = host.tree ∧ calls = [] := by
  cases course with
  | unlimited | unread | malformed => exact ⟨rfl, rfl, rfl⟩
  | notText broken => exact absurd texts broken
  | overflow limited largest => exact absurd largest (below.not_large limited)
  | unwritten obtained parsed | written obtained parsed | built obtained parsed =>
    exact absurd ⟨_, _, obtained, parsed⟩ none

/-- Where a program can be read its assembly is written, and built if that is asked
for. -/
theorem of_program {source : Bytes} {program : Program}
    (course : invocation.Course host ending tree calls) (texts : invocation.ValuesAreText)
    (below : invocation.LimitBelowLargest) (obtained : invocation.Obtains host source)
    (parsed : parse source = .ok program) :
    (∃ cause, (invocation.writing host source).2 = some cause ∧
      ending = .exited 1 ∧ tree = (invocation.writing host source).1 ∧ calls = []) ∨
    ∃ written, invocation.writing host source = (written, none) ∧
      (invocation.assemblyOnly = true ∧ ending = .exited 0 ∧ tree = written ∧ calls = [] ∨
        invocation.assemblyOnly = false ∧
          ending = .exited (exitCode (invocation.building host written).result) ∧
          tree = (invocation.building host written).tree ∧
          calls = (invocation.building host written).calls) := by
  cases course with
  | notText broken => exact absurd texts broken
  | unlimited invalid =>
    obtain ⟨-, limit, limited, -⟩ := obtained
    cases invalid.symm.trans limited
  | overflow limited largest => exact absurd largest (below.not_large limited)
  | unread limited missing => exact absurd obtained (missing source)
  | malformed other fails =>
    obtain rfl := other.unique obtained
    cases fails.symm.trans parsed
  | unwritten other _ refused =>
    obtain rfl := other.unique obtained
    rw [refused]
    exact .inl ⟨_, rfl, rfl, rfl, rfl⟩
  | written other _ wrote only =>
    obtain rfl := other.unique obtained
    exact .inr ⟨_, wrote, .inl ⟨only, rfl, rfl, rfl⟩⟩
  | built other _ wrote more =>
    obtain rfl := other.unique obtained
    exact .inr ⟨_, wrote, .inr ⟨more, rfl, rfl, rfl⟩⟩

end Course

/-- The output goes to a device, which keeps nothing. -/
def OutputIsDevice (invocation : Invocation) (host : Host) : Prop :=
  ∃ device, host.tree.lookUp invocation.outputPath = .ok (.device device)

end Invocation

/-! ## All or nothing -/

/-- A compilation of which the values are texts does nothing at all unless a program can be read. If
one can, its assembly is written to the output: when that fails the run ends there, with the front
of the assembly in the output at most, and when it succeeds the whole assembly stands in the output
before the first call is made, unless that is a device. -/
theorem compilation_all_or_nothing {arguments : List Bytes} {invocation : Invocation} (host : Host)
    (accepted : Invocation.ofArguments arguments = .ok invocation)
    (compiles : invocation.mode = .compile) (texts : invocation.ValuesAreText)
    (below : invocation.LimitBelowLargest) :
    ((¬ ∃ source program, invocation.Obtains host source ∧ parse source = .ok program) →
      (run host arguments).ending = .exited 1 ∧ (run host arguments).tree = host.tree ∧
        (run host arguments).calls = []) ∧
    ∀ source program, invocation.Obtains host source → parse source = .ok program →
      let written := invocation.writing host source
      (∀ cause, host.tree.create invocation.outputPath = .error cause →
        written = (host.tree, some cause)) ∧
      (∀ created place, host.tree.create invocation.outputPath = .ok (created, place) →
        (invocation.OutputIsDevice host ∨ ∃ content, content <+: assemblyText source ∧
          written.1.lookUp invocation.outputPath = .ok (.file content)) ∧
        ((∀ trip bytes, host.mediumAt created place trip bytes = none) → written.2 = none)) ∧
      (∀ cause, written.2 = some cause →
        (run host arguments).ending = .exited 1 ∧ (run host arguments).calls = [] ∧
          (run host arguments).tree = written.1 ∧
          FileTree.KeepsBut [invocation.outputPath] host.tree (run host arguments).tree) ∧
      (written.2 = none →
        (invocation.OutputIsDevice host ∨
          written.1.lookUp invocation.outputPath = .ok (.file (assemblyText source))) ∧
        (∃ left, host.Carries written.1 (run host arguments).calls left ∧
          ((run host arguments).tree = left ∨
            left.remove (Artifacts.ofAssembly invocation.outputPath).object =
              .ok (run host arguments).tree)) ∧
        (invocation.assemblyOnly = true →
          (run host arguments).ending = .exited 0 ∧ (run host arguments).calls = [] ∧
            (run host arguments).tree = written.1 ∧
            FileTree.KeepsBut [invocation.outputPath] host.tree (run host arguments).tree) ∧
        (invocation.assemblyOnly = false →
          ((run host arguments).ending = .exited 0 ∨ (run host arguments).ending = .exited 1) ∧
            ((run host arguments).ending = .exited 0 ↔ Toolchain.standard.BothSucceed
              { host with tree := written.1 } (Artifacts.ofAssembly invocation.outputPath)))) := by
  have course := Invocation.course_of_arguments host accepted compiles
  refine ⟨course.inert texts below, ?_⟩
  intro source program obtained parsed
  have writes := host.keepsBut_writeListing invocation.outputPath
    (compile Listing.sink .empty source).state
  refine ⟨fun cause fails => Host.writeListing_of_error fails _,
    fun created place creates => ⟨?_, Host.writeListing_unrefused creates⟩, ?_⟩
  · rcases Host.lookUp_of_create creates with held | ⟨-, device⟩
    · exact .inr held
    · exact .inl device
  rcases course.of_program texts below obtained parsed with
    ⟨cause, refused, ending, left, calls⟩ | ⟨tree, wrote, outcome⟩
  · rw [ending, left, calls]
    exact ⟨fun _ _ => ⟨rfl, rfl, rfl, writes⟩, fun unrefused => nomatch refused.symm.trans unrefused⟩
  have stands := Host.lookUp_of_writeListing (congrArg (·.2) wrote)
  change FileTree.KeepsBut _ _ (invocation.writing host source).1 at writes
  rw [wrote] at writes ⊢
  refine ⟨nofun, fun _ => ⟨?_, ?_⟩⟩
  · rcases stands with held | ⟨-, device⟩
    · exact .inr (by rw [← congrArg (·.1) wrote]; exact held)
    · exact .inl device
  rcases outcome with ⟨only, ending, left, calls⟩ | ⟨more, ending, left, calls⟩
  · rw [ending, left, calls]
    refine ⟨⟨tree, .nothing tree, .inl rfl⟩, fun _ => ?_, fun more => nomatch only.symm.trans more⟩
    exact ⟨rfl, rfl, rfl, writes⟩
  · rw [ending, left, calls]
    refine ⟨Toolchain.standard.carries_build host _ tree, fun only => (nomatch only.symm.trans more),
      fun _ => ⟨?_, ?_⟩⟩
    · rcases exitCode_cases (invocation.building host tree).result with zero | one
      · exact .inl (congrArg _ zero)
      · exact .inr (congrArg _ one)
    · rw [Ending.exited.injEq, exitCode_eq_zero_iff]
      exact Toolchain.standard.build_eq_ok_iff { host with tree } _

/-- A malformed source that is its own output stays as it is, and tools that succeed build
a well-formed one. -/
theorem own_output_kept_or_built :
    let onto := ["comp", "p", "-o", "p"].map Utf8.encode
    ((run (.obliging "p" ")") onto).ending = .exited 1 ∧
        (run (.obliging "p" ")") onto).tree = (Host.obliging "p" ")").tree ∧
        (run (.obliging "p" ")") onto).calls = []) ∧
      (run (.obliging "p" "1") (["comp", "p"].map Utf8.encode)).ending = .exited 0 := by
  constructor
  · have accepted : Invocation.ofArguments (["comp", "p", "-o", "p"].map Utf8.encode) =
        .ok ⟨.compile, Utf8.encode "p", some (Utf8.encode "p"), none, false, false, false, 0⟩ := rfl
    have fails : parse (Utf8.encode ")") = .error (.malformed ⟨1, 1⟩ .unmatchedClose) := by
      rw [parse, read, show tokens (Utf8.encode ")") = [⟨.closeGroup, 0⟩] by decide +kernel]
      rfl
    refine (compilation_all_or_nothing _ accepted rfl (by decide +kernel)
      (Invocation.limitBelowLargest_default rfl)).1 ?_
    rintro ⟨source, program, obtained, parsed⟩
    obtain rfl : Utf8.encode ")" = source := FileTree.Supplies.unique (.inl rfl) obtained.supplied
    cases fails.symm.trans parsed
  · have accepted : Invocation.ofArguments (["comp", "p"].map Utf8.encode) =
        .ok ⟨.compile, Utf8.encode "p", none, none, false, false, false, 0⟩ := rfl
    have obtained : Invocation.Obtains
        ⟨.compile, Utf8.encode "p", none, none, false, false, false, 0⟩
        (.obliging "p" "1") (Utf8.encode "1") := ⟨.inl rfl, _, rfl, by decide⟩
    have parts := (compilation_all_or_nothing _ accepted rfl (by decide +kernel)
      (Invocation.limitBelowLargest_default rfl)).2 _ _ obtained parse_one
    have written := (parts.2.1 _ _ rfl).2 fun _ _ => rfl
    exact ((parts.2.2.2 written).2.2.2 rfl).2.mpr ⟨_, _, ⟨_, _, rfl, rfl, rfl⟩, ⟨_, _, rfl, rfl, rfl⟩⟩

/-- A device takes the whole assembly and holds nothing of it. A path that is no text is accepted as
an argument, and the run aborts over it. -/
theorem null_device_keeps_no_assembly :
    let tree : FileTree := ⟨[], [([Utf8.encode "in"], .file (Utf8.encode "1")),
      ([Utf8.encode "null", Utf8.encode "dev"], .device ⟨false, true⟩),
      ([Utf8.encode "dev"], .directory)], []⟩
    let host := { Host.obliging "in" "1" with tree }
    let arguments := ["comp", "-S", "-o", "/dev/null", "in"].map Utf8.encode
    let null := Utf8.encode "/dev/null"
    (Invocation.ofArguments arguments =
        .ok ⟨.compile, Utf8.encode "in", some null, none, true, false, false, 0⟩ ∧
      host.writeListing null (compile Listing.sink .empty (Utf8.encode "1")).state = (tree, none) ∧
      (run host arguments).ending = .exited 0 ∧
      (run host arguments).tree.lookUp null = .ok (.device ⟨false, true⟩)) ∧
    Invocation.ofArguments [Utf8.encode "comp", [0xFF]] =
        .ok ⟨.compile, [0xFF], none, none, false, false, false, 0⟩ ∧
      (run host [Utf8.encode "comp", [0xFF]]).ending = .aborted .notText := by
  intro tree host arguments null
  have accepted : Invocation.ofArguments arguments =
      .ok ⟨.compile, Utf8.encode "in", some null, none, true, false, false, 0⟩ := rfl
  have written : host.writeListing null (compile Listing.sink .empty (Utf8.encode "1")).state =
      (tree, none) := Host.writeListing_device rfl rfl rfl
  have course := Invocation.course_of_arguments host accepted rfl
  obtain ⟨cause, refused, -⟩ | ⟨left, wrote, ⟨-, ending, kept, -⟩ | ⟨more, -⟩⟩ :=
    course.of_program (by decide +kernel) (Invocation.limitBelowLargest_default rfl)
      ⟨.inl rfl, _, rfl, by decide⟩ parse_one
  · cases (congrArg (·.2) written).symm.trans refused
  · obtain rfl : tree = left := congrArg (·.1) (written.symm.trans wrote)
    refine ⟨⟨accepted, written, ending, ?_⟩, rfl, ?_⟩
    · rw [kept]
      rfl
    · decide +kernel
  · cases more

end ArithAsm
