import ArithAsm.Build.Toolchain
import ArithAsm.Proofs.FileEffects

/-! What building does. The programs are called one after the other, each on the
files that the one before left, and after them at most the object file is removed.
The build succeeds exactly if the assembler does and then the linker. Where the
tools change nothing but what stands behind a `-o`, only the assembly, the object
file and the executable can change. -/
namespace ArithAsm

/-! ## Tools -/

/-- The tool changes nothing but what stands at the paths behind a `-o`, where it
makes no directory. -/
def Tool.Confined (tool : Tool) : Prop :=
  ∀ arguments tree, FileTree.KeepsBut (outputArguments arguments) tree (tool.run arguments tree).1

theorem FileTree.keepsBut_overwrite (tree : FileTree) (path : Path) (content : Bytes) :
    KeepsBut [path] tree (tree.overwrite path content) := by
  unfold overwrite
  cases creates : tree.create path with
  | error cause => exact .refl _ _
  | ok created => exact keepsBut_of_create_store creates content

theorem FileTree.keepsBut_writeAll (tree : FileTree) (paths : List Path) (content : Bytes) :
    KeepsBut paths tree (tree.writeAll paths content) := by
  induction paths generalizing tree with
  | nil => exact .refl _ _
  | cons path rest ih =>
    have later := (ih (tree.overwrite path content)).mono
      fun other member => List.mem_cons_of_mem path member
    have first : KeepsBut (path :: rest) tree (tree.overwrite path content) :=
      (tree.keepsBut_overwrite path content).mono
        fun other member => List.mem_singleton.mp member ▸ List.mem_cons_self
    exact first.trans later

theorem Tool.confined_scripted (content : Option Bytes) (status : Status) :
    (Tool.scripted content status).Confined := by
  intro arguments tree
  cases content with
  | none => exact .refl _ _
  | some content => exact tree.keepsBut_writeAll _ content

/-- A host with one file, in its working directory, where everything is permitted, every write
goes well, and every program that is called writes its outputs and succeeds. -/
def Host.obliging (name content : String) : Host where
  tree := ⟨[], [([Utf8.encode name], .file (Utf8.encode content))], []⟩
  tool? _ := some (.scripted (some []) (.exited 0))
  disk := .reliable

theorem Host.confined_obliging {name content program : String} {tool : Tool}
    (known : (Host.obliging name content).tool? program = some tool) : tool.Confined := by
  obtain rfl := Option.some.inj known
  exact Tool.confined_scripted _ _

/-! ## Calls -/

namespace Host
variable {host : Host} {program : String} {arguments : List Bytes}

/-- A program that can be started is one of the tools. -/
theorem tool_of_start {tool : Tool} (starts : host.startTool program arguments = .ok tool) :
    host.tool? program = some tool := by
  unfold startTool at starts
  split at starts
  · cases starts
  cases found : host.findTool program with
  | error cause =>
    rw [found] at starts
    cases starts
  | ok known =>
    rw [found] at starts
    simp only [Except.bind] at starts
    split at starts
    · cases starts
    obtain rfl := Except.ok.inj starts
    unfold findTool at found
    simp only at found
    split at found
    · cases held : host.tree.lookUp (Utf8.encode program) <;> simp [held, Except.bind] at found
    split at found
    · cases found
    split at found
    · cases found
    cases listed : host.tool? program with
    | none =>
      rw [listed] at found
      cases found
    | some tool =>
      rw [listed] at found
      exact congrArg some (Except.ok.inj found)

/-- The program can be started on the files of the host, succeeds and leaves
`after`. -/
def Succeeds (host : Host) (program : String) (arguments : List Bytes) (after : FileTree) : Prop :=
  ∃ tool status, host.startTool program arguments = .ok tool ∧
    tool.run arguments host.tree = (after, status) ∧ status.isSuccess = true

/-- The calls, one after the other, take the files from `before` to `after`. Each is
of a program that can be started, on the files that the call before it left. -/
inductive Carries (host : Host) : FileTree → List Call → FileTree → Prop where
  | nothing (tree : FileTree) : Carries host tree [] tree
  | call {before after : FileTree} {program : String} {arguments : List Bytes} {tool : Tool}
      {rest : List Call}
      (starts : { host with tree := before }.startTool program arguments = .ok tool)
      (later : Carries host (tool.run arguments before).1 rest after) :
      Carries host before (⟨program, arguments⟩ :: rest) after

theorem Carries.append {before middle after : FileTree} {first second : List Call}
    (carries : host.Carries before first middle) (later : host.Carries middle second after) :
    host.Carries before (first ++ second) after := by
  induction carries with
  | nothing tree => exact later
  | call starts _ ih => exact .call starts (ih later)

/-- Calls of tools that are confined change only what stands behind a `-o`. -/
theorem Carries.keepsBut {before after : FileTree} {calls : List Call} {paths : List Path}
    (carries : host.Carries before calls after)
    (confined : ∀ name tool, host.tool? name = some tool → tool.Confined)
    (among : ∀ call ∈ calls, ∀ path ∈ outputArguments call.arguments, path ∈ paths) :
    FileTree.KeepsBut paths before after := by
  induction carries with
  | nothing tree => exact .refl _ _
  | @call before after program arguments tool rest starts later ih =>
    have known : { host with tree := before }.tool? program = some tool := tool_of_start starts
    have toolConfined : tool.Confined := confined program tool known
    have first := (toolConfined arguments before).mono (among _ List.mem_cons_self)
    exact first.trans (ih fun call member => among call (List.mem_cons_of_mem _ member))

theorem carries_run (host : Host) (tree : FileTree) (program : String) (arguments : List Bytes) :
    host.Carries tree ({ host with tree }.run program arguments).calls
      ({ host with tree }.run program arguments).tree := by
  unfold run
  cases starts : { host with tree }.startTool program arguments with
  | error cause => exact .nothing _
  | ok tool => exact .call starts (.nothing _)

/-- At most the program itself is called. -/
theorem calls_run (host : Host) (program : String) (arguments : List Bytes) :
    (host.run program arguments).calls <+: [⟨program, arguments⟩] := by
  unfold run
  cases host.startTool program arguments with
  | error cause => exact List.nil_prefix
  | ok tool => exact List.prefix_rfl

/-- A run without an error is one of a program that was started and succeeded. -/
theorem run_eq_ok_iff {after : FileTree} :
    (host.run program arguments).result = .ok () ∧ (host.run program arguments).tree = after ↔
      host.Succeeds program arguments after := by
  unfold run Succeeds
  cases starts : host.startTool program arguments with
  | error cause => simp
  | ok tool =>
    simp only [Except.ok.injEq]
    constructor
    · rintro ⟨succeeded, rfl⟩
      refine ⟨tool, (tool.run arguments host.tree).2, rfl, rfl, ?_⟩
      cases success : (tool.run arguments host.tree).2.isSuccess with
      | true => rfl
      | false => simp [success] at succeeded
    · rintro ⟨_, status, rfl, ran, succeeded⟩
      simp [ran, succeeded]

theorem calls_of_run_ok (succeeded : (host.run program arguments).result = .ok ()) :
    (host.run program arguments).calls = [⟨program, arguments⟩] := by
  obtain ⟨tool, status, starts, -, -⟩ := run_eq_ok_iff.mp ⟨succeeded, rfl⟩
  simp [run, starts]

end Host

/-! ## Builds -/

namespace Toolchain
variable (toolchain : Toolchain) (host : Host) (artifacts : Artifacts)

/-- The calls of a build in which both programs can be started. -/
def plannedCalls : List Call :=
  [⟨toolchain.assembler, assemblerArguments artifacts⟩, ⟨toolchain.linker, linkerArguments artifacts⟩]

/-- The assembler's run. -/
def assembling : Effect Unit :=
  host.run toolchain.assembler (assemblerArguments artifacts)

/-- The linker's run on the files that the assembler left. -/
def linking : Effect Unit :=
  { host with tree := (toolchain.assembling host artifacts).tree }.run toolchain.linker
    (linkerArguments artifacts)

section
variable {toolchain host artifacts}

/-- When the assembler fails the build ends with it. -/
theorem build_of_error {error : Error} (failed : (toolchain.assembling host artifacts).result = .error error) :
    toolchain.build host artifacts = toolchain.assembling host artifacts := by
  unfold assembling at failed ⊢
  simp only [build, failed]

/-- When it succeeds the linker follows, and then the object file is removed. -/
theorem build_of_ok (succeeded : (toolchain.assembling host artifacts).result = .ok ()) :
    (toolchain.build host artifacts).tree =
        (removeObject (toolchain.linking host artifacts).tree artifacts.object).1 ∧
      (toolchain.build host artifacts).calls =
        (toolchain.assembling host artifacts).calls ++ (toolchain.linking host artifacts).calls ∧
      (toolchain.build host artifacts).result = (toolchain.linking host artifacts).result := by
  unfold linking
  unfold assembling at succeeded ⊢
  simp only [build, succeeded, and_self]

end

theorem removeObject_cases (tree : FileTree) (object : Path) :
    tree.remove object = .ok (removeObject tree object).1 ∨
      (∃ cause, tree.remove object = .error cause) ∧ (removeObject tree object).1 = tree := by
  unfold removeObject
  cases tree.remove object with
  | ok after => exact .inl rfl
  | error cause => exact .inr ⟨⟨cause, rfl⟩, rfl⟩

/-- The planned calls are made in order, as far as it comes to them. -/
theorem calls_build : (toolchain.build host artifacts).calls <+: toolchain.plannedCalls artifacts := by
  cases assembled : (toolchain.assembling host artifacts).result with
  | error error =>
    rw [build_of_error assembled]
    exact (host.calls_run _ _).trans (List.prefix_append _ [_])
  | ok done =>
    have assemblerCall : (toolchain.assembling host artifacts).calls = _ := Host.calls_of_run_ok assembled
    rw [(build_of_ok assembled).2.1, assemblerCall]
    exact (List.prefix_append_right_inj _).mpr (Host.calls_run _ _ _)

/-- The calls carry the files on from where they are, and after them at most the object
file is removed. -/
theorem carries_build (tree : FileTree) :
    ∃ left, host.Carries tree (toolchain.build { host with tree } artifacts).calls left ∧
      ((toolchain.build { host with tree } artifacts).tree = left ∨
        left.remove artifacts.object = .ok (toolchain.build { host with tree } artifacts).tree) := by
  have assembles : host.Carries tree (toolchain.assembling { host with tree } artifacts).calls
      (toolchain.assembling { host with tree } artifacts).tree := host.carries_run tree _ _
  cases assembled : (toolchain.assembling { host with tree } artifacts).result with
  | error error =>
    rw [build_of_error assembled]
    exact ⟨_, assembles, .inl rfl⟩
  | ok done =>
    obtain ⟨after, calls, -⟩ := build_of_ok assembled
    have links : host.Carries (toolchain.assembling { host with tree } artifacts).tree
        (toolchain.linking { host with tree } artifacts).calls
        (toolchain.linking { host with tree } artifacts).tree := host.carries_run _ _ _
    rw [after, calls]
    exact ⟨_, assembles.append links, (removeObject_cases _ _).symm.imp_left And.right⟩

/-- The assembler can be started and succeeds, and then, on the files that it left, so
does the linker. -/
def BothSucceed : Prop :=
  ∃ assembled linked, host.Succeeds toolchain.assembler (assemblerArguments artifacts) assembled ∧
    { host with tree := assembled }.Succeeds toolchain.linker (linkerArguments artifacts) linked

theorem build_eq_ok_iff : (toolchain.build host artifacts).result = .ok () ↔
    toolchain.BothSucceed host artifacts := by
  constructor
  · intro built
    cases outcome : (toolchain.assembling host artifacts).result with
    | error error =>
      rw [build_of_error outcome, outcome] at built
      cases built
    | ok done =>
      rw [(build_of_ok outcome).2.2] at built
      exact ⟨_, _, Host.run_eq_ok_iff.mp ⟨outcome, rfl⟩, Host.run_eq_ok_iff.mp ⟨built, rfl⟩⟩
  · rintro ⟨assembled, linked, assembles, links⟩
    obtain ⟨outcome, rfl⟩ := Host.run_eq_ok_iff.mpr assembles
    obtain ⟨built, -⟩ := Host.run_eq_ok_iff.mpr links
    rw [(build_of_ok outcome).2.2]
    exact built

/-! ## Files that a build leaves alone -/

/-- Without a call nothing changes: only behind the assembler's is anything removed. -/
theorem tree_of_no_calls (none : (toolchain.build host artifacts).calls = []) :
    (toolchain.build host artifacts).tree = host.tree := by
  cases assembled : (toolchain.assembling host artifacts).result with
  | error error =>
    rw [build_of_error assembled] at none ⊢
    unfold assembling Host.run at none ⊢
    cases starts : host.startTool toolchain.assembler (assemblerArguments artifacts) with
    | error cause => rfl
    | ok tool => simp [starts] at none
  | ok done =>
    have called : (toolchain.assembling host artifacts).calls = _ := Host.calls_of_run_ok assembled
    simp [(build_of_ok assembled).2.1, called] at none

theorem outputs_of_planned {call : Call} (planned : call ∈ toolchain.plannedCalls artifacts) :
    ∀ path ∈ outputArguments call.arguments,
      path ∈ [artifacts.assembly, artifacts.object, artifacts.executable] := by
  intro path member
  have otherFlag : Utf8.encode "-felf64" ≠ Utf8.encode "-o" := by decide
  simp only [plannedCalls, List.mem_cons, List.not_mem_nil, or_false] at planned
  rcases planned with rfl | rfl
  · -- An assembly that is itself called `-o` makes the flag behind it look like a path.
    simp only [assemblerArguments, outputArguments, otherFlag, ↓reduceIte] at member
    split at member
    · rename_i called
      simp only [List.mem_cons, List.not_mem_nil, or_false, ← called] at member ⊢
      exact member.imp_right .inl
    · simp only [List.mem_singleton] at member
      simp [member]
  · simp only [linkerArguments, outputArguments, ↓reduceIte] at member
    split at member
    · simp only [List.mem_cons, List.not_mem_nil, or_false] at member ⊢
      exact .inr member.symm
    · simp only [List.mem_singleton] at member
      simp [member]

/-- With tools that are confined only the three artifacts can change. -/
theorem keepsBut_build (confined : ∀ name tool, host.tool? name = some tool → tool.Confined) :
    FileTree.KeepsBut [artifacts.assembly, artifacts.object, artifacts.executable] host.tree
      (toolchain.build host artifacts).tree := by
  obtain ⟨left, carries, outcome⟩ := toolchain.carries_build host artifacts host.tree
  have calls := carries.keepsBut confined fun call member =>
    toolchain.outputs_of_planned artifacts ((toolchain.calls_build host artifacts).subset member)
  rcases outcome with same | removed
  · rw [same]
    exact calls
  · have removal := FileTree.keepsBut_of_remove removed
    exact calls.trans (removal.mono fun path member => by simp_all)

end Toolchain
end ArithAsm
