import ArithAsm.Proofs.Command.Course

/-! What a compilation does to its own input. The names of the object file and of the
executable come from the output alone, so an input that is apart from the output can
still be one of these two. In that case, and in no other, tools that are confined to
their outputs can take the program text away. -/
namespace ArithAsm

namespace Invocation
variable {invocation : Invocation} {host : Host} {ending : Ending} {tree : FileTree} {calls : List Call}

theorem keepsBut_of_writing {source : Bytes} {refusal : Option IoError}
    (wrote : invocation.writing host source = (tree, refusal)) :
    FileTree.KeepsBut [invocation.outputPath] host.tree tree := by
  have writes := host.keepsBut_writeListing invocation.outputPath
    (compile Listing.sink .empty source).state
  unfold writing at wrote
  rwa [wrote] at writes

/-- Only the output changes, or calls were made and the other artifacts may have. -/
theorem Course.keepsBut (course : invocation.Course host ending tree calls)
    (confined : ∀ name tool, host.tool? name = some tool → tool.Confined) :
    FileTree.KeepsBut [invocation.outputPath] host.tree tree ∨
      invocation.assemblyOnly = false ∧ calls ≠ [] ∧
        FileTree.KeepsBut [invocation.outputPath, (Artifacts.ofAssembly invocation.outputPath).object,
          (Artifacts.ofAssembly invocation.outputPath).executable] host.tree tree := by
  cases course with
  | notText | unlimited | overflow | unread | malformed => exact .inl (.refl _ _)
  | unwritten _ _ wrote | written _ _ wrote => exact .inl (keepsBut_of_writing wrote)
  | @built source program written _ _ wrote more =>
    have writes := keepsBut_of_writing wrote
    by_cases called : (invocation.building host written).calls = []
    · have same : (invocation.building host written).tree = written :=
        Toolchain.standard.tree_of_no_calls _ _ called
      rw [same]
      exact .inl writes
    · have builds : FileTree.KeepsBut _ written (invocation.building host written).tree :=
        Toolchain.standard.keepsBut_build { host with tree := written } _ confined
      have assembly : ∀ path ∈ [invocation.outputPath], path ∈ [invocation.outputPath,
          (Artifacts.ofAssembly invocation.outputPath).object,
          (Artifacts.ofAssembly invocation.outputPath).executable] := by simp
      exact .inr ⟨more, called, (writes.mono assembly).trans builds⟩

end Invocation

/-- Whatever the assembly in `output.asm` is, building it removes a file `output.o` that was there
before. -/
theorem object_beside_output_removed (content : Bytes) :
    let tree : FileTree := ⟨[], [([Utf8.encode "output.asm"], .file content),
      ([Utf8.encode "output.o"], .file (Utf8.encode "1"))], []⟩
    let host := { Host.obliging "output.o" "1" with tree }
    (Toolchain.standard.build host (.ofAssembly (Utf8.encode "output.asm"))).tree.lookUp
      (Utf8.encode "output.o") = .error .notFound := by
  intro tree host
  have assembled : (Toolchain.standard.assembling host
      (.ofAssembly (Utf8.encode "output.asm"))).result = .ok () := rfl
  have linked : (Toolchain.standard.linking host (.ofAssembly (Utf8.encode "output.asm"))).tree =
      ⟨[], [([Utf8.encode "output"], .file []), ([Utf8.encode "output.o"], .file []),
        ([Utf8.encode "output.asm"], .file content)], []⟩ := rfl
  rw [(Toolchain.build_of_ok assembled).1, linked]
  rfl

/-- With tools that are confined to their outputs an input that is apart from the output
is as it was after a compilation, unless a tool was called and the input is the object
file or the executable. -/
theorem compilation_keeps_input {arguments : List Bytes} {invocation : Invocation} {host : Host}
    {node : Node} (accepted : Invocation.ofArguments arguments = .ok invocation)
    (compiles : invocation.mode = .compile)
    (confined : ∀ name tool, host.tool? name = some tool → tool.Confined)
    (held : host.tree.lookUp invocation.inputPath = .ok node)
    (apart : ¬ host.tree.SameFile invocation.inputPath invocation.outputPath) :
    (run host arguments).tree.lookUp invocation.inputPath = .ok node ∨
      invocation.assemblyOnly = false ∧ (run host arguments).calls ≠ [] ∧
        (host.tree.SameFile invocation.inputPath (Artifacts.ofAssembly invocation.outputPath).object ∨
          host.tree.SameFile invocation.inputPath
            (Artifacts.ofAssembly invocation.outputPath).executable) := by
  have course := Invocation.course_of_arguments host accepted compiles
  rcases course.keepsBut confined with keeps | ⟨more, called, keeps⟩
  · exact .inl (keeps.lookUp held (by simpa using apart))
  by_cases object : host.tree.SameFile invocation.inputPath
      (Artifacts.ofAssembly invocation.outputPath).object
  · exact .inr ⟨more, called, .inl object⟩
  by_cases executable : host.tree.SameFile invocation.inputPath
      (Artifacts.ofAssembly invocation.outputPath).executable
  · exact .inr ⟨more, called, .inr executable⟩
  exact .inl (keeps.lookUp held (by simp [apart, object, executable]))

/-- A program called `p` is compiled and built, and is still there. -/
theorem built_input_is_kept :
    (run (.obliging "p" "1") (["comp", "p"].map Utf8.encode)).tree.lookUp (Utf8.encode "p") =
      .ok (.file (Utf8.encode "1")) := by
  have accepted : Invocation.ofArguments (["comp", "p"].map Utf8.encode) =
      .ok ⟨.compile, Utf8.encode "p", none, none, false, false, false, 0⟩ := rfl
  rcases compilation_keeps_input accepted rfl (fun _ _ => Host.confined_obliging)
    (show (Host.obliging "p" "1").tree.lookUp _ = .ok (.file (Utf8.encode "1")) from rfl)
    (by decide +kernel) with kept | ⟨-, -, object | executable⟩
  · exact kept
  · exact absurd object (by decide +kernel)
  · exact absurd executable (by decide +kernel)

/-- A program called `output.o` is taken for the object file of `output.asm`: the assembler
writes over it, and after the linking it is removed. -/
theorem input_named_as_object_is_removed :
    let input := Utf8.encode "output.o"
    let arguments := [Utf8.encode "comp", input]
    let host := Host.obliging "output.o" "1"
    (∀ program tool, host.tool? program = some tool → tool.Confined) ∧
      Invocation.ofArguments arguments = .ok ⟨.compile, input, none, none, false, false, false, 0⟩ ∧
      host.tree.lookUp input = .ok (.file (Utf8.encode "1")) ∧
      ¬ host.tree.SameFile input (Utf8.encode "output.asm") ∧
      (run host arguments).tree.lookUp input = .error .notFound := by
  intro input arguments host
  have accepted : Invocation.ofArguments arguments =
      .ok ⟨.compile, input, none, none, false, false, false, 0⟩ := rfl
  refine ⟨fun _ _ => Host.confined_obliging, accepted, rfl, by decide +kernel, ?_⟩
  have course := Invocation.course_of_arguments host accepted rfl
  obtain ⟨_, refused, -⟩ | ⟨written, wrote, ⟨only, -⟩ | ⟨-, -, tree, -⟩⟩ := course.of_program
    (by decide +kernel) (Invocation.limitBelowLargest_default rfl) ⟨.inl rfl, _, rfl, by decide⟩ parse_one
  · cases (Host.writeListing_unrefused rfl fun _ _ => rfl).symm.trans refused
  · cases only
  · obtain ⟨content, stored⟩ : ∃ content, written =
        (host.tree.makeFile [Utf8.encode "output.asm"]).store [Utf8.encode "output.asm"] content :=
      ⟨_, (congrArg (·.1) wrote).symm.trans (Host.tree_of_writeListing rfl _)⟩
    rw [tree, stored]
    exact object_beside_output_removed content

end ArithAsm
