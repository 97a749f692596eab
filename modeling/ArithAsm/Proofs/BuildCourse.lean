import ArithAsm.Proofs.ArtifactNames
import ArithAsm.Proofs.Building

/-! The course of a build. The assembler is run on the assembly. If it fails the build ends there;
otherwise the linker is run on what the assembler left, and then the object file is removed, however
the linking went and whether it can be removed or not. The derived names stand beside an assembly
that is a file, so tools that are confined to their outputs leave it alone, as long as the assembly
itself is not taken for the flag in front of an output. -/
namespace ArithAsm

/-! ## One program -/

/-- What running a program comes to: the files it leaves, the calls made and the result. -/
inductive Host.Runs (host : Host) (program : String) (arguments : List Bytes) :
    FileTree → List Call → Except Error Unit → Prop where
  | unstarted {cause : IoError} (refused : host.startTool program arguments = .error cause) :
      Runs host program arguments host.tree [] (.error (.spawnTool program cause))
  | failed {tool : Tool} {after : FileTree} {status : Status}
      (starts : host.startTool program arguments = .ok tool)
      (runs : tool.run arguments host.tree = (after, status)) (fails : status.isSuccess = false) :
      Runs host program arguments after [⟨program, arguments⟩] (.error (.toolFailed program status))
  | succeeded {tool : Tool} {after : FileTree} {status : Status}
      (starts : host.startTool program arguments = .ok tool)
      (runs : tool.run arguments host.tree = (after, status)) (succeeds : status.isSuccess = true) :
      Runs host program arguments after [⟨program, arguments⟩] (.ok ())

namespace Toolchain
variable {toolchain : Toolchain} {host : Host} {artifacts : Artifacts}

/-! ## Both programs -/

/-- What a build comes to. When the assembler fails the linker is not run and nothing is removed.
When it succeeds the linker is run and decides the result; after that the object file is removed,
or cannot be, and then the files are as the linker left them. -/
inductive Course (toolchain : Toolchain) (host : Host) (artifacts : Artifacts) :
    FileTree → List Call → Except Error Unit → Prop where
  | stopped {left : FileTree} {calls : List Call} {error : Error}
      (assembles : host.Runs toolchain.assembler
        [Utf8.encode "-felf64", artifacts.assembly, Utf8.encode "-o", artifacts.object]
        left calls (.error error)) :
      Course toolchain host artifacts left calls (.error error)
  | finished {assembled linked left : FileTree} {calls more : List Call} {result : Except Error Unit}
      (assembles : host.Runs toolchain.assembler
        [Utf8.encode "-felf64", artifacts.assembly, Utf8.encode "-o", artifacts.object]
        assembled calls (.ok ()))
      (links : { host with tree := assembled }.Runs toolchain.linker
        [Utf8.encode "-o", artifacts.executable, artifacts.object] linked more result)
      (clears : linked.remove artifacts.object = .ok left ∨
        (∃ cause, linked.remove artifacts.object = .error cause) ∧ left = linked) :
      Course toolchain host artifacts left (calls ++ more) result

end Toolchain

end ArithAsm
