import ArithAsm.Host.Path
import ArithAsm.Text.Utf8

/-! The files that come of building one program. -/
namespace ArithAsm

/-- Where the assembly is, and where the object file and the executable go. -/
structure Artifacts where
  assembly : Path
  object : Path
  executable : Path
deriving DecidableEq, Repr

/-- Names the object file and the executable after the assembly: `output.asm`
gives `output.o` and `output`. Where that is the assembly itself, the object
gets `.o` at the very end and the executable the extension `out`. -/
def Artifacts.ofAssembly (assembly : Path) : Artifacts :=
  let object := Path.withExtension assembly (Utf8.encode "o")
  let executable := Path.withExtension assembly []
  { assembly
    object := if Path.alike object assembly then assembly ++ Utf8.encode ".o" else object
    executable :=
      if Path.alike executable assembly then Path.withExtension assembly (Utf8.encode "out")
      else executable }

end ArithAsm
