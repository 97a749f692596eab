import ArithAsm.Build.Artifacts
import ArithAsm.Host.Tool

/-! Building an executable with an assembler and a linker. -/
namespace ArithAsm

/-- The programs that a build runs. -/
structure Toolchain where
  assembler : String
  linker : String
deriving DecidableEq, Repr

namespace Toolchain

/-- The usual assembler and linker. -/
def standard : Toolchain :=
  ⟨"nasm", "ld"⟩

/-- The arguments with which the assembler makes the object file. -/
def assemblerArguments (artifacts : Artifacts) : List Bytes :=
  [Utf8.encode "-felf64", artifacts.assembly, Utf8.encode "-o", artifacts.object]

/-- The arguments with which the linker makes the executable. -/
def linkerArguments (artifacts : Artifacts) : List Bytes :=
  [Utf8.encode "-o", artifacts.executable, artifacts.object]

/-- Removes the object file. That it cannot be removed is recorded and nothing
more. -/
def removeObject (tree : FileTree) (object : Path) : FileTree × List Record :=
  match tree.remove object with
  | .ok tree => (tree, [])
  | .error cause =>
    (tree, [⟨.warn, .toolchain,
      s!"unable to remove object file `{Utf8.lossy object}`: {cause.message}"⟩])

/-- Assembles and links. The object file is removed after linking, whether that
succeeded or not. -/
def build (toolchain : Toolchain) (host : Host) (artifacts : Artifacts) : Effect Unit :=
  let assembled := host.run toolchain.assembler (assemblerArguments artifacts)
  match assembled.result with
  | .error _ => assembled
  | .ok () =>
    let linked :=
      { host with tree := assembled.tree }.run toolchain.linker (linkerArguments artifacts)
    let (tree, removal) := removeObject linked.tree artifacts.object
    let closing : List Record :=
      match linked.result with
      | .error _ => []
      | .ok () => [⟨.info, .toolchain, s!"built `{Utf8.lossy artifacts.executable}`"⟩]
    { tree
      calls := assembled.calls ++ linked.calls
      records := assembled.records ++ linked.records ++ removal ++ closing
      result := linked.result }

end Toolchain
end ArithAsm
