import ArithAsm.Command.Run

/-! The command line. The files that the arguments name are looked up, the run
is worked out on that picture of them, and what it prints and writes is carried
over. No assembler or linker is at hand here, so a build ends after the assembly
has been written. -/
namespace ArithAsm.FrontEnd

/-- The place that stands for the working directory, which no path can name. -/
def workingPlace : Place :=
  [Path.here]

/-- What stands at a path. The content of a file is read only if it is wanted. -/
def probe (path : String) (contentWanted : Bool) : IO (Option Node) := do
  match ← (IO.FS.Handle.mk path .read).toBaseIO with
  | .error _ => return none
  | .ok handle =>
    match ← (if contentWanted then handle.readBinToEnd else handle.read 1).toBaseIO with
    | .error _ => return some .directory
    | .ok content => return some (.file content.data.toList)

/-- Every path on the way to `path`, from the outside in. -/
def waypoints (path : Path) : List Path :=
  let pieces := Path.pieces path
  (List.range pieces.length).map fun count => Path.ofPieces (pieces.take (count + 1))

/-- Adds what stands at `path`, and on the way there, to the picture. -/
def look (tree : FileTree) (path : Path) (contentWanted : Bool) : IO FileTree :=
  (waypoints path).foldlM
    (fun tree waypoint => do
      match tree.resolve waypoint, ← probe (Utf8.lossy waypoint) (contentWanted && waypoint == path) with
      | .ok target, some node =>
        return if target.slashed || target.dotted then tree else tree.put target.place node
      | _, _ => return tree)
    tree

/-- Carries over the file at `path` if the run changed it. -/
def carryOver (before after : FileTree) (path : Path) : IO Unit :=
  match after.resolve path with
  | .error _ => return
  | .ok target =>
    match after.node? target.place with
    | some (.file content) =>
      if before.node? target.place = some (.file content) then return
      else IO.FS.writeBinFile (Utf8.lossy path) ⟨content.toArray⟩
    | _ => return

/-- Prints what the run shows and gives its exit code. -/
def report (outcome : Outcome) : IO UInt32 := do
  IO.print outcome.stdout
  for record in outcome.records do
    IO.eprintln record.text
  match outcome.ending with
  | .exited code => return code.toUInt32
  | .refused code =>
    IO.eprintln "usage: krisp [-v]... sim|comp INPUT [--max-size BYTES] [-o FILE] [-S] [-t] [-d]"
    return code.toUInt32
  | .aborted _ => return 101

end ArithAsm.FrontEnd

open ArithAsm ArithAsm.FrontEnd in
/-- Runs the command on the files at hand. -/
def main (arguments : List String) : IO UInt32 := do
  let empty : FileTree := ⟨workingPlace, [(workingPlace, .directory)], []⟩
  match Invocation.ofArguments (arguments.map Utf8.encode) with
  | .error stop => report (stop.outcome ⟨empty, fun _ => none, .reliable⟩)
  | .ok invocation =>
    let before ← look (← look empty invocation.outputPath false) invocation.inputPath true
    let outcome := invocation.run ⟨before, fun _ => none, .reliable⟩
    carryOver before outcome.tree invocation.outputPath
    report outcome
