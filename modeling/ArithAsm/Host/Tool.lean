import ArithAsm.Host.BufferedWriter
import ArithAsm.Host.FileTree
import ArithAsm.Text.Quoted

/-! Other programs. A tool is known by what it does to the tree of files when it
is run with arguments, and by how it ends. -/
namespace ArithAsm

/-- A program that can be run. -/
structure Tool where
  run : List Bytes → FileTree → FileTree × Status

/-- The arguments that stand right behind a `-o`, one that is a `-o` itself
included. -/
def outputArguments : List Bytes → List Bytes
  | flag :: path :: rest =>
    let later := outputArguments (path :: rest)
    if flag = Utf8.encode "-o" then path :: later else later
  | _ => []

/-- Writes `content` to the file at a path, unless that cannot be created. -/
def FileTree.overwrite (tree : FileTree) (path : Path) (content : Bytes) : FileTree :=
  match tree.create path with
  | .error _ => tree
  | .ok (created, place) => created.store place content

/-- Writes `content` to each of the paths in order. One that cannot be created is
passed over. -/
def FileTree.writeAll (tree : FileTree) (paths : List Path) (content : Bytes) : FileTree :=
  paths.foldl (·.overwrite · content) tree

/-- A tool that may write `content` to every path behind a `-o` and then ends with
`status`. -/
def Tool.scripted (content : Option Bytes) (status : Status) : Tool where
  run arguments tree :=
    match content with
    | some content => (tree.writeAll (outputArguments arguments) content, status)
    | none => (tree, status)

/-- The files and programs that a run finds. None of the files can be run: the
programs are known by their names and stand outside of the tree. -/
structure Host where
  tree : FileTree
  tool? : String → Option Tool
  /-- What the run's own writing to files goes to. -/
  disk : Medium

/-- What writing to the file or the device at a place goes to. -/
def Host.mediumAt (host : Host) (tree : FileTree) (place : Place) : Medium :=
  match tree.node? place with
  | some (.device device) => device.medium
  | _ => host.disk

/-- The longest argument that a program can be given, in bytes. -/
def maxArgument : Nat := 131071

/-- The program of a given name. A name with a slash is a path in the tree; a
bare `.` or `..` is a directory. -/
def Host.findTool (host : Host) (program : String) : Except IoError Tool :=
  let name := Utf8.encode program
  if name.contains Byte.slash then
    (host.tree.lookUp name).bind fun _ => .error .permissionDenied
  else if FileTree.maxName < name.length then .error .nameTooLong
  else if name = Path.here || name = Path.up then .error .permissionDenied
  else (host.tool? program).elim (.error .notFound) .ok

/-- The program of a given name, if it can be started with the arguments. -/
def Host.startTool (host : Host) (program : String) (arguments : List Bytes) :
    Except IoError Tool :=
  if (Utf8.encode program :: arguments).any (·.contains 0) then .error .zeroByteInArgument
  else
    (host.findTool program).bind fun tool =>
      if arguments.any (maxArgument < ·.length) then .error .argumentTooLong else .ok tool

/-- A program that was run, with its arguments. -/
structure Call where
  program : String
  arguments : List Bytes
deriving DecidableEq, Repr

/-- What an activity did: the files it leaves, the programs it ran, the records
it made, and how it ended. -/
structure Effect (α : Type) where
  tree : FileTree
  calls : List Call
  records : List Record
  result : Except Error α

/-- Runs a program and waits for its end. It is an error if it cannot be started
and if it does not succeed. -/
def Host.run (host : Host) (program : String) (arguments : List Bytes) : Effect Unit :=
  let records : List Record :=
    [⟨.debug, .toolchain, s!"running {program} {Text.quotedList arguments}"⟩]
  match host.startTool program arguments with
  | .error cause => ⟨host.tree, [], records, .error (.spawnTool program cause)⟩
  | .ok tool =>
    let (tree, status) := tool.run arguments host.tree
    ⟨tree, [⟨program, arguments⟩], records,
      if status.isSuccess then .ok () else .error (.toolFailed program status)⟩

end ArithAsm
