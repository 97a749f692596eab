import ArithAsm.Host.BufferedWriter
import ArithAsm.Host.Path
import ArithAsm.Source.Reading

/-! A tree of files without links, and what opening, creating and removing a
path does to it. A path is followed piece by piece from the root or from the
working directory, through directories only. Each of these can be denied for
lack of permission. -/
namespace ArithAsm

/-- Something in the stead of a file that keeps nothing. -/
structure Device where
  /-- Reading brings bytes without end rather than none. -/
  endless : Bool
  /-- There is room for what is written. -/
  roomy : Bool
deriving DecidableEq, Repr

/-- A device takes all that is put out to it or, where there is no room, nothing. -/
def Device.medium (device : Device) : Medium :=
  fun _ bytes => if device.roomy || bytes.isEmpty then none else some (0, .noSpace)

/-- What a place in the tree holds. -/
inductive Node where
  | directory
  | file (content : Bytes)
  | device (device : Device)
deriving DecidableEq, Repr

/-- Names from the root to a place, innermost first. -/
abbrev Place := List Bytes

/-- What one needs permission for. -/
inductive Access where
  /-- Reading a file or the names in a directory. -/
  | read
  /-- Writing a file, or making and removing what stands in a directory. -/
  | write
  /-- Following paths through a directory. -/
  | enter
deriving DecidableEq, Repr

/-- A tree of files. The root is a directory whether it is listed or not. What is
not denied is permitted. -/
structure FileTree where
  workingDirectory : Place
  nodes : List (Place × Node)
  denials : List (Place × Access)
deriving DecidableEq, Repr

namespace FileTree

/-- What stands at a place. -/
def node? (tree : FileTree) (place : Place) : Option Node :=
  if place = [] then some .directory else tree.nodes.lookup place

/-- Whether there is permission for an access to what stands at a place. -/
def permits (tree : FileTree) (place : Place) (access : Access) : Bool :=
  !tree.denials.contains (place, access)

/-- Puts a node at a place, in the stead of any that is there. -/
def put (tree : FileTree) (place : Place) (node : Node) : FileTree :=
  { tree with nodes := (place, node) :: tree.nodes.filter (·.1 != place) }

/-- Takes away what stands at a place. -/
def erase (tree : FileTree) (place : Place) : FileTree :=
  { tree with nodes := tree.nodes.filter (·.1 != place) }

/-! ## Following a path -/

/-- The longest name that a file can have, in bytes. -/
def maxName : Nat := 255

/-- The longest path that can be followed, in bytes. -/
def maxPath : Nat := 4095

/-- Finds what stands at a place. A name that is too long is told apart from one
that is not there. -/
def find (tree : FileTree) (place : Place) : Except IoError Node :=
  if maxName < (place.headD []).length then .error .nameTooLong
  else (tree.node? place).elim (.error .notFound) .ok

/-- One step from a place, at which a directory must stand that can be entered. -/
def descend (tree : FileTree) (place : Place) (piece : Bytes) : Except IoError Place :=
  (tree.find place).bind fun
    | .directory =>
      if tree.permits place .enter then
        .ok (if Path.isIdle piece then place
          else if piece = Path.up then place.tail
          else piece :: place)
      else .error .permissionDenied
    | _ => .error .notDirectory

/-- Steps in order. -/
def follow (tree : FileTree) (place : Place) : List Bytes → Except IoError Place
  | [] => .ok place
  | piece :: rest => (tree.descend place piece).bind (tree.follow · rest)

/-- The place that a path leads to, where there need be nothing, and how the path
comes to name it. -/
structure Target where
  place : Place
  /-- The path ends in a slash. -/
  slashed : Bool
  /-- The place is named as the root, or by a final `.` or `..`. -/
  dotted : Bool
deriving DecidableEq, Repr

/-- Follows a path up to its last piece. -/
def resolve (tree : FileTree) (path : Path) : Except IoError Target :=
  if path.contains 0 then .error .zeroByteInName
  else if path = [] then .error .notFound
  else if maxPath < path.length then .error .nameTooLong
  else
    let origin := if path.head? = some Byte.slash then [] else tree.workingDirectory
    match (Path.pieces path).filter (· != []) with
    | [] => .ok ⟨[], true, true⟩
    | pieces =>
      (tree.follow origin pieces).map fun place =>
        { place
          slashed := path.getLast? = some Byte.slash
          dotted := pieces.getLast? = some Path.here || pieces.getLast? = some Path.up }

/-! ## Operations -/

/-- What reading a node brings, unless that has no end. A directory can be opened
and not read. -/
def readings? : Node → Option (List Reading)
  | .directory => some [.failure .isDirectory]
  | .file content => some [.data content]
  | .device device => if device.endless then none else some []

/-- What a path leads to, and where that stands. -/
def locate (tree : FileTree) (path : Path) : Except IoError (Place × Node) :=
  (tree.resolve path).bind fun target =>
    (tree.find target.place).bind fun
      | .directory => .ok (target.place, .directory)
      | node => if target.slashed then .error .notDirectory else .ok (target.place, node)

/-- What a path leads to, whether it can be read or not. -/
def lookUp (tree : FileTree) (path : Path) : Except IoError Node :=
  (tree.locate path).map (·.2)

/-- Opens a path for reading. -/
def openFile (tree : FileTree) (path : Path) : Except IoError Node :=
  (tree.locate path).bind fun (place, node) =>
    if tree.permits place .read then .ok node else .error .permissionDenied

/-- Puts an empty file where nothing stands, for which there is every permission. -/
def makeFile (tree : FileTree) (place : Place) : FileTree :=
  { tree.put place (.file []) with denials := tree.denials.filter (·.1 != place) }

/-- Opens a path for writing, and tells the place that it leads to. A file that is
there is emptied, and where nothing is there a file is made, for which the directory
must be writable. That the path names a directory is told before its last name is
looked up. -/
def create (tree : FileTree) (path : Path) : Except IoError (FileTree × Place) :=
  (tree.resolve path).bind fun target =>
    if target.slashed || target.dotted then .error .isDirectory
    else
      match tree.find target.place with
      | .error .notFound =>
        if tree.permits target.place.tail .write then .ok (tree.makeFile target.place, target.place)
        else .error .permissionDenied
      | .error cause => .error cause
      | .ok .directory => .error .isDirectory
      | .ok node =>
        if !tree.permits target.place .write then .error .permissionDenied
        else
          match node with
          | .file _ => .ok (tree.put target.place (.file []), target.place)
          | _ => .ok (tree, target.place)

/-- Lets the file at a place hold `content`. Anything else that stands there keeps
nothing of it. -/
def store (tree : FileTree) (place : Place) (content : Bytes) : FileTree :=
  match tree.node? place with
  | some (.file _) => tree.put place (.file content)
  | _ => tree

/-- Removes the file at a path, for which the directory that it stands in must be
writable. -/
def remove (tree : FileTree) (path : Path) : Except IoError FileTree :=
  (tree.resolve path).bind fun target =>
    if target.dotted then .error .isDirectory
    else
      (tree.find target.place).bind fun node =>
        if target.slashed then .error (if node = .directory then .isDirectory else .notDirectory)
        else if !tree.permits target.place.tail .write then .error .permissionDenied
        else if node = .directory then .error .isDirectory
        else .ok (tree.erase target.place)

end FileTree

/-- Reads the source file at a path, of at most `limit` bytes. An input without
end has more bytes than any limit. -/
def readSource (tree : FileTree) (path : Path) (limit : UInt64) :
    Except Abort (List Record × Except Error Bytes) :=
  match tree.openFile path with
  | .error cause => .ok ([], .error (.readSource path cause))
  | .ok node =>
    match FileTree.readings? node with
    | some readings => readBounded readings path limit
    | none =>
      (bytesWanted limit).map fun _ => ([], .error (.sourceTooLarge path limit.toNat))

end ArithAsm
