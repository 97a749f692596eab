import ArithAsm.Text.Bytes

/-! Path names. A path is a byte string whose pieces stand between slashes. Two
paths are alike when their components are: repeated and final slashes do not
count, nor does `.` except in front. -/
namespace ArithAsm

/-- A path as it is written. -/
abbrev Path := Bytes

/-- A part of a path that says where to go. -/
inductive Component where
  | root
  | here
  | up
  | name (bytes : Bytes)
deriving DecidableEq, Repr

namespace Path

/-- The piece that means the directory itself. -/
def here : Bytes := [Byte.dot]

/-- The piece that means the directory above. -/
def up : Bytes := [Byte.dot, Byte.dot]

/-- What stands between the slashes. -/
def pieces (path : Path) : List Bytes :=
  path.splitOn Byte.slash

/-- The path with the given pieces. -/
def ofPieces (pieces : List Bytes) : Path :=
  [Byte.slash].intercalate pieces

/-- Whether a piece leads nowhere. -/
def isIdle (piece : Bytes) : Bool :=
  piece == [] || piece == here

/-- The component that a piece other than an idle one stands for. -/
def component (piece : Bytes) : Component :=
  if piece = up then .up else .name piece

/-- The components of a path. A slash in front is the root; a `.` in front
stays. -/
def components (path : Path) : List Component :=
  let pieces := pieces path
  let front : List Component :=
    if path.head? = some Byte.slash then [.root]
    else if pieces.head? = some here then [.here]
    else []
  front ++ (pieces.filter (!isIdle ·)).map component

/-- Whether two paths have the same components. -/
def alike (a b : Path) : Bool :=
  components a == components b

/-- The last piece that leads somewhere, unless it is `..`, and the pieces
before it. -/
def leaf? (path : Path) : Option (List Bytes × Bytes) :=
  match (pieces path).reverse.dropWhile isIdle with
  | [] => none
  | last :: before => if last = up then none else some (before.reverse, last)

/-- The name of the file that the path leads to. -/
def fileName? (path : Path) : Option Bytes :=
  (leaf? path).map (·.2)

/-- A file name's stem and its extension, which is what stands after the last
dot. A name without a dot, or with none but in front, has no extension. -/
def splitName (name : Bytes) : Bytes × Option Bytes :=
  let after := name.reverse.takeWhile (· != Byte.dot)
  let before := (name.reverse.dropWhile (· != Byte.dot)).drop 1
  if before.isEmpty then (name, none) else (before.reverse, some after.reverse)

/-- The path cut off right after the stem of its file name, with `extension`
behind a dot unless it is empty. A path without a file name stays as it is. -/
def setExtension (path : Path) (extension : Bytes) : Path :=
  match leaf? path with
  | none => path
  | some (before, name) =>
    let cut := ofPieces (before ++ [(splitName name).1])
    if extension.isEmpty then cut else cut ++ Byte.dot :: extension

/-- The path with its extension replaced. As many bytes as the old extension has
are dropped from the end of the whole path first. -/
def withExtension (path : Path) (extension : Bytes) : Path :=
  let old := ((fileName? path).bind fun name => (splitName name).2).getD []
  setExtension (path.take (path.length - old.length)) extension

end Path
end ArithAsm
