import ArithAsm.Assembly.Sink
import ArithAsm.Host.Tool

/-! Writing an assembly to its file. The file is created or emptied first, so that of a write that
fails on the way a part can be left. -/
namespace ArithAsm

/-- Each line goes through the buffer, and then its newline. -/
def BufferedWriter.sink (medium : Medium) : Sink BufferedWriter :=
  .ofWriter (write medium)

/-- Writes the lines of a listing into an empty file and puts out what waits at the end. Whatever
comes of it, the file has some content then. -/
def Listing.writeOut (listing : Listing) (medium : Medium) : Bytes × Option IoError :=
  let feed := (BufferedWriter.sink medium).feed .empty (listing.lines.toList.map .fixed)
  match feed.refusal with
  | some cause => (feed.state.close medium, some cause)
  | none =>
    let (writer, refusal) := feed.state.flush medium
    (writer.close medium, refusal)

/-- Writes a listing to the file at a path, and tells what the files are like after that. -/
def Host.writeListing (host : Host) (path : Path) (listing : Listing) :
    FileTree × Option IoError :=
  match host.tree.create path with
  | .error cause => (host.tree, some cause)
  | .ok (created, place) =>
    let (content, refusal) := listing.writeOut (host.mediumAt created place)
    (created.store place content, refusal)

end ArithAsm
