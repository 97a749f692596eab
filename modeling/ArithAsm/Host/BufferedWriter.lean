import ArithAsm.Host.Status
import ArithAsm.Text.Bytes

/-! Writing a file through a buffer. Bytes are held back until there are too many of them to wait
and are then put out together. Putting bytes out can fail on the way, and then some of the first
of them have been stored and the others have not. -/
namespace ArithAsm

/-- How what a file is written to answers. The `n`-th time that bytes are put out it stores all of
them, or as many of the first as it says and fails for the cause that it gives. -/
abbrev Medium := Nat → Bytes → Option (Nat × IoError)

/-- A medium that stores whatever is put out. -/
def Medium.reliable : Medium :=
  fun _ _ => none

/-- A file that is being written. -/
structure BufferedWriter where
  /-- What the file holds. -/
  stored : Array UInt8
  /-- What waits to be put out. -/
  pending : Array UInt8
  /-- How often bytes have been put out. -/
  trips : Nat
deriving DecidableEq, Repr

namespace BufferedWriter

/-- A file that is empty. -/
def empty : BufferedWriter :=
  ⟨#[], #[], 0⟩

/-- How many bytes can wait. -/
def capacity : Nat := 8192

/-- Puts out all that waits. What could not be stored goes on waiting. -/
def flush (medium : Medium) (writer : BufferedWriter) : BufferedWriter × Option IoError :=
  if writer.pending.isEmpty then (writer, none)
  else
    let waiting := writer.pending.toList
    match medium writer.trips waiting with
    | none => (⟨writer.stored ++ waiting, #[], writer.trips + 1⟩, none)
    | some (count, cause) =>
      (⟨writer.stored ++ waiting.take count, (waiting.drop count).toArray, writer.trips + 1⟩,
        some cause)

/-- Puts bytes out past the buffer. What could not be stored is lost. -/
def putThrough (medium : Medium) (writer : BufferedWriter) (bytes : Bytes) :
    BufferedWriter × Option IoError :=
  match medium writer.trips bytes with
  | none =>
    ({ writer with stored := writer.stored ++ bytes, trips := writer.trips + 1 }, none)
  | some (count, cause) =>
    ({ writer with stored := writer.stored ++ bytes.take count, trips := writer.trips + 1 },
      some cause)

/-- Lets bytes wait. -/
def hold (writer : BufferedWriter) (bytes : Bytes) : BufferedWriter :=
  { writer with pending := writer.pending ++ bytes }

/-- Puts out all that waits unless `size` more bytes fit behind it. -/
def makeRoom (medium : Medium) (writer : BufferedWriter) (size : Nat) :
    BufferedWriter × Option IoError :=
  if capacity - writer.pending.size < size then writer.flush medium else (writer, none)

/-- Writes bytes. So many that they would fill the buffer by themselves go past it. -/
def write (medium : Medium) (writer : BufferedWriter) (bytes : Bytes) :
    BufferedWriter × Option IoError :=
  match writer.makeRoom medium bytes.length with
  | (writer, some cause) => (writer, some cause)
  | (writer, none) =>
    if bytes.length < capacity then (writer.hold bytes, none) else writer.putThrough medium bytes

/-- Gives the writer up. What still waits is put out, and whether that succeeds goes unnoticed. -/
def close (medium : Medium) (writer : BufferedWriter) : Bytes :=
  (writer.flush medium).1.stored.toList

end BufferedWriter
end ArithAsm
