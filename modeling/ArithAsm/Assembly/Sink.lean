import ArithAsm.Assembly.Line
import ArithAsm.Host.Status
import ArithAsm.Text.Utf8

/-! Destinations of assembly. A sink takes lines one at a time and may refuse
any of them; whoever feeds it stops at the first refusal. -/
namespace ArithAsm

/-- A destination whose condition is a `σ`. Offering a line changes that
condition and may be answered with a refusal. -/
structure Sink (σ : Type) where
  offer : σ → String → σ × Option IoError

/-- What came of feeding lines to a sink. -/
structure Feed (σ : Type) where
  state : σ
  /-- The lines that were offered, a refused one included. -/
  offered : List Line
  refusal : Option IoError

/-- Offers lines in order, up to and including the first refused one. -/
def Sink.feed {σ : Type} (sink : Sink σ) (state : σ) : List Line → Feed σ
  | [] => ⟨state, [], none⟩
  | line :: rest =>
    match sink.offer state line.text with
    | (state, none) =>
      let later := sink.feed state rest
      { later with offered := line :: later.offered }
    | (state, some refusal) => ⟨state, [line], some refusal⟩

/-- The records made while the lines were offered. -/
def Feed.records {σ : Type} (feed : Feed σ) : List Record :=
  feed.offered.filterMap Line.record?

/-- A sink that writes each line to a destination for bytes, and then its newline. -/
def Sink.ofWriter {σ : Type} (write : σ → Bytes → σ × Option IoError) : Sink σ where
  offer state line :=
    match write state (Utf8.encode line) with
    | (state, none) => write state [Byte.newline]
    | (state, some refusal) => (state, some refusal)

/-! ## Listings -/

/-- Lines held in memory, in the order in which they came. -/
structure Listing where
  lines : Array String
deriving DecidableEq, Repr

namespace Listing

/-- No lines. -/
def empty : Listing := ⟨#[]⟩

/-- One more line at the end. -/
def push (listing : Listing) (line : String) : Listing :=
  ⟨listing.lines.push line⟩

/-- How many lines there are. -/
def length (listing : Listing) : Nat :=
  listing.lines.size

/-- Whether there are no lines. -/
def isEmpty (listing : Listing) : Bool :=
  listing.lines.isEmpty

/-- The lines, each ended by a newline. -/
def text (listing : Listing) : String :=
  String.join (listing.lines.toList.map (· ++ "\n"))

/-- A listing that takes every line. -/
def sink : Sink Listing where
  offer listing line := (listing.push line, none)

/-- A listing that refuses every line once it holds `capacity` of them. -/
def sinkUpTo (capacity : Nat) : Sink Listing where
  offer listing line :=
    if listing.length < capacity then (listing.push line, none)
    else (listing, some (.other "sink full"))

end Listing

/-! ## Buffers -/

/-- Bytes that have been written, and room for how many in all if there is a
bound. -/
structure Buffer where
  capacity : Option Nat
  stored : Array UInt8
deriving DecidableEq, Repr

namespace Buffer

/-- The bytes that fit are stored; it is a refusal when not all do. -/
def write (buffer : Buffer) (bytes : Bytes) : Buffer × Option IoError :=
  match buffer.capacity with
  | none => ({ buffer with stored := buffer.stored ++ bytes }, none)
  | some capacity =>
    let room := capacity - buffer.stored.size
    ({ buffer with stored := buffer.stored ++ bytes.take room },
      if bytes.length ≤ room then none else some .shortWrite)

/-- A buffer to which each line is written, and then its newline. -/
def sink : Sink Buffer :=
  .ofWriter write

end Buffer

/-! ## Copies -/

/-- Passes lines on to `sink` and keeps a copy of those that it takes. -/
def Sink.tee {σ : Type} (sink : Sink σ) : Sink (σ × Listing) where
  offer both line :=
    match sink.offer both.1 line with
    | (state, none) => ((state, both.2.push line), none)
    | (state, some refusal) => ((state, both.2), some refusal)

end ArithAsm
