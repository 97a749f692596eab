import ArithAsm.Text.Bytes

/-! Lines and columns of a source text, both counted from one. -/
namespace ArithAsm

/-- A position in a source text as a reader counts it. -/
structure Location where
  line : Nat
  column : Nat
deriving DecidableEq, Repr

namespace Location

/-- Where the last newline of some bytes is. -/
def lastNewline? (bytes : Bytes) : Option Nat :=
  (bytes.reverse.findIdx? (· == Byte.newline)).map (bytes.length - 1 - ·)

/-- The position of a byte offset: one line more than there are newlines before
it, and as many columns as it is bytes past the last of those. On the first line
the columns are counted from the start of the source. Offsets past the end count
as the end. -/
def of (source : Bytes) (offset : Nat) : Location :=
  let offset := min offset source.length
  let before := source.take offset
  { line := before.count Byte.newline + 1
    column :=
      match lastNewline? before with
      | some newline => offset - newline
      | none => offset + 1 }

/-- A location is shown as `line:column`. -/
def text (location : Location) : String :=
  s!"{location.line}:{location.column}"

end Location
end ArithAsm
