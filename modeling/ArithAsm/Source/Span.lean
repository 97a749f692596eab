import ArithAsm.Text.Utf8

/-! Half-open byte ranges of a source text. -/
namespace ArithAsm

/-- The bytes from offset `start` up to, and not including, offset `stop`. -/
structure Span where
  start : Nat
  stop : Nat
deriving DecidableEq, Repr

namespace Span

/-- How many bytes the span covers. -/
def length (span : Span) : Nat :=
  span.stop - span.start

/-- Whether the span covers no byte. -/
def isEmpty (span : Span) : Bool :=
  span.start == span.stop

/-- The same span of a text that has `offset` more bytes in front. -/
def shift (span : Span) (offset : Nat) : Span :=
  ⟨span.start + offset, span.stop + offset⟩

/-- The bytes that the span covers. There are none to give when it ends before
it starts or past the end of the source. -/
def slice? (span : Span) (source : Bytes) : Option Bytes :=
  if span.start ≤ span.stop ∧ span.stop ≤ source.length then
    some ((source.take span.stop).drop span.start)
  else none

/-- The text that the span covers, empty when those bytes are not UTF-8. -/
def text? (span : Span) (source : Bytes) : Option String :=
  (span.slice? source).map fun bytes => (Utf8.decode? bytes).getD ""

end Span
end ArithAsm
