import ArithAsm.Error
import ArithAsm.Log

/-! Bounded reading. A source arrives as a series of reads; one byte more than
the limit is asked for, which is enough to tell an oversized source apart, and a
source is taken whole or not at all. -/
namespace ArithAsm

/-- What one read of an input brings. -/
inductive Reading where
  /-- Bytes. None at all means the end of the input. -/
  | data (bytes : Bytes)
  /-- The read was interrupted and is tried again. -/
  | interrupted
  | failure (cause : IoError)
deriving DecidableEq, Repr

/-- At most `wanted` bytes from the front of an input. Reads past the last byte
wanted are never made, and the input ends after the last reading. -/
def Reading.collect (wanted : Nat) : List Reading → Except IoError Bytes
  | [] => .ok []
  | reading :: rest =>
    if wanted = 0 then .ok []
    else
      match reading with
      | .interrupted => collect wanted rest
      | .failure cause => .error cause
      | .data [] => .ok []
      | .data bytes =>
        (collect (wanted - bytes.length) rest).map (bytes.take wanted ++ ·)

/-- The default for the largest source accepted, in bytes. -/
def defaultLimit : UInt64 := 4095

/-- One byte more than the limit, which must itself be a 64-bit number. -/
def bytesWanted (limit : UInt64) : Except Abort Nat :=
  if limit.toNat + 1 < UInt64.size then .ok (limit.toNat + 1) else .error .limitOverflow

/-- The whole input, unless it fails or has more than `limit` bytes. The path is
only named in errors and records. -/
def readBounded (input : List Reading) (path : Bytes) (limit : UInt64) :
    Except Abort (List Record × Except Error Bytes) :=
  (bytesWanted limit).map fun wanted =>
    match Reading.collect wanted input with
    | .error cause => ([], .error (.readSource path cause))
    | .ok bytes =>
      if bytes.length ≤ limit.toNat then
        ([⟨.debug, .source, s!"read {bytes.length} byte(s) from `{Utf8.lossy path}`"⟩], .ok bytes)
      else ([], .error (.sourceTooLarge path limit.toNat))

end ArithAsm
