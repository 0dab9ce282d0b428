import DataGrid.Wire.Draft
import DataGrid.Wire.Reader

/-!
# Compact numbers — as few octets as the number needs

A producer's thread id and sequence id are usually small, so each is written in the narrowest
signed width that holds it, behind a tag that names the width:

    [tag : u8] [value]     tag 0 = 1 octet, 1 = 2, 2 = 4, 3 = 8, most significant first

A pair of small numbers takes four octets.
-/

namespace DataGrid

/-- The widths a compact number is written in. -/
inductive Width where
  | byte
  | short
  | int
  | long
  deriving DecidableEq, Repr

namespace Width

/-- The narrowest width that holds a number. -/
def of (v : Int64) : Width :=
  let n := v.toInt
  if Int8.minValue.toInt ≤ n ∧ n ≤ Int8.maxValue.toInt then .byte
  else if Int16.minValue.toInt ≤ n ∧ n ≤ Int16.maxValue.toInt then .short
  else if Int32.minValue.toInt ≤ n ∧ n ≤ Int32.maxValue.toInt then .int
  else .long

/-- The tag that names the width. -/
def tag : Width → UInt8
  | .byte => 0
  | .short => 1
  | .int => 2
  | .long => 3

/-- The width that a tag names. -/
def ofTag (tag : UInt8) : Except Fault Width :=
  if tag = 0 then .ok .byte
  else if tag = 1 then .ok .short
  else if tag = 2 then .ok .int
  else if tag = 3 then .ok .long
  else .error (.widthTag tag)

/-- The octets of a number of this width, its tag not counted. -/
def size : Width → Nat
  | .byte => 1
  | .short => 2
  | .int => 4
  | .long => 8

/-- The width's name. -/
def name : Width → String
  | .byte => "Byte"
  | .short => "Short"
  | .int => "Int"
  | .long => "Long"

/-- Reads a signed number of this width. -/
def read : Width → Reader Int64
  | .byte => do return (← Reader.i8).toInt64
  | .short => do return (← Reader.i16).toInt64
  | .int => do return (← Reader.i32).toInt64
  | .long => Reader.i64

end Width

namespace Compact

/-- A compact number: the tag of its width, and its low octets. -/
def write (v : Int64) : Bytes :=
  (Width.of v).tag :: BigEndian.ofNat (Width.of v).size v.toUInt64.toNat

/-- Reads a compact number. -/
def read : Reader Int64 := do
  let tag ← Reader.u8
  let width ← Reader.ofExcept (Width.ofTag tag)
  width.read

/-- A thread id and a sequence id. -/
def writePair (thread sequence : Int64) : Bytes :=
  write thread ++ write sequence

/-- Reads a thread id and a sequence id. -/
def readPair : Reader (Int64 × Int64) := do
  let thread ← read
  let sequence ← read
  return (thread, sequence)

end Compact

end DataGrid
