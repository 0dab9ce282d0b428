import DataGrid.Wire.Fault

/-!
# Draft — putting values behind octets

Most values can always be written, and their writer is a plain function to octets. A text may be
too long, and what contains a text may fail half-way; such a writer makes a `Draft`, the octets it
got to and the fault that stopped it. Drafts are appended like octets, and nothing follows a fault.
-/

namespace DataGrid

/-- What a writer wrote, and the fault that stopped it, if one did. -/
structure Draft where
  bytes : Bytes
  fault : Option Fault := none
  deriving DecidableEq, Repr

namespace Draft

/-- A draft of octets alone. -/
def ofBytes (bytes : Bytes) : Draft := { bytes }

/-- A draft that stops before it wrote anything. -/
def failed (fault : Fault) : Draft := ⟨[], some fault⟩

/-- The second draft follows the first, unless the first was stopped. -/
def append (a b : Draft) : Draft :=
  match a.fault with
  | some _ => a
  | none => ⟨a.bytes ++ b.bytes, b.fault⟩

instance : Append Draft := ⟨append⟩

/-- The octets of a draft that was completed. -/
def result (draft : Draft) : Except Fault Bytes :=
  match draft.fault with
  | some fault => .error fault
  | none => .ok draft.bytes

end Draft

namespace Encode

/-! ## Octets and numbers -/

def u8 (v : UInt8) : Bytes := BigEndian.ofNat 1 v.toNat
def i8 (v : Int8) : Bytes := BigEndian.ofNat 1 v.toUInt8.toNat
def u16 (v : UInt16) : Bytes := BigEndian.ofNat 2 v.toNat
def i16 (v : Int16) : Bytes := BigEndian.ofNat 2 v.toUInt16.toNat
def i32 (v : Int32) : Bytes := BigEndian.ofNat 4 v.toUInt32.toNat
def u64 (v : UInt64) : Bytes := BigEndian.ofNat 8 v.toNat
def i64 (v : Int64) : Bytes := BigEndian.ofNat 8 v.toUInt64.toNat

/-- A truth value is one octet, one or zero. -/
def bool (v : Bool) : Bytes := u8 (if v then 1 else 0)

/-! ## Arrays and texts -/

/-- A count in four octets. One past `2 ^ 32` keeps its low part alone. -/
def count (n : Nat) : Bytes := BigEndian.ofNat 4 n

/-- An array's length, none for a null array. -/
def arrayLength : Option Nat → Bytes
  | none => [0xFF]
  | some n =>
    if n ≤ 252 then [UInt8.ofNat n]
    else if n ≤ 65535 then 0xFE :: BigEndian.ofNat 2 n
    else 0xFD :: count n

/-- An array of octets. -/
def bytes (octets : Bytes) : Bytes :=
  arrayLength (some octets.length) ++ octets

/-- An array of octets that may be null. -/
def optionalBytes : Option Bytes → Bytes
  | some octets => bytes octets
  | none => arrayLength none

/-- A text: a two-octet length and its UTF-8. A text too long for that length is not begun. -/
def text (s : String) : Draft :=
  let octets := Text.toBytes s
  if octets.length ≤ 65535 then .ofBytes (BigEndian.ofNat 2 octets.length ++ octets)
  else .failed (.malformed (.textTooLong octets.length))

end Encode

end DataGrid
