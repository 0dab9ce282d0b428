import DataGrid.Number.Binary64
import DataGrid.Wire.Draft
import DataGrid.Wire.Reader

/-!
# Deltas — one mutation, for replicas to repeat

A delta describes one local mutation so that a replica can repeat it without the whole entity:

    [tag : u8]
      0 adds        [count : i32] count × octets
      1 removals    [count : i32] count × octets
      2 append      [sequence : i32] octets
      3 timestamp   [expiration : i64]
      4 scores      [count : i32] count × (octets, score : f64)
-/

namespace DataGrid

/-- The kinds of delta. -/
inductive DeltaKind where
  | adds
  | rems
  | append
  | timestamp
  | zadds
  deriving DecidableEq, Repr

namespace DeltaKind

/-- The tag that names the kind. -/
def tag : DeltaKind → UInt8
  | .adds => 0
  | .rems => 1
  | .append => 2
  | .timestamp => 3
  | .zadds => 4

/-- The kind that a tag names. -/
def ofTag (tag : UInt8) : Except Fault DeltaKind :=
  if tag = 0 then .ok .adds
  else if tag = 1 then .ok .rems
  else if tag = 2 then .ok .append
  else if tag = 3 then .ok .timestamp
  else if tag = 4 then .ok .zadds
  else .error (.deltaTag tag)

/-- The kind's name. -/
def name : DeltaKind → String
  | .adds => "ADDS"
  | .rems => "REMS"
  | .append => "APPEND"
  | .timestamp => "TIMESTAMP"
  | .zadds => "ZADDS"

end DeltaKind

/-- One mutation of an entity. -/
inductive Delta where
  /-- Members that joined a set. -/
  | adds (members : List Bytes)
  /-- Members that left a set or a sorted set. -/
  | rems (members : List Bytes)
  /-- Octets appended to a string, as the append of this number. -/
  | append (sequence : Int32) (octets : Bytes)
  /-- A new expiration. -/
  | timestamp (expiration : Int64)
  /-- Members of a sorted set with their new scores. -/
  | zadds (pairs : List (Bytes × Binary64))
  deriving DecidableEq, Repr

namespace Delta

def kind : Delta → DeltaKind
  | .adds _ => .adds
  | .rems _ => .rems
  | .append .. => .append
  | .timestamp _ => .timestamp
  | .zadds _ => .zadds

/-- How many members the delta touches; an append or a new expiration counts as one. -/
def count : Delta → Nat
  | .adds members => members.length
  | .rems members => members.length
  | .zadds pairs => pairs.length
  | .append .. => 1
  | .timestamp _ => 1

/-- Members with scores agree when the members are equal and the scores one number. -/
def pairsAgree : List (Bytes × Binary64) → List (Bytes × Binary64) → Bool
  | [], [] => true
  | (m, x) :: rest, (n, y) :: rest' => m == n && x.sameNumber y && pairsAgree rest rest'
  | _, _ => false

/-- Whether two deltas are equal, with scores compared as numbers. -/
def agrees : Delta → Delta → Bool
  | .zadds pairs, .zadds pairs' => pairsAgree pairs pairs'
  | a, b => a == b

/-! ## On the wire -/

/-- A member with its score. -/
def writePair (pair : Bytes × Binary64) : Bytes :=
  Encode.bytes pair.1 ++ Encode.u64 pair.2.bits

/-- The octets of a delta. -/
def encode (delta : Delta) : Bytes :=
  Encode.u8 delta.kind.tag ++
    match delta with
    | .adds members => Encode.count members.length ++ members.flatMap Encode.bytes
    | .rems members => Encode.count members.length ++ members.flatMap Encode.bytes
    | .append sequence octets => Encode.i32 sequence ++ Encode.bytes octets
    | .timestamp expiration => Encode.i64 expiration
    | .zadds pairs => Encode.count pairs.length ++ pairs.flatMap writePair

/-- Reads a member with its score. -/
def readPair : Reader (Bytes × Binary64) := do
  let member ← Reader.bytes
  let bits ← Reader.u64
  return (member, ⟨bits⟩)

/-- Reads counted members. -/
def readMembers : Reader (List Bytes) := do
  let count ← Reader.count
  Reader.repeated Reader.bytes count

/-- Reads counted members with their scores. -/
def readPairs : Reader (List (Bytes × Binary64)) := do
  let count ← Reader.count
  Reader.repeated readPair count

/-- Reads a delta. -/
def read : Reader Delta := do
  let tag ← Reader.u8
  match ← Reader.ofExcept (DeltaKind.ofTag tag) with
  | .adds => return .adds (← readMembers)
  | .rems => return .rems (← readMembers)
  | .append =>
    let sequence ← Reader.i32
    let octets ← Reader.bytes
    return .append sequence octets
  | .timestamp => return .timestamp (← Reader.i64)
  | .zadds => return .zadds (← readPairs)

/-- The delta at the front of octets. -/
def ofBytes (bytes : Bytes) : Except Fault Delta := read.parse bytes

end Delta

end DataGrid
