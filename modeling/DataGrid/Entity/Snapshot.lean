import DataGrid.Entity.Basic

/-!
# Snapshots — an entity as octets

    [expiration : i64] [kind : u8] [body]
      set          [count : i32] count × octets
      string       [sequence : i32] octets
      sorted set   [count : i32] count × (octets, score : f64)

Members are written in ascending order, so a snapshot depends on what the entity holds and not on
how it came to hold it. A staged delta is no part of a snapshot. Where the kind is known from
elsewhere the tag is left out.
-/

namespace DataGrid

namespace Content

/-- The body of a snapshot. -/
def encode : Content → Bytes
  | .set members => Encode.count members.size ++ members.toList.flatMap Encode.bytes
  | .string s => Encode.i32 s.sequence ++ Encode.bytes s.octets
  | .sortedSet scores => Encode.count scores.size ++ scores.entries.flatMap Delta.writePair

/-- Reads the body of a snapshot of a kind. -/
def read : EntityKind → Reader Content
  | .set => do return .set (OrdSet.ofList (← Delta.readMembers))
  | .string => do
    let sequence ← Reader.i32
    let octets ← Reader.bytes
    return .string { octets, sequence }
  | .sortedSet => do return .sortedSet (OrdMap.ofList (← Delta.readPairs))

end Content

namespace Entity

/-- The snapshot of an entity. -/
def snapshot (e : Entity) : Bytes :=
  Encode.i64 e.expiration ++ Encode.u8 e.kind.tag ++ e.content.encode

/-- The snapshot of an entity without the tag of its kind. -/
def untaggedSnapshot (e : Entity) : Bytes :=
  Encode.i64 e.expiration ++ e.content.encode

/-- Reads a snapshot. -/
def read : Reader Entity := do
  let expiration ← Reader.i64
  let tag ← Reader.u8
  let kind ← Reader.ofExcept (EntityKind.ofTag tag)
  let content ← Content.read kind
  return { content, expiration }

/-- Reads a snapshot of a known kind, without its tag. -/
def readUntagged (kind : EntityKind) : Reader Entity := do
  let expiration ← Reader.i64
  let content ← Content.read kind
  return { content, expiration }

/-- The entity that a snapshot holds. Octets that follow it are passed over. -/
def ofSnapshot (bytes : Bytes) : Except Fault Entity := read.parse bytes

end Entity

end DataGrid
