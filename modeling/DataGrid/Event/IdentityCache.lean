import DataGrid.Event.Error
import DataGrid.Member

/-!
# Identity cache — the local member's octets, once per connection

Every event carries the essential data of the member that made it. The data is derived once for a
connection and pinned; a reconnect is a new connection even under the same member, so it is
derived anew. A member without a port has not finished joining and is never pinned.
-/

namespace DataGrid

/-- The local member's connection to the grid. No two connections have one id. -/
structure Connection where
  id : Nat
  member : Member
  deriving DecidableEq, Repr

/-- The essential data pinned for a connection, if any is. -/
structure IdentityCache where
  pinned : Option (Nat × Bytes) := none
  deriving DecidableEq, Repr

namespace IdentityCache

/-- Derives the essential data behind a connection, and pins it if the member has a port. -/
def derive (cache : IdentityCache) (c : Connection) : Except Fault Bytes × IdentityCache :=
  match c.member.essentialBytes .current with
  | .error fault => (.error fault, cache)
  | .ok bytes =>
    (.ok bytes, if c.member.port = 0 then cache else { pinned := some (c.id, bytes) })

/-- Derives and pins the identity of a new connection. -/
def connect (cache : IdentityCache) (c : Connection) : Except Fault Unit × IdentityCache :=
  match cache.derive c with
  | (.ok _, cache) => (.ok (), cache)
  | (.error fault, cache) => (.error fault, cache)

/-- Forgets what is pinned. -/
def clear (_ : IdentityCache) : IdentityCache := {}

/-- The essential data of the member behind a connection. -/
def membershipId (cache : IdentityCache) (connection : Option Connection) :
    Except EventError Bytes × IdentityCache :=
  match connection with
  | none => (.error .notConnected, cache)
  | some c =>
    match cache.pinned with
    | some (id, bytes) =>
      if id = c.id then (.ok bytes, cache) else derived c
    | none => derived c
where
  derived (c : Connection) : Except EventError Bytes × IdentityCache :=
    match cache.derive c with
    | (.ok bytes, cache) => (.ok bytes, cache)
    | (.error fault, cache) => (.error (.wire fault), cache)

/-- Whether the data behind a connection is pinned. -/
def isPinnedFor (cache : IdentityCache) (c : Connection) : Bool :=
  match cache.pinned with
  | some (id, _) => id == c.id
  | none => false

end IdentityCache

end DataGrid
