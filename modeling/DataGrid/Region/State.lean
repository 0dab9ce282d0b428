import DataGrid.Entity.Snapshot
import DataGrid.Event.Tracker
import DataGrid.Region.Update

/-!
# Region contents — one member's copy

A member's copy of the region is a map from keys to entities, and it remembers which updates it
has seen. An entity with nothing in it is never kept. An update that was seen before is passed
over; a delta that the copy cannot take asks for the whole value. An update counts as seen even
if its payload turns out to be unreadable.
-/

namespace DataGrid

/-- What a member made of an update. -/
inductive UpdateOutcome where
  | applied
  /-- The update was seen before. -/
  | duplicate
  /-- The delta does not suit the copy; the sender should ship the whole value. -/
  | needsFull (why : String)
  deriving DecidableEq, Repr

/-- The entities of a region, by key. -/
abbrev Entries := OrdMap Bytes Entity

namespace Entries

/-- The entries with an entity under a key, or without the key if there is nothing in it. -/
def keep (entries : Entries) (key : Bytes) (e : Entity) : Entries :=
  if e.isEmpty then entries.erase key else entries.insert key e

/-- What a payload makes of the entries. -/
def applyPayload (entries : Entries) (key : Bytes) :
    Payload → Except DeltaError UpdateOutcome × Entries
  | .full snapshot =>
    match Entity.ofSnapshot snapshot with
    | .error fault => (.error (.wire fault), entries)
    | .ok e => (.ok .applied, entries.keep key e)
  | .delta octets =>
    match entries.get? key with
    | none => (.ok (.needsFull ("no local copy of " ++ Text.lossy key)), entries)
    | some copy =>
      -- The delta is applied to the copy in its place.
      match copy.applyBytes octets with
      | (.ok (), copy) => (.ok .applied, entries.keep key copy)
      | (.error (.refused why), copy) => (.ok (.needsFull why.message), entries.insert key copy)
      | (.error e, copy) => (.error e, entries.insert key copy)
  | .destroy => (.ok .applied, entries.erase key)

/-- **What a delta makes of the copy under a key.** If it is not applied it changes no entry. -/
theorem applyPayload_delta {entries : Entries} {key octets : Bytes} {copy : Entity}
    (h : entries.get? key = some copy) :
    entries.applyPayload key (.delta octets) = match copy.applyBytes octets with
      | (.ok (), e) => (.ok .applied, entries.keep key e)
      | (.error (.refused why), _) => (.ok (.needsFull why.message), entries)
      | (.error e, _) => (.error e, entries) := by
  simp only [applyPayload, h]
  cases happly : copy.applyBytes octets with
  | mk result e =>
    cases result with
    | ok _ => rfl
    | error error =>
      obtain rfl := Entity.applyBytes_of_error happly
      cases error <;> simp only [OrdMap.insert_of_get? h]

end Entries

/-- One member's copy of the region. -/
structure RegionState where
  entries : Entries := .empty
  tracker : Tracker := {}

namespace RegionState

/-- Applies an update from another member. -/
def applyUpdate (s : RegionState) (u : Update) :
    Except DeltaError UpdateOutcome × RegionState :=
  match s.tracker.record u.event with
  | (false, tracker) => (.ok .duplicate, { s with tracker })
  | (true, tracker) =>
    let (result, entries) := s.entries.applyPayload u.key u.payload
    (result, { entries, tracker })

/-- The entity under a key. -/
def get? (s : RegionState) (key : Bytes) : Option Entity := s.entries.get? key

def size (s : RegionState) : Nat := s.entries.size
def isEmpty (s : RegionState) : Bool := s.entries.isEmpty

end RegionState

end DataGrid
