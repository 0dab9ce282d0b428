import DataGrid.Store.Commit

/-!
# Memory store — copies made only of what was written

The store keeps a copy of every entity that it builds from the writes alone, and a log of them. A
delta-aware store applies a staged delta to its copy; where it has none, or the copy refuses the
delta, it takes the whole value. So replaying the log gives the copies.
-/

namespace DataGrid

/-- One write to a store. -/
inductive WriteRecord where
  | delta (key octets : Bytes)
  | full (key octets : Bytes)
  | remove (key : Bytes)
  deriving DecidableEq, Repr

/-- A store of copies, with a log of the writes they were made from. -/
structure MemoryStore where
  deltaAware : Bool
  copies : OrdMap Bytes Entity := .empty
  log : List WriteRecord := []
  deriving DecidableEq

namespace MemoryStore

/-- The copy under a key. -/
def get? (s : MemoryStore) (key : Bytes) : Option Entity := s.copies.get? key

/-- Stores the whole value. The copy is read back from the snapshot. -/
def putFull (s : MemoryStore) (key : Bytes) (e : Entity) : Except DeltaError Unit × MemoryStore :=
  let snapshot := e.snapshot
  match Entity.ofSnapshot snapshot with
  | .error fault => (.error (.wire fault), s)
  | .ok copy =>
    (.ok (), { s with copies := s.copies.insert key copy, log := s.log ++ [.full key snapshot] })

/-- Stores an entity: its staged delta if the store can apply it, and the whole value if not. -/
def put (s : MemoryStore) (key : Bytes) (e : Entity) :
    Except DeltaError Unit × Entity × MemoryStore :=
  let whole (s : MemoryStore) (e : Entity) : Except DeltaError Unit × Entity × MemoryStore :=
    let (result, s) := s.putFull key e
    (result, e, s)
  if !s.deltaAware then whole s e
  else
    match e.capture with
    | (.error _, e) => whole s e
    | (.ok delta, e) =>
      match s.get? key with
      | none => whole s e
      | some copy =>
        -- The delta is applied to the copy in its place.
        let (result, copy) := copy.apply delta
        let s := { s with copies := s.copies.insert key copy }
        match result with
        | .error _ => whole s e
        | .ok () => (.ok (), e, { s with log := s.log ++ [.delta key delta.encode] })

/-- Removes what is under a key. -/
def remove (s : MemoryStore) (key : Bytes) : Except DeltaError Unit × MemoryStore :=
  (.ok (), { s with copies := s.copies.erase key, log := s.log ++ [.remove key] })

/-- A memory store as a store. -/
def ops : Store MemoryStore := { put, remove }

end MemoryStore

end DataGrid
