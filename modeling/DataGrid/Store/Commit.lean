import DataGrid.Entity.Snapshot

/-!
# Commits — handing an entity to a store

A commit stages the delta on the entity, hands the entity to the store, and drops the stage again
whatever the store did. A store that knows deltas captures the staged one while it puts the
entity; any other store takes the whole value. An entity with nothing in it is removed instead.
-/

namespace DataGrid

/-- What a store does with an entity, for stores with a given state. A store may capture the
entity's staged delta, or change the entity, and may fail. -/
structure Store (σ : Type) where
  put : σ → (key : Bytes) → Entity → Except DeltaError Unit × Entity × σ
  remove : σ → (key : Bytes) → Except DeltaError Unit × σ

namespace Store

variable {σ : Type}

/-- Stores an entity, with its delta for the store to ship. -/
def commitDelta (store : Store σ) (s : σ) (key : Bytes) (e : Entity) (delta : Delta) :
    Except DeltaError Unit × Entity × σ :=
  if e.isEmpty then
    let (result, s) := store.remove s key
    (result, e, s)
  else
    let (result, e, s) := store.put s key (e.stage delta)
    (result, e.unstage, s)

/-- Stores an entity as a whole value. -/
def commitFull (store : Store σ) (s : σ) (key : Bytes) (e : Entity) :
    Except DeltaError Unit × Entity × σ :=
  if e.isEmpty then
    let (result, s) := store.remove s key
    (result, e, s)
  else store.put s key e

end Store

end DataGrid
