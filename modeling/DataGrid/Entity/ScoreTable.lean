import DataGrid.Entity.Delta
import DataGrid.Ordered.Map

/-!
# Scored members — the value of a sorted set entity

A member has one score. Setting a score always stores it; the delta lists the pairs whose score
differs, as a number, from the one that stood there. So setting a NaN is always a change, and
setting a zero of the other sign is none, although it is stored.

Members are listed by score in the total order of bit patterns, and members of one score by their
octets. That order is strict, so the list depends on the members and scores alone.
-/

namespace DataGrid

/-- The members of a sorted set entity with their scores. -/
abbrev ScoreTable := OrdMap Bytes Binary64

namespace ScoreTable

/-- Whether storing a score over another one is a change. -/
def isChange (previous : Option Binary64) (score : Binary64) : Bool :=
  match previous with
  | some x => !x.sameNumber score
  | none => true

/-- The table with every pair stored in turn, and the pairs that were changes. -/
def storeAll (z : ScoreTable) : List (Bytes × Binary64) → ScoreTable × List (Bytes × Binary64)
  | [] => (z, [])
  | (m, score) :: rest =>
    let (z', changed) := storeAll (z.insert m score) rest
    (z', if isChange (z.get? m) score then (m, score) :: changed else changed)

/-- The table without the listed members, and those of them that were there. -/
def removePresent (z : ScoreTable) : List Bytes → ScoreTable × List Bytes
  | [] => (z, [])
  | m :: rest =>
    if z.contains m then
      let (z, removed) := removePresent (z.erase m) rest
      (z, m :: removed)
    else removePresent z rest

/-- Sets scores. -/
def add (z : ScoreTable) (pairs : List (Bytes × Binary64)) : ScoreTable × Option Delta :=
  let (z, changed) := storeAll z pairs
  (z, if changed.isEmpty then none else some (.zadds changed))

/-- Removes members. -/
def remove (z : ScoreTable) (members : List Bytes) : ScoreTable × Option Delta :=
  let (z, removed) := removePresent z members
  (z, if removed.isEmpty then none else some (.rems removed))

/-- The order of the list by score. -/
def compareRanked (a b : Bytes × Binary64) : Ordering :=
  (a.2.totalCompare b.2).then (compare a.1 b.1)

/-- The members by score. -/
def ranked (z : ScoreTable) : List (Bytes × Binary64) :=
  z.entries.mergeSort fun a b => (compareRanked a b).isLE

/-- Whether two tables have the same members, with scores that are the same numbers. -/
def agrees (a b : ScoreTable) : Bool := Delta.pairsAgree a.entries b.entries

end ScoreTable

end DataGrid
