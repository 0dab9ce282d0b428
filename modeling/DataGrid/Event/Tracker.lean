import DataGrid.Event.EventId

/-!
# Tracker — recognising replayed events

Producers number their events upwards, so one number for each producer is enough: the highest
sequence id recorded. Anything at or below it is a replay. Producers are compared as
`EventId.sameProducer` compares. An event of a member belongs to one record at most. Ids that are no
member's may belong to two, and nothing is promised of which one counts for them: here it is the
older.
-/

namespace DataGrid

/-- A producer, and the highest sequence id recorded for it. -/
structure TrackerRecord where
  membership : Bytes
  thread : Int64
  highest : Int64
  deriving DecidableEq, Repr

namespace TrackerRecord

/-- Whether the record is about the producer of an event. -/
def isFor (r : TrackerRecord) (id : EventId) : Bool :=
  r.thread == id.thread && MembershipId.same id.membership r.membership

end TrackerRecord

/-- The highest sequence id of each producer, in the order of their first events. -/
structure Tracker where
  records : List TrackerRecord := []
  deriving DecidableEq, Repr

namespace Tracker

/-- Whether an event is new to the records, and the records with it. -/
def recordIn (id : EventId) : List TrackerRecord → Bool × List TrackerRecord
  | [] => (true, [⟨id.membership, id.thread, id.sequence⟩])
  | r :: rest =>
    if r.isFor id then
      if r.highest < id.sequence then (true, { r with highest := id.sequence } :: rest)
      else (false, r :: rest)
    else
      let (new, rest) := recordIn id rest
      (new, r :: rest)

/-- Records an event: true if it is new, false if it or a later one of its producer was recorded
before. -/
def record (t : Tracker) (id : EventId) : Bool × Tracker :=
  let (new, records) := recordIn id t.records
  (new, ⟨records⟩)

/-- Whether an event or a later one of its producer was recorded. -/
def hasSeen (t : Tracker) (id : EventId) : Bool :=
  match t.records.find? (·.isFor id) with
  | some r => id.sequence ≤ r.highest
  | none => false

/-- The number of producers recorded. -/
def size (t : Tracker) : Nat := t.records.length

end Tracker

end DataGrid
