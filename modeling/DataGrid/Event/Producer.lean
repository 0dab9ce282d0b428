/-!
# Producers — who numbers events

A producer has a thread id of its own within the process and counts its events from zero. A
sequence id is reserved before it is used, one at a time or a range at once, so no two uses ever
see the same one.
-/

namespace DataGrid

/-- A source of events within one process. -/
structure Producer where
  thread : Int64
  /-- The next sequence id. -/
  next : Int64 := 0
  deriving DecidableEq, Repr

/-- The thread ids that a process has handed out, counted from one. -/
structure ThreadIds where
  last : Int64 := 0
  deriving DecidableEq, Repr

namespace ThreadIds

/-- A new producer, under a thread id that no other producer has. -/
def newProducer (ids : ThreadIds) : Producer × ThreadIds :=
  ({ thread := ids.last + 1 }, { last := ids.last + 1 })

end ThreadIds

namespace Producer

/-- Reserves the next sequence id. -/
def reserve (p : Producer) : Int64 × Producer :=
  (p.next, { p with next := p.next + 1 })

/-- Reserves as many sequence ids in a row as the count says, and names the first. -/
def reserveRange (p : Producer) (count : UInt32) : Int64 × Producer :=
  (p.next, { p with next := p.next + Int64.ofNat count.toNat })

end Producer

end DataGrid
