import DataGrid.Wire.Fault

/-!
# Event errors — why an event has no identity
-/

namespace DataGrid

/-- Why an event identity could not be made. -/
inductive EventError where
  /-- There is no system connection to take a member's identity from. -/
  | notConnected
  /-- A sequence id has no successor at this distance. -/
  | sequenceOverflow (sequence offset : Int64)
  | wire (fault : Fault)
  deriving DecidableEq, Repr

namespace EventError

/-- The error's name. -/
def name : EventError → String
  | .notConnected => "IllegalState"
  | .sequenceOverflow .. => "SequenceOverflow"
  | .wire fault => fault.name

/-- What the error says. -/
def message : EventError → String
  | .notConnected => "Illegal state: no distributed system connection is available"
  | .sequenceOverflow sequence offset =>
    s!"Sequence id {sequence.toInt} cannot be offset by {offset.toInt}"
  | .wire fault => fault.message

end EventError

end DataGrid
