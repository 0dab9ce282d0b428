import DataGrid.Wire.Version

/-!
# Configuration — how a member sends and waits
-/

namespace DataGrid

/-- How a member sends and waits. Times are in milliseconds. -/
structure Config where
  /-- How long a wait may last before it is worth a warning. -/
  ackWait : Nat := 15000
  /-- How long a wait for answers may last. -/
  replyTimeout : Nat := 30000
  /-- How many workers take messages from the queue. There is always one. -/
  workers : Nat := 4
  /-- The version that frames are written at. -/
  version : Version := .current
  /-- The most octets that a frame may have, in either direction. -/
  maxFrame : Nat := 64 * 1024 * 1024
  deriving DecidableEq, Repr

namespace Config

/-- The configuration with a number of workers, but at least one. -/
def withWorkers (c : Config) (n : Nat) : Config := { c with workers := max n 1 }

end Config

end DataGrid
