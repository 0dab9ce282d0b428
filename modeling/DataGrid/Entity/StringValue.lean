import DataGrid.Entity.Delta

/-!
# Strings of octets — the value of a string entity

Every append has a number, and the number travels with the delta. A replica takes an append only
if it is the next one; a gap means that the replica missed one and needs the whole value. The
numbers wrap around.
-/

namespace DataGrid

/-- The octets of a string entity, and the number of its last append. -/
structure StringValue where
  octets : Bytes := []
  sequence : Int32 := 0
  deriving DecidableEq, Repr

namespace StringValue

/-- Replaces the octets. The replacement travels as a whole value, so the number stays. -/
def replace (s : StringValue) (octets : Bytes) : StringValue := { s with octets }

/-- Appends octets and answers the new length. -/
def append (s : StringValue) (octets : Bytes) : StringValue × Nat × Delta :=
  let appended := { octets := s.octets ++ octets, sequence := s.sequence + 1 }
  (appended, appended.octets.length, .append appended.sequence octets)

end StringValue

end DataGrid
