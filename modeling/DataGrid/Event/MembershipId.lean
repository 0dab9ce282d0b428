import DataGrid.Wire.Bytes

/-!
# Membership ids — naming a producing member across versions

An event names its producing member by the member's essential data. Members older than 1.1 append
a uuid and a weight to it, and seventeen zero octets of those say nothing: an id with that padding
and the same id without it name one member (`MembershipId.same`).

The hash agrees with that relation because it is taken after every trailing block of seventeen
zeros is stripped. Stripping goes further than the relation does, which bridges one block and no
more.
-/

namespace DataGrid

namespace MembershipId

/-- The octets of one block of padding. -/
def blockLength : Nat := 17

/-- Whether octets are zeros only. -/
def isPadding (bytes : Bytes) : Bool := bytes.all (· == 0)

/-- **Whether two ids name one member**: they are equal, or one is the other with a block of
padding. -/
def same (a b : Bytes) : Bool :=
  let (longer, shorter) := if b.length ≤ a.length then (a, b) else (b, a)
  if longer.length = shorter.length then a == b
  else if longer.length = shorter.length + blockLength then
    longer.take shorter.length == shorter && isPadding (longer.drop shorter.length)
  else false

/-- The number of zeros that octets end in. -/
def trailingZeros (bytes : Bytes) : Nat := (bytes.reverse.takeWhile (· == 0)).length

/-- The id without any of the blocks of padding that it ends in. -/
def strip (bytes : Bytes) : Bytes :=
  bytes.take (bytes.length - blockLength * (trailingZeros bytes / blockLength))

/-- The hash of an id: a polynomial in thirty-one over its stripped octets, as signed numbers. -/
def hash (bytes : Bytes) : Int32 :=
  (strip bytes).foldl (fun h byte => h * 31 + byte.toInt8.toInt32) 1

end MembershipId

end DataGrid
