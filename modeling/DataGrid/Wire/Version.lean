/-!
# Version — protocol versions, oldest first

Members negotiate nothing. Every frame names the version it was written at, and an encoder that
must be understood by older members asks the version it is writing for.
-/

namespace DataGrid

/-- A protocol version. -/
inductive Version where
  | v0_9
  | v1_0
  | v1_1
  | v1_14
  deriving DecidableEq, Repr

namespace Version

/-- The version members write unless they are told otherwise. -/
def current : Version := .v1_14

/-- The number a frame carries for the version. -/
def ordinal : Version → UInt16
  | .v0_9 => 90
  | .v1_0 => 100
  | .v1_1 => 110
  | .v1_14 => 1140

/-- The version a frame's number names, if there is one. -/
def ofOrdinal? (n : UInt16) : Option Version :=
  if n = 90 then some .v0_9
  else if n = 100 then some .v1_0
  else if n = 110 then some .v1_1
  else if n = 1140 then some .v1_14
  else none

/-- Versions are compared by age, the oldest least. -/
def compareAge (a b : Version) : Ordering :=
  compare a.ordinal b.ordinal

/-- Whether `a` came before `b`. -/
def isOlderThan (a b : Version) : Bool :=
  a.compareAge b == .lt

/-- Whether member identities written at this version carry the uuid and weight that version 1.1
dropped. -/
def needsLegacyMember (v : Version) : Bool :=
  v.isOlderThan .v1_1

/-- The version's name. -/
def name : Version → String
  | .v0_9 => "0.9"
  | .v1_0 => "1.0"
  | .v1_1 => "1.1"
  | .v1_14 => "1.14"

/-- Every version, the oldest first. -/
def all : List Version := [.v0_9, .v1_0, .v1_1, .v1_14]

/-- The version of a name, if there is one. -/
def ofName? (name : String) : Option Version := all.find? (·.name = name)

/-- **A version's number names it.** -/
@[simp] theorem ofOrdinal?_ordinal (v : Version) : ofOrdinal? v.ordinal = some v := by
  cases v <;> decide

end Version

end DataGrid
