import DataGrid.Wire.Draft
import DataGrid.Wire.Reader
import DataGrid.Wire.Version

/-!
# Member — the identity of one process of the grid

A member is named by where it listens, the view it joined in, and a name. Its *essential data* is
the form that event identities carry and that other members compare octet by octet:

    [host : text] [port : i32] [view : i32] [name : text]
    [uuid : 16 octets] [weight : u8]        only for versions older than 1.1

Reading tells the two forms apart by length. An all-zero uuid in the older form means none, and a
member that never had a uuid or a weight reads back unchanged from either form.
-/

namespace DataGrid

/-- A universally unique identifier. -/
structure Uuid where
  bits : BitVec 128
  deriving DecidableEq, Repr

namespace Uuid

/-- The uuid that stands for none. -/
def zero : Uuid := ⟨0⟩

/-- The sixteen octets of the uuid. -/
def toBytes (uuid : Uuid) : Bytes := BigEndian.ofNat 16 uuid.bits.toNat

/-- The uuid that octets spell. -/
def ofBytes (bytes : Bytes) : Uuid := ⟨BitVec.ofNat 128 (BigEndian.toNat bytes)⟩

/-- Uuids are ordered as numbers. -/
instance : Ord Uuid := ⟨compareOn (·.bits.toNat)⟩

instance : Std.TransOrd Uuid :=
  inferInstanceAs (Std.TransCmp (compareOn fun uuid : Uuid => uuid.bits.toNat))

instance : Std.LawfulEqOrd Uuid where
  eq_of_compare {a b} h := by
    have h : compare a.bits.toNat b.bits.toNat = .eq := h
    have := Std.LawfulEqCmp.eq_of_compare h
    cases a; cases b
    simp_all [BitVec.toNat_inj]

end Uuid

/-- The identity of a member. -/
structure Member where
  host : String
  /-- Zero until the member has joined. -/
  port : UInt16
  view : Int32 := 0
  name : String := ""
  uuid : Option Uuid := none
  weight : UInt8 := 0
  deriving DecidableEq, Repr

namespace Member

/-! ## Order -/

/-- Members are ordered by host, then port, view, name, uuid and weight. -/
def compareFields : Member → Member → Ordering :=
  compareLex (compareOn host) (compareLex (compareOn port) (compareLex (compareOn view)
    (compareLex (compareOn name) (compareLex (compareOn uuid) (compareOn weight)))))

instance : Ord Member := ⟨compareFields⟩

instance : Std.TransOrd Member :=
  inferInstanceAs (Std.TransCmp (compareLex (compareOn host) (compareLex (compareOn port)
    (compareLex (compareOn view) (compareLex (compareOn name)
      (compareLex (compareOn uuid) (compareOn weight)))))))

instance : Std.LawfulEqOrd Member where
  eq_of_compare {a b} h := by
    have h : compareFields a b = .eq := h
    simp only [compareFields, compareLex_eq_eq, compareOn, Std.compare_eq_iff_eq] at h
    obtain ⟨h1, h2, h3, h4, h5, h6⟩ := h
    cases a; cases b
    simp_all

/-! ## Text -/

/-- How the member is shown: the host, the name in brackets if there is one, view and port. -/
def display (m : Member) : String :=
  m.host ++ (if m.name = "" then "" else s!"({m.name})")
    ++ s!"<v{m.view.toInt}>:{m.port.toNat}"

/-! ## Essential data -/

/-- The number of octets that older versions add to a member's essential data. -/
def legacySuffixLength : Nat := 17

/-- What older versions add: the uuid, zero if there is none, and the weight. -/
def legacySuffix (m : Member) : Bytes :=
  (m.uuid.getD .zero).toBytes ++ Encode.u8 m.weight

/-- The writing of a member's essential data, as far as it gets. -/
def essentialDraft (m : Member) (version : Version) : Draft :=
  Encode.text m.host
    ++ .ofBytes (BigEndian.ofNat 4 m.port.toNat ++ Encode.i32 m.view)
    ++ Encode.text m.name
    ++ .ofBytes (if version.needsLegacyMember then m.legacySuffix else [])

/-- The essential data of a member, as octets of their own. -/
def essentialBytes (m : Member) (version : Version) : Except Fault Bytes :=
  (m.essentialDraft version).result

/-- A port in the four octets that essential data gives it. -/
def readPort : Reader UInt16 := do
  let port ← Reader.i32
  if 0 ≤ port.toInt ∧ port.toInt ≤ 65535 then return UInt16.ofNat port.toInt.toNat
  else .fail (.malformed (.memberPort port))

/-- The uuid and weight that end a member's essential data, if they are there. -/
def readSuffix : Reader (Option Uuid × UInt8) := do
  let left ← Reader.remaining
  if left = 0 then return (none, 0)
  else if left = legacySuffixLength then
    let uuid := Uuid.ofBytes (← Reader.take 16)
    let weight ← Reader.u8
    return (if uuid = .zero then none else some uuid, weight)
  else .fail (.malformed (.memberTrailing left))

/-- Reads essential data in either form; what is left tells which. -/
def readEssential : Reader Member := do
  let host ← Reader.text
  let port ← readPort
  let view ← Reader.i32
  let name ← Reader.text
  let (uuid, weight) ← readSuffix
  return { host, port, view, name, uuid, weight }

/-- The member that essential data names. -/
def ofEssentialBytes (bytes : Bytes) : Except Fault Member :=
  readEssential.parse bytes

end Member

end DataGrid
