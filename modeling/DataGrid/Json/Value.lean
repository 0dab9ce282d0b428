import DataGrid.Number.Binary64

/-!
# Json — values as a reply carries them

A reply's payload is a JSON value. Numbers keep the kind they were written in: whole numbers that
fit sixty-four bits stay whole, everything else is a floating-point number. The fields of an
object stand in the order of their names, each name once (`Json.ofFields`).
-/

namespace DataGrid

/-- A number of a JSON value. -/
inductive JsonNumber where
  | natural (n : UInt64)
  /-- A whole number below zero. -/
  | negative (n : Int64)
  | float (x : Binary64)
  deriving DecidableEq, Repr

/-- A JSON value. -/
inductive Json where
  | null
  | bool (b : Bool)
  | number (n : JsonNumber)
  | text (s : String)
  | list (items : List Json)
  | object (fields : List (String × Json))
  deriving Repr

namespace Json

instance : Inhabited Json := ⟨.null⟩

/-- A whole number that fits, as a number. -/
def ofInt (n : Int) : Json :=
  if 0 ≤ n then .number (.natural (UInt64.ofNat n.toNat)) else .number (.negative (Int64.ofInt n))

/-- A natural number as a number. -/
def ofNat (n : Nat) : Json := .number (.natural (UInt64.ofNat n))

/-- A floating-point number as a value: what is not finite is null. -/
def ofFloat (x : Binary64) : Json :=
  if x.isFinite then .number (.float x) else .null

/-- Fields with one more, in its place; a name that is there already gets the new value. -/
def setField (name : String) (value : Json) : List (String × Json) → List (String × Json)
  | [] => [(name, value)]
  | (name', value') :: rest =>
    match compare name name' with
    | .lt => (name, value) :: (name', value') :: rest
    | .eq => (name, value) :: rest
    | .gt => (name', value') :: setField name value rest

/-- An object of fields; of two with one name the later counts. -/
def ofFields (fields : List (String × Json)) : Json :=
  .object (fields.foldl (fun done field => setField field.1 field.2 done) [])

/-- The value under a name of an object. -/
def field? (name : String) : Json → Option Json
  | .object fields => fields.lookup name
  | _ => none

/-- The value under a name of an object, null if there is none. -/
def get (json : Json) (name : String) : Json := (json.field? name).getD .null

/-! ## Values as other types -/

/-- The whole number of a value that is one. -/
def toInt? : Json → Option Int
  | .number (.natural n) => some n.toNat
  | .number (.negative n) => some n.toInt
  | _ => none

/-- The whole number of a value, if it is one from `low` to `high`. -/
def toIntBetween? (low high : Int) (json : Json) : Option Int := do
  let n ← json.toInt?
  if low ≤ n ∧ n ≤ high then some n else none

def toBool? : Json → Option Bool
  | .bool b => some b
  | _ => none

def toText? : Json → Option String
  | .text s => some s
  | _ => none

def toList? : Json → Option (List Json)
  | .list items => some items
  | _ => none

def toFields? : Json → Option (List (String × Json))
  | .object fields => some fields
  | _ => none

end Json

end DataGrid
