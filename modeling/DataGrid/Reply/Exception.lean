import DataGrid.Json.Reader
import DataGrid.Json.Writer
import DataGrid.Reply.UuidText

/-!
# Reply exceptions — what went wrong at another member

A member that cannot do what it was asked answers with an exception: a kind, a message, and who
sent it, if the sender says so. Exceptions travel as JSON with their fields in a fixed order.
Reading is more liberal. Fields may come in any order, none of them twice, and fields of other
names are skipped; a list of the values in the fixed order does as well; and the kind may also be
the one field of an object, with a null for its value.
-/

namespace DataGrid

/-- The kinds of failure that a member reports. -/
inductive ExceptionKind where
  | entryNotFound
  /-- A delta could not be applied, and the whole value is wanted. -/
  | invalidDelta
  | concurrentModification
  | cancelled
  /-- A payload could not be serialized. -/
  | serialization
  | internal
  deriving DecidableEq, Repr

namespace ExceptionKind

def name : ExceptionKind → String
  | .entryNotFound => "EntryNotFound"
  | .invalidDelta => "InvalidDelta"
  | .concurrentModification => "ConcurrentModification"
  | .cancelled => "Cancelled"
  | .serialization => "Serialization"
  | .internal => "Internal"

/-- Every kind. -/
def all : List ExceptionKind :=
  [.entryNotFound, .invalidDelta, .concurrentModification, .cancelled, .serialization, .internal]

/-- The kind of a name. -/
def ofName? (name : String) : Option ExceptionKind := all.find? (·.name == name)

end ExceptionKind

/-- A failure that a member reports in its reply. -/
structure ReplyException where
  kind : ExceptionKind
  message : String
  sender : Option Member := none
  deriving DecidableEq, Repr

namespace ReplyException

/-- How the exception is shown. -/
def display (e : ReplyException) : String := s!"{e.kind.name}: {e.message}"

/-- The exception with the member that raised it. -/
def fromMember (e : ReplyException) (member : Member) : ReplyException :=
  { e with sender := some member }

/-- Whether the exception asks for the whole value. -/
def wantsFullValue (e : ReplyException) : Bool := e.kind == .invalidDelta

end ReplyException

/-! ## Writing -/

namespace Json

/-- A member, fields in their fixed order. -/
def ofMember (m : Member) : Json :=
  .object [("host", .text m.host), ("port", ofNat m.port.toNat), ("view_id", ofInt m.view.toInt),
    ("name", .text m.name), ("uuid", (m.uuid.map fun u => .text u.toText).getD .null),
    ("weight", ofNat m.weight.toNat)]

/-- An exception, fields in their fixed order. -/
def ofException (e : ReplyException) : Json :=
  .object [("kind", .text e.kind.name), ("message", .text e.message),
    ("sender", (e.sender.map ofMember).getD .null)]

/-! ## Reading -/

variable {σ α : Type}

/-- Reads fields up to the end of their object, each by a step that is told its name. -/
def foldFields (step : String → σ → Bytes → Option (σ × Bytes)) :
    (fuel : Nat) → σ → Bytes → Option (σ × Bytes)
  | 0, _, _ => none
  | fuel + 1, s, bytes =>
    match string? bytes with
    | none => none
    | some (name, rest) =>
      match (mark? 0x3A rest).bind (step name s) with
      | none => none
      | some (s, rest) =>
        match skipBlanks rest with
        | [] => none
        | byte :: rest =>
          if byte = 0x2C then foldFields step fuel s rest
          else if byte = 0x7D then some (s, rest)
          else none

/-- Reads an object whose opening mark was read. -/
def objectBody? (step : String → σ → Bytes → Option (σ × Bytes)) (s : σ) (bytes : Bytes) :
    Option (σ × Bytes) :=
  match mark? 0x7D bytes with
  | some rest => some (s, rest)
  | none => foldFields step (enough bytes) s bytes

/-- A value that may be null. -/
def nullable? (read : Bytes → Option (α × Bytes)) (bytes : Bytes) : Option (Option α × Bytes) :=
  match word? nullWord (skipBlanks bytes) with
  | some rest => some (none, rest)
  | none => (read bytes).map fun (a, rest) => (some a, rest)

/-- A whole number from `low` to `high`. -/
def int? (low high : Int) (bytes : Bytes) : Option (Int × Bytes) := do
  let (numeral, rest) ← Numeral.read? (skipBlanks bytes)
  let n ← (Json.number (← numeral.value?)).toIntBetween? low high
  return (n, rest)

/-- A uuid as text. -/
def uuid? (bytes : Bytes) : Option (Uuid × Bytes) := do
  let (s, rest) ← string? bytes
  return (← Uuid.ofText? s, rest)

/-- Sets a field that was not set before to what a reader finds. -/
def once (field : Option α) (read : Bytes → Option (α × Bytes)) (set : α → σ) (bytes : Bytes) :
    Option (σ × Bytes) :=
  match field with
  | some _ => none
  | none => (read bytes).map fun (a, rest) => (set a, rest)

/-- What is known of a member while its fields are read. -/
structure MemberFields where
  host : Option String := none
  port : Option Int := none
  view : Option Int := none
  name : Option String := none
  uuid : Option (Option Uuid) := none
  weight : Option Int := none

/-- The value of a port. -/
def port? : Bytes → Option (Int × Bytes) := int? 0 65535

/-- The value of a view. -/
def view? : Bytes → Option (Int × Bytes) := int? (-2147483648) 2147483647

/-- The value of a weight. -/
def weight? : Bytes → Option (Int × Bytes) := int? 0 255

/-- Reads one field of a member. -/
def memberField (field : String) (m : MemberFields) (bytes : Bytes) :
    Option (MemberFields × Bytes) :=
  match field with
  | "host" => once m.host string? (fun v => { m with host := v }) bytes
  | "port" => once m.port port? (fun v => { m with port := v }) bytes
  | "view_id" => once m.view view? (fun v => { m with view := v }) bytes
  | "name" => once m.name string? (fun v => { m with name := v }) bytes
  | "uuid" => once m.uuid (nullable? uuid?) (fun v => { m with uuid := some v }) bytes
  | "weight" => once m.weight weight? (fun v => { m with weight := v }) bytes
  | _ => (skipValue (enough bytes) bytes).map fun rest => (m, rest)

/-- The member of its parts. -/
def memberOf (host : String) (port view : Int) (name : String) (uuid : Option Uuid)
    (weight : Int) : Member :=
  { host, port := UInt16.ofNat port.toNat, view := Int32.ofInt view, name, uuid,
    weight := UInt8.ofNat weight.toNat }

/-- A member, as an object or as the list of its values. -/
def member? (bytes : Bytes) : Option (Member × Bytes) :=
  match skipBlanks bytes with
  | 0x7B :: rest => do
    let (m, rest) ← objectBody? memberField {} rest
    return (memberOf (← m.host) (← m.port) (← m.view) (← m.name) (m.uuid.getD none)
      (← m.weight), rest)
  | 0x5B :: rest => do
    let (host, rest) ← string? rest
    let (port, rest) ← port? (← mark? 0x2C rest)
    let (view, rest) ← view? (← mark? 0x2C rest)
    let (name, rest) ← string? (← mark? 0x2C rest)
    let (uuid, rest) ← nullable? uuid? (← mark? 0x2C rest)
    let (weight, rest) ← weight? (← mark? 0x2C rest)
    return (memberOf host port view name uuid weight, ← mark? 0x5D rest)
  | _ => none

/-- The kind of an exception: its name, or an object whose one field has that name and is null. -/
def exceptionKind? (bytes : Bytes) : Option (ExceptionKind × Bytes) :=
  match skipBlanks bytes with
  | 0x22 :: rest => do
    let (name, rest) ← stringBody? rest
    return (← ExceptionKind.ofName? name, rest)
  | 0x7B :: rest => do
    let (name, rest) ← string? rest
    let kind ← ExceptionKind.ofName? name
    let rest ← word? nullWord (skipBlanks (← mark? 0x3A rest))
    return (kind, ← mark? 0x7D rest)
  | _ => none

/-- What is known of an exception while its fields are read. -/
structure ExceptionFields where
  kind : Option ExceptionKind := none
  message : Option String := none
  sender : Option (Option Member) := none

/-- Reads one field of an exception. -/
def exceptionField (field : String) (e : ExceptionFields) (bytes : Bytes) :
    Option (ExceptionFields × Bytes) :=
  match field with
  | "kind" => once e.kind exceptionKind? (fun v => { e with kind := v }) bytes
  | "message" => once e.message string? (fun v => { e with message := v }) bytes
  | "sender" => once e.sender (nullable? member?) (fun v => { e with sender := some v }) bytes
  | _ => (skipValue (enough bytes) bytes).map fun rest => (e, rest)

/-- An exception, as an object or as the list of its values. -/
def exception? (bytes : Bytes) : Option (ReplyException × Bytes) :=
  match skipBlanks bytes with
  | 0x7B :: rest => do
    let (e, rest) ← objectBody? exceptionField {} rest
    return ({ kind := ← e.kind, message := ← e.message, sender := e.sender.getD none }, rest)
  | 0x5B :: rest => do
    let (kind, rest) ← exceptionKind? rest
    let (message, rest) ← string? (← mark? 0x2C rest)
    let (sender, rest) ← nullable? member? (← mark? 0x2C rest)
    return ({ kind, message, sender }, ← mark? 0x5D rest)
  | _ => none

end Json

end DataGrid
