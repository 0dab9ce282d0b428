import DataGrid.Json.Decode
import DataGrid.Json.Encode
import DataGrid.Json.Place
import DataGrid.Reply.Exception

/-!
# Replies — answers to a waiting member

A reply names the processor that waits for it, and carries a value, an exception or nothing. Its
body is a status octet followed by the fields that the status promises:

    [status : u8]
      0x01 processor id   0x02 ignored   0x04 exception   0x08 closed
      0x10, 0x20 reserved                0x40 object      0x80 internal
    [processor id : i32]        if the status says so
    [payload : octets]          if the status says exception or object

The payload is JSON: an object with one field, `Value` or `Exception`. It is made before the
status, so a payload that cannot be made turns into an exception instead of a failed send. The
reserved bits are carried through untouched.
-/

namespace DataGrid

/-- Whether a status has any of the bits of a flag. -/
def testFlag (status flag : UInt8) : Bool := status &&& flag ≠ 0

/-- Why an outbound object has no JSON form. -/
inductive ObjectError where
  /-- A map has a key that is no text. -/
  | keyNotText
  /-- The object itself says why. -/
  | other (why : String)
  deriving DecidableEq, Repr

namespace ObjectError

/-- What the error says. -/
def message : ObjectError → String
  | .keyNotText => "key must be a string"
  | .other why => Place.normalize why

end ObjectError

/-- What a reply carries. -/
inductive ReplyValue where
  | none
  /-- An outbound object: its JSON form, or why it has none. -/
  | object (form : Except ObjectError Json)
  /-- A value that was read. -/
  | json (value : Json)
  | exception (e : ReplyException)

namespace ReplyValue

/-- The outbound object of a value. -/
def ofValue {α : Type} [ToJson α] (a : α) : ReplyValue := .object (.ok (toJson a))

end ReplyValue

/-- An answer to the member that asked. -/
structure Reply where
  /-- The processor that waits for the reply, zero for none. -/
  processor : Int32
  /-- The request was not carried out. -/
  ignored : Bool := false
  closed : Bool := false
  internal : Bool := false
  value : ReplyValue := .none
  reserved : UInt8 := 0

namespace Reply

/-- The number of reply messages among the kinds of message. -/
def messageKind : UInt16 := 1

def processorFlag : UInt8 := 0x01
def ignoredFlag : UInt8 := 0x02
def exceptionFlag : UInt8 := 0x04
def closedFlag : UInt8 := 0x08
def objectFlag : UInt8 := 0x40
def internalFlag : UInt8 := 0x80
def reservedFlags : UInt8 := 0x30

/-- The reply with the reserved bits of a status. -/
def setReserved (r : Reply) (flags : UInt8) : Reply :=
  { r with reserved := flags &&& reservedFlags }

/-- The exception that a reply carries. -/
def exception? (r : Reply) : Option ReplyException :=
  match r.value with
  | .exception e => some e
  | _ => none

def isException (r : Reply) : Bool := r.exception?.isSome

/-- The value that a reply carries. -/
def value? (r : Reply) : Option Json :=
  match r.value with
  | .json value => some value
  | .object (.ok value) => some value
  | _ => none

/-- The value that a reply carries, as a value of a type; none if it carries no value, and a
failure if the value is of another type. -/
def valueAs? (r : Reply) (α : Type) [OfJson α] : Option (Option α) := r.value?.map (·.as? α)

/-- How the reply is shown. -/
def display (r : Reply) : String :=
  s!"ReplyMessage processorId={r.processor.toInt}"
    ++ (if r.ignored then " ignored" else "")
    ++ (if r.closed then " closed" else "")
    ++ match r.exception? with
      | some e =>
        if e.wantsFullValue then " with request for full value"
        else " with exception " ++ e.display
      | none => ""

/-! ## Writing -/

/-- The payload of a value. -/
def valuePayload (value : Json) : Bytes := Json.write (.object [("Value", value)])

/-- The payload of an exception. -/
def exceptionPayload (e : ReplyException) : Bytes :=
  Json.write (.object [("Exception", Json.ofException e)])

/-- The exception that stands in for an object without a JSON form. -/
def unserializable (why : ObjectError) : ReplyException :=
  { kind := .serialization, message := "Unable to serialize reply payload: " ++ why.message }

/-- The payload of a reply and its flag, if it has one. -/
def payload? (r : Reply) : Option (UInt8 × Bytes) :=
  match r.value with
  | .none => none
  | .json value => some (objectFlag, valuePayload value)
  | .object (.ok value) => some (objectFlag, valuePayload value)
  | .object (.error why) => some (exceptionFlag, exceptionPayload (unserializable why))
  | .exception e => some (exceptionFlag, exceptionPayload e)

/-- The status octet of a reply. -/
def status (r : Reply) : UInt8 :=
  (r.reserved &&& reservedFlags)
    ||| (if r.processor ≠ 0 then processorFlag else 0)
    ||| (if r.ignored then ignoredFlag else 0)
    ||| (match r.payload? with
      | some (flag, _) => flag
      | none => 0)
    ||| (if r.closed then closedFlag else 0)
    ||| (if r.internal then internalFlag else 0)

/-- The body of a reply. -/
def encode (r : Reply) : Bytes :=
  Encode.u8 r.status
    ++ (if r.processor ≠ 0 then Encode.i32 r.processor else [])
    ++ match r.payload? with
      | some (_, payload) => Encode.bytes payload
      | none => []

/-! ## Reading -/

/-- What a payload holds. -/
inductive Payload where
  | value (value : Json)
  | exception (e : ReplyException)

/-- The payload that octets spell: an object with one field, and nothing after it. The object
counts towards the lists and objects that may be open at once. -/
def payloadOfBytes? (bytes : Bytes) : Option Payload := do
  let (name, rest) ← Json.string? (← Json.mark? 0x7B bytes)
  let rest ← Json.mark? 0x3A rest
  let (payload, rest) ←
    if name = "Value" then
      (Json.value? (Json.enough rest) (Json.depthLimit - 1) rest).map fun (v, rest) =>
        (Payload.value v, rest)
    else if name = "Exception" then
      (Json.exception? rest).map fun (e, rest) => (Payload.exception e, rest)
    else none
  let rest ← Json.mark? 0x7D rest
  if Json.skipBlanks rest = [] then some payload else none

/-- Reads the value of a reply with a given status. -/
def readValue (status : UInt8) : Reader ReplyValue := do
  if testFlag status (exceptionFlag ||| objectFlag) then
    match payloadOfBytes? (← Reader.bytes) with
    | none => .fail (.malformed .replyPayload)
    | some (.exception e) => return .exception e
    | some (.value v) =>
      if testFlag status exceptionFlag then .fail (.malformed .exceptionExpected)
      else return .json v
  else return .none

/-- Reads the body of a reply. -/
def read : Reader Reply := do
  let status ← Reader.u8
  let processor ← if testFlag status processorFlag then Reader.i32 else pure 0
  let value ← readValue status
  return {
    processor, value
    ignored := testFlag status ignoredFlag
    closed := testFlag status closedFlag
    internal := testFlag status internalFlag
    reserved := status &&& reservedFlags }

end Reply

end DataGrid
