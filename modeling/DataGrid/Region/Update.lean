import DataGrid.Event.EventId
import DataGrid.Frame.Message

/-!
# Updates — one write to a region, for the other members

    [processor id : i32] [event id] [key : octets]
    [payload tag : u8]   0 whole value, 1 delta, 2 destroy
    [payload : octets]   for a whole value and a delta
-/

namespace DataGrid

/-- What an update does to its key. -/
inductive Payload where
  /-- The snapshot of the entity. -/
  | full (snapshot : Bytes)
  /-- A delta to the receiver's copy. -/
  | delta (octets : Bytes)
  | destroy
  deriving DecidableEq, Repr

namespace Payload

def isDelta : Payload → Bool
  | .delta _ => true
  | _ => false

/-- The tag of the payload, and its octets if it has any. -/
def encode : Payload → Bytes
  | .full snapshot => Encode.u8 0 ++ Encode.bytes snapshot
  | .delta octets => Encode.u8 1 ++ Encode.bytes octets
  | .destroy => Encode.u8 2

/-- Reads a payload behind its tag. -/
def read : Reader Payload := do
  let tag ← Reader.u8
  if tag = 0 then return .full (← Reader.bytes)
  else if tag = 1 then return .delta (← Reader.bytes)
  else if tag = 2 then return .destroy
  else .fail (.malformed (.updateTag tag))

end Payload

/-- One write to a region. -/
structure Update where
  /-- The processor that waits for a reply, zero for none. -/
  processor : Int32 := 0
  event : EventId
  key : Bytes
  payload : Payload
  deriving DecidableEq, Repr

namespace Update

/-- The number of updates among the kinds of message. -/
def messageKind : UInt16 := 1001

/-- The octets of an update at a version. -/
def encode (u : Update) (version : Version) : Except Fault Bytes := do
  let event ← u.event.encode version
  return Encode.i32 u.processor ++ event ++ Encode.bytes u.key ++ u.payload.encode

/-- Reads an update. -/
def read : Reader Update := do
  let processor ← Reader.i32
  let event ← EventId.read
  let key ← Reader.bytes
  let payload ← Payload.read
  return { processor, event, key, payload }

instance : AppMessage Update where
  kind _ := messageKind
  priority _ := .normal
  isInline _ := false
  processor := processor
  isReply _ := false
  encode := encode

end Update

end DataGrid
