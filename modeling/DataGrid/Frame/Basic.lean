import DataGrid.Frame.Message
import DataGrid.Ordered.Map

/-!
# Frames — a message on the wire

    [version : u16] [kind : u16] [body]

The version is the one the body was written at. The kind decides how the body is read, and a
receiver only reads the kinds it knows. A frame holds one message and nothing after it. Neither
the sender nor the recipients are part of a frame.
-/

namespace DataGrid

/-- How to read the body of a frame, for each kind that is known. -/
structure Registry (μ : Type) where
  readers : OrdMap UInt16 (Reader (Message μ))

namespace Registry

variable {μ : Type}

/-- The registry that knows replies alone. -/
def standard : Registry μ :=
  ⟨OrdMap.empty.insert Reply.messageKind do return .reply (← Reply.read)⟩

/-- Learns to read a kind of the application's messages. -/
def register (r : Registry μ) (kind : UInt16) (reader : Reader μ) : Registry μ :=
  ⟨r.readers.insert kind do return .app (← reader)⟩

/-- Whether a kind is known. -/
def knows (r : Registry μ) (kind : UInt16) : Bool := r.readers.contains kind

/-- How to read the body of a frame of a kind. -/
def bodyReader (r : Registry μ) (kind : UInt16) : Reader (Message μ) :=
  match r.readers.get? kind with
  | some reader => reader
  | none => .fail (.unknownKind kind)

end Registry

namespace Frame

variable {μ : Type}

/-- The frame of a message at a version. -/
def encode [AppMessage μ] (m : Message μ) (version : Version) : Except Fault Bytes := do
  let body ← m.body version
  return Encode.u16 version.ordinal ++ Encode.u16 m.kind ++ body

/-- Reads the version of a frame. -/
def readVersion : Reader Version := do
  let ordinal ← Reader.u16
  match Version.ofOrdinal? ordinal with
  | some version => return version
  | none => .fail (.unknownVersion ordinal)

/-- Reads a frame to its end. -/
def read (registry : Registry μ) : Reader (Message μ) := do
  let _ ← readVersion
  let kind ← Reader.u16
  let message ← registry.bodyReader kind
  let left ← Reader.remaining
  if left = 0 then return message else .fail (.malformed (.trailing left kind))

/-- The message that a frame holds. -/
def decode (registry : Registry μ) (frame : Bytes) : Except Fault (Message μ) :=
  (read registry).parse frame

end Frame

end DataGrid
