import DataGrid.Reply.Basic

/-!
# Messages — what members say to each other

Replies are known to every member. What else is said depends on the application: it brings a type
of messages of its own and says, for each, how it is numbered, how urgent it is, and what its
octets are. Replies are urgent and are handled as they arrive, since they only hand a value to
whoever waits for it.
-/

namespace DataGrid

/-- How urgent a message is. -/
inductive Priority where
  | normal
  /-- Taken from a member's queue ahead of everything normal. -/
  | high
  deriving DecidableEq, Repr

/-- Whom a message is addressed to. -/
inductive Recipients where
  /-- Every current member but the sender. -/
  | all
  | members (list : List Member)
  deriving DecidableEq, Repr

/-- A type of messages that an application exchanges. -/
class AppMessage (μ : Type) where
  /-- The number that tells a frame's receiver how to read it. -/
  kind : μ → UInt16
  priority : μ → Priority
  /-- Whether the message is handled as it arrives instead of being queued. -/
  isInline : μ → Bool
  /-- The processor that waits for a reply to the message, or that it answers; zero for none. -/
  processor : μ → Int32
  /-- Whether the message answers another one. -/
  isReply : μ → Bool
  /-- The body of the message's frame at a version. -/
  encode : μ → Version → Except Fault Bytes

/-- Two applications side by side. -/
instance {μ ν : Type} [AppMessage μ] [AppMessage ν] : AppMessage (μ ⊕ ν) where
  kind := Sum.elim AppMessage.kind AppMessage.kind
  priority := Sum.elim AppMessage.priority AppMessage.priority
  isInline := Sum.elim AppMessage.isInline AppMessage.isInline
  processor := Sum.elim AppMessage.processor AppMessage.processor
  isReply := Sum.elim AppMessage.isReply AppMessage.isReply
  encode := Sum.elim AppMessage.encode AppMessage.encode

/-- A message between members. -/
inductive Message (μ : Type) where
  | reply (r : Reply)
  | app (m : μ)

namespace Message

variable {μ : Type} [AppMessage μ]

/-- The number that tells a frame's receiver how to read it. -/
def kind : Message μ → UInt16
  | .reply _ => Reply.messageKind
  | .app m => AppMessage.kind m

/-- How urgent the message is. -/
def priority : Message μ → Priority
  | .reply _ => .high
  | .app m => AppMessage.priority m

/-- Whether the message is handled as it arrives. -/
def isInline : Message μ → Bool
  | .reply _ => true
  | .app m => AppMessage.isInline m

/-- The processor that the message is about, zero for none. -/
def processor : Message μ → Int32
  | .reply r => r.processor
  | .app m => AppMessage.processor m

/-- Whether the message answers another one. -/
def isReply : Message μ → Bool
  | .reply _ => true
  | .app m => AppMessage.isReply m

/-- The body of the message's frame at a version. -/
def body (version : Version) : Message μ → Except Fault Bytes
  | .reply r => .ok r.encode
  | .app m => AppMessage.encode m version

end Message

end DataGrid
