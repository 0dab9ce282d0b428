import DataGrid.Event.Error
import DataGrid.Fabric.Network

/-!
# Fabric errors — why a message was not sent or not handled
-/

namespace DataGrid

/-- Why a message has nobody to go to. -/
inductive RecipientsFault where
  | replyToAll
  | emptyList
  /-- The sender is the only member. -/
  | nobodyElse
  deriving DecidableEq, Repr

namespace RecipientsFault

/-- What the fault says. -/
def message : RecipientsFault → String
  | .replyToAll => "a reply cannot be broadcast"
  | .emptyList => "recipient list is empty"
  | .nobodyElse => "no other member to send to"

end RecipientsFault

/-- Why a message was not sent or not handled. -/
inductive FabricError where
  | wire (fault : Fault)
  | event (e : EventError)
  | transport (why : NetworkError)
  | recipients (why : RecipientsFault)
  | frameTooLarge (size limit : Nat)
  /-- The message's handler failed. -/
  | handler (why : String)
  /-- The member has shut down. -/
  | shutdown
  deriving DecidableEq, Repr

namespace FabricError

/-- The error's name. -/
def name : FabricError → String
  | .wire fault => fault.name
  | .event e => e.name
  | .transport _ => "Transport"
  | .recipients _ => "InvalidRecipients"
  | .frameTooLarge .. => "FrameTooLarge"
  | .handler _ => "Handler"
  | .shutdown => "Shutdown"

/-- What the error says. -/
def message : FabricError → String
  | .wire fault => fault.message
  | .event e => e.message
  | .transport why => "Transport error: " ++ why.message
  | .recipients why => "Invalid recipients: " ++ why.message
  | .frameTooLarge size limit => s!"Frame of {size} bytes exceeds the {limit} byte limit"
  | .handler why => "Handler failed: " ++ why
  | .shutdown => "Distribution manager is shut down"

end FabricError

end DataGrid
