import DataGrid.Member
import DataGrid.Ordered.Map

/-!
# Network — frames between members

Every member has a port. A port sends over its links, which name the port that a peer is reached
at, and keeps the frames it was sent until they are received. A link works in one direction.
Frames wait at a port that nobody receives from yet, and are refused by one that nobody receives
from any more.
-/

namespace DataGrid

/-- Who receives the frames sent to a port. -/
inductive Inlet where
  /-- Nobody yet. -/
  | waiting
  | taken
  /-- Nobody any more. -/
  | closed
  deriving DecidableEq, Repr

/-- A frame that arrived, and who sent it. -/
abbrev Arrival := Member × Bytes

/-- Where a member sends and receives frames. -/
structure Port where
  member : Member
  /-- The ports of the peers that can be reached. -/
  links : OrdMap Member Nat := .empty
  /-- The frames that have arrived, oldest first. -/
  inbox : List Arrival := []
  inlet : Inlet := .waiting
  deriving DecidableEq

/-- Why the network did not do what it was asked. -/
inductive NetworkError where
  | peerNotFound (peer : Member)
  /-- Nobody receives from the peer's port any more. -/
  | channelClosed
  | alreadySubscribed
  deriving DecidableEq, Repr

namespace NetworkError

/-- The error's name. -/
def name : NetworkError → String
  | .peerNotFound _ => "PeerNotFound"
  | .channelClosed => "SendFailed"
  | .alreadySubscribed => "AlreadySubscribed"

/-- What the error says. -/
def message : NetworkError → String
  | .peerNotFound peer => "Peer not found: " ++ peer.display
  | .channelClosed => "Send failed: channel closed"
  | .alreadySubscribed => "Inbound frames already subscribed"

end NetworkError

namespace Port

/-- Puts a frame behind the ones that wait. -/
def receive (p : Port) (arrival : Arrival) : Port := { p with inbox := p.inbox ++ [arrival] }

/-- Stops receiving. Frames that wait are lost. -/
def close (p : Port) : Port := { p with inlet := .closed, inbox := [] }

end Port

/-- Ports, each named by its place. -/
structure Network where
  ports : List Port := []
  deriving DecidableEq

namespace Network

/-- The port at a place. -/
def get? (n : Network) (i : Nat) : Option Port := n.ports[i]?

/-- The member of the port at a place. -/
def member? (n : Network) (i : Nat) : Option Member := (n.get? i).map (·.member)

/-- Changes the port at a place. -/
def modify (n : Network) (i : Nat) (f : Port → Port) : Network := ⟨n.ports.modify i f⟩

/-- Adds a port without links. -/
def addPort (n : Network) (m : Member) : Network := ⟨n.ports ++ [{ member := m }]⟩

/-! ## Links -/

/-- Lets the first port reach the second. -/
def link (n : Network) (i j : Nat) : Network :=
  match n.get? j with
  | some peer => n.modify i fun p => { p with links := p.links.insert peer.member j }
  | none => n

/-- Lets two ports reach each other. -/
def connect (n : Network) (i j : Nat) : Network := (n.link i j).link j i

/-- Cuts the link from a port to a peer. -/
def disconnect (n : Network) (i : Nat) (peer : Member) : Network :=
  n.modify i fun p => { p with links := p.links.erase peer }

/-- Cuts every link from a port and to its member. -/
def isolate (n : Network) (i : Nat) : Network :=
  match n.get? i with
  | some port =>
    let ports := n.ports.map fun p => { p with links := p.links.erase port.member }
    (⟨ports⟩ : Network).modify i fun p => { p with links := .empty }
  | none => n

/-- The peers that a port can reach. -/
def peers (n : Network) (i : Nat) : List Member := (n.get? i).elim [] (·.links.keys)

/-! ## Frames -/

/-- Sends a frame from a port to a peer. Answers the place that it reached. -/
def send (n : Network) (i : Nat) (peer : Member) (frame : Bytes) :
    Except NetworkError Nat × Network :=
  match n.get? i with
  | none => (.error (.peerNotFound peer), n)
  | some port =>
    match (port.links.get? peer).bind fun j => (n.get? j).map fun target => (j, target) with
    | none => (.error (.peerNotFound peer), n)
    | some (j, target) =>
      if target.inlet = .closed then (.error .channelClosed, n)
      else (.ok j, n.modify j fun p => p.receive (port.member, frame))

/-- Puts a frame that a port's member sent itself behind the ones that wait there. -/
def loopBack (n : Network) (i : Nat) (frame : Bytes) : Network :=
  n.modify i fun p => p.receive (p.member, frame)

/-- Begins to receive from a port, which nobody else may ever have done. -/
def subscribe (n : Network) (i : Nat) : Except NetworkError Unit × Network :=
  match n.get? i with
  | some { inlet := .waiting, .. } => (.ok (), n.modify i fun p => { p with inlet := .taken })
  | _ => (.error .alreadySubscribed, n)

/-- Takes the frames that have arrived at a port that somebody receives from. -/
def takeAll (n : Network) (i : Nat) : List Arrival × Network :=
  match n.get? i with
  | some { inlet := .taken, inbox, .. } => (inbox, n.modify i fun p => { p with inbox := [] })
  | _ => ([], n)

/-- Stops receiving from a port. -/
def unsubscribe (n : Network) (i : Nat) : Network := n.modify i Port.close

/-! ## A network of local members -/

/-- The local member of a place. -/
def localMember (i : Nat) : Member :=
  { host := "127.0.0.1", port := UInt16.ofNat (40400 + i), name := s!"member-{i}" }

/-- The pairs of places below `count`, the lower place first. -/
def pairs (count : Nat) : List (Nat × Nat) :=
  (List.range count).flatMap fun i =>
    ((List.range count).filter (i < ·)).map fun j => (i, j)

/-- As many local members as the count says, each of which can reach every other. -/
def localNetwork (count : Nat) : Network :=
  let ports := (List.range count).map fun i => ({ member := localMember i } : Port)
  (pairs count).foldl (fun n pair => n.connect pair.1 pair.2) ⟨ports⟩

end Network

end DataGrid
