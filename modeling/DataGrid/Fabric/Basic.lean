import DataGrid.Event.EventId
import DataGrid.Fabric.Config
import DataGrid.Fabric.Error
import DataGrid.Fabric.Membership
import DataGrid.Fabric.TaskQueue
import DataGrid.Frame.Basic
import DataGrid.Reply.Keeper

/-!
# Fabric — members, their network, and what each of them keeps

A fabric is a network, one membership that all its members see, and for each member that takes
part a node: how it reads frames, who waits for answers, what is queued for its workers, under
which identity it names events, and the state that the application attached to it. A port without
a node only sends and receives octets.

The application says how a member acts on a message (`Service`). A handler sees its own member,
the sender and the attached state, changes that state, and may answer.
-/

namespace DataGrid

/-- How a member acts on an application's messages: on success there may be a reply for the
sender, on failure there is a text. -/
class Service (μ σ : Type) where
  handle : μ → (here sender : Member) → Option σ → Except String (Option Reply) × Option σ

/-- A message that arrived, and who sent it. -/
structure Inbound (μ : Type) where
  sender : Member
  message : Message μ

/-- A member that takes part: what it keeps in order to send, to answer and to wait. -/
structure Node (μ σ : Type) where
  member : Member
  config : Config
  registry : Registry μ := .standard
  keeper : Keeper := {}
  queue : TaskQueue (Inbound μ) := {}
  connection : Option Connection := none
  identity : IdentityCache := {}
  /-- The state that handlers find. -/
  attached : Option σ := none
  /-- The token under which the member is told of departures. -/
  listener : Nat
  started : Bool := false
  isShutdown : Bool := false

/-- What a node does when its turn comes. -/
inductive Activity where
  /-- The node of a place takes in the frames that have arrived. -/
  | receive (place : Nat)
  /-- The workers of a place handle what is queued. -/
  | work (place : Nat)
  deriving DecidableEq, Repr

/-- The members of one process. -/
structure Fabric (μ σ : Type) where
  network : Network := {}
  membership : Membership := {}
  /-- The nodes, by the place of their port. -/
  nodes : OrdMap Nat (Node μ σ) := .empty
  /-- The activities that something waits for, in the order in which they fell due. -/
  due : List Activity := []
  /-- The number of connections made. -/
  connections : Nat := 0
  threads : ThreadIds := {}

namespace Fabric

variable {μ σ : Type}

/-- The node at a place. -/
def node? (w : Fabric μ σ) (i : Nat) : Option (Node μ σ) := w.nodes.get? i

/-- The fabric with a node in its place. -/
def setNode (w : Fabric μ σ) (i : Nat) (n : Node μ σ) : Fabric μ σ :=
  { w with nodes := w.nodes.insert i n }

/-- Changes the node at a place. -/
def modify (w : Fabric μ σ) (i : Nat) (f : Node μ σ → Node μ σ) : Fabric μ σ :=
  match w.node? i with
  | some n => w.setNode i (f n)
  | none => w

/-- Changes the keeper of a node. -/
def modifyKeeper (w : Fabric μ σ) (i : Nat) (f : Keeper → Keeper) : Fabric μ σ :=
  w.modify i fun n => { n with keeper := f n.keeper }

/-- Attaches the state that the handlers of a node find. -/
def attach (w : Fabric μ σ) (i : Nat) (s : σ) : Fabric μ σ :=
  w.modify i fun n => { n with attached := some s }

/-- The state that the handlers of a node find. -/
def attached? (w : Fabric μ σ) (i : Nat) : Option σ := (w.node? i).bind (·.attached)

/-- Lets a node learn to read a kind of the application's messages. -/
def learn (w : Fabric μ σ) (i : Nat) (kind : UInt16) (reader : Reader μ) : Fabric μ σ :=
  w.modify i fun n => { n with registry := n.registry.register kind reader }

/-- Changes the network. -/
def modifyNetwork (w : Fabric μ σ) (f : Network → Network) : Fabric μ σ :=
  { w with network := f w.network }

/-- Makes an activity due, behind those that are due already. One that is due keeps its turn. -/
def call (w : Fabric μ σ) (a : Activity) : Fabric μ σ :=
  if a ∈ w.due then w else { w with due := w.due ++ [a] }

/-- Whether a node receives frames. -/
def receives (w : Fabric μ σ) (i : Nat) : Bool :=
  (w.node? i).any fun n => n.started && !n.isShutdown

/-- Lets a node know of a frame that has arrived at its port. -/
def notify (w : Fabric μ σ) (i : Nat) : Fabric μ σ :=
  if w.receives i then w.call (.receive i) else w

/-! ## Taking part -/

/-- A new connection of a member, under a number of its own. -/
def newConnection (w : Fabric μ σ) (m : Member) : Connection × Fabric μ σ :=
  ({ id := w.connections + 1, member := m }, { w with connections := w.connections + 1 })

/-- Lets the member of a port take part: it hears of departures and has a connection. It fails if
the member has no identity to name events under. -/
def addNode (w : Fabric μ σ) (i : Nat) (config : Config) : Except FabricError Unit × Fabric μ σ :=
  match w.network.member? i with
  | none => (.ok (), w)
  | some member =>
    let (connection, w) := w.newConnection member
    match IdentityCache.connect {} connection with
    | (.error fault, _) => (.error (.wire fault), w)
    | (.ok (), identity) =>
      let (listener, membership) := w.membership.listen i
      let n : Node μ σ :=
        { member, config, connection := some connection, identity, listener }
      (.ok (), { w with membership }.setNode i n)

/-- Begins to receive, with the frames that have arrived so far. -/
def start (w : Fabric μ σ) (i : Nat) : Except FabricError Unit × Fabric μ σ :=
  match w.node? i with
  | none => (.error .shutdown, w)
  | some n =>
    if n.isShutdown then (.error .shutdown, w)
    else
      match w.network.subscribe i with
      | (.error why, _) => (.error (.transport why), w)
      | (.ok (), network) =>
        let w := { w with network }.setNode i { n with started := true }
        (.ok (), (w.call (.receive i)).call (.work i))

/-- Drops the connection of a node. Its events have no identity until it connects again. -/
def disconnect (w : Fabric μ σ) (i : Nat) : Fabric μ σ :=
  w.modify i fun n => { n with connection := none, identity := n.identity.clear }

/-- Connects a node anew. -/
def reconnect (w : Fabric μ σ) (i : Nat) : Except FabricError Unit × Fabric μ σ :=
  match w.node? i with
  | none => (.error .shutdown, w)
  | some n =>
    let (connection, w) := w.newConnection n.member
    match n.identity.connect connection with
    | (.error fault, _) => (.error (.wire fault), w)
    | (.ok (), identity) =>
      (.ok (), w.setNode i { n with connection := some connection, identity })

/-- Whether a node has a connection. -/
def isConnected (w : Fabric μ σ) (i : Nat) : Bool := (w.node? i).any (·.connection.isSome)

/-- Names an event of a producer under the identity of a node. -/
def newEvent (w : Fabric μ σ) (i : Nat) (p : Producer) :
    Except EventError EventId × Producer × Fabric μ σ :=
  match w.node? i with
  | none => (.error .notConnected, p, w)
  | some n =>
    let (result, identity, p) := EventId.generate n.identity n.connection p
    (result, p, w.setNode i { n with identity })

/-- A new producer of events. -/
def newProducer (w : Fabric μ σ) : Producer × Fabric μ σ :=
  let (p, threads) := w.threads.newProducer
  (p, { w with threads })

/-! ## Membership -/

/-- Tells the nodes of a change: whoever awaits a member that left awaits it no longer. -/
def announce (w : Fabric μ σ) (notices : List Notice) : Fabric μ σ :=
  { w with nodes := notices.foldl (fun nodes notice => nodes.mapValues (tell notice)) w.nodes }
where
  tell (notice : Notice) (n : Node μ σ) : Node μ σ :=
    match notice.2 with
    | .departed m _ =>
      if n.listener = notice.1.token then { n with keeper := n.keeper.memberDeparted m } else n
    | .joined _ => n

/-- A member joins. -/
def join (w : Fabric μ σ) (m : Member) : Fabric μ σ :=
  let (notices, membership) := w.membership.join m
  { w with membership }.announce notices

/-- A member departs. Answers whether it was there. -/
def depart (w : Fabric μ σ) (m : Member) (crashed : Bool) : Bool × Fabric μ σ :=
  let (present, notices, membership) := w.membership.depart m crashed
  (present, { w with membership }.announce notices)

/-- As many local members as the count says. All of them have joined, and none has a node. -/
def ofCount (count : Nat) : Fabric μ σ :=
  (List.range count).foldl (fun w i => w.join (Network.localMember i))
    { network := Network.localNetwork count }

/-! ## Waiting for answers -/

/-- Registers a processor at a node for the answers of recipients. Answers its ticket. -/
def await (w : Fabric μ σ) (i : Nat) (recipients : List Member) : Nat × Fabric μ σ :=
  match w.node? i with
  | none => (0, w)
  | some n =>
    let (ticket, keeper) :=
      n.keeper.register (Processor.await recipients w.membership.contains)
    (ticket, w.setNode i { n with keeper })

/-- The processor of a ticket at a node. -/
def processor? (w : Fabric μ σ) (i ticket : Nat) : Option Registration :=
  (w.node? i).bind fun n => n.keeper.get? ticket

/-- The number under which a processor is registered, zero for none. -/
def processorId (w : Fabric μ σ) (i ticket : Nat) : Int32 :=
  ((w.processor? i ticket).map (·.id)).getD 0

/-- Cancels a processor. -/
def cancel (w : Fabric μ σ) (i ticket : Nat) (sender : Member) (cause : String) : Fabric μ σ :=
  w.modifyKeeper i (·.cancel ticket sender cause)

/-- Lets go of a processor. -/
def drop (w : Fabric μ σ) (i ticket : Nat) : Fabric μ σ := w.modifyKeeper i (·.drop ticket)

/-- What a wait for a processor gives that ends now. -/
def outcome (w : Fabric μ σ) (i ticket : Nat) : Except ReplyError Outcome :=
  match w.processor? i ticket with
  | some r => r.processor.wait r.id
  | none => .error (.timeout 0 [])

end Fabric

end DataGrid
