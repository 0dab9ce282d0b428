import DataGrid.Fabric.Basic

/-!
# Delivery — from a send to the handlers

A message is encoded once and its frame is handed to every recipient. Nothing is handed to anybody
if the message cannot be sent at all, and recipients that cannot be reached are reported.

A node takes the frames that arrived in their order. One that is too long or cannot be read is
dropped. A message that asks for it is handled at once, and the others are queued for the workers.
A handler that fails is answered for: a request gets an exception, and a failed answer cancels the
processor it was for.

Nodes and their workers take turns. A frame that arrives makes its receiver due, and a message that
is queued makes the workers due; whoever fell due first acts first. Handlers only ever answer with
replies, and a reply is handled without an answer. So a request takes at most three rounds, in which
it is received, worked off and answered, and then nothing is in flight (`Fabric.settle`).
-/

namespace DataGrid

namespace Fabric

variable {μ σ : Type} [AppMessage μ]

/-! ## Sending -/

/-- The members that a message goes to. -/
def targets (w : Fabric μ σ) (n : Node μ σ) (m : Message μ) :
    Recipients → Except FabricError (List Member)
  | .all =>
    if m.isReply then .error (.recipients .replyToAll)
    else
      match w.membership.others n.member with
      | [] => .error (.recipients .nobodyElse)
      | members => .ok members
  | .members [] => .error (.recipients .emptyList)
  | .members list => .ok list

/-- The frame of a message at a node, if it is not too long. -/
def frameOf (n : Node μ σ) (m : Message μ) : Except FabricError Bytes :=
  match Frame.encode m n.config.version with
  | .error fault => .error (.wire fault)
  | .ok frame =>
    if n.config.maxFrame < frame.length then
      .error (.frameTooLarge frame.length n.config.maxFrame)
    else .ok frame

/-- Sends a frame from a port to a peer, as it is. -/
def sendFrame (w : Fabric μ σ) (i : Nat) (peer : Member) (frame : Bytes) :
    Except NetworkError Unit × Fabric μ σ :=
  match w.network.send i peer frame with
  | (.ok j, network) => (.ok (), { w with network }.notify j)
  | (.error e, network) => (.error e, { w with network })

/-- Hands a frame to one member, and says whether it could be reached. The local member always
can. -/
def deliver (w : Fabric μ σ) (i : Nat) (here : Member) (frame : Bytes) (m : Member) :
    Bool × Fabric μ σ :=
  if m = here then (true, (w.modifyNetwork (·.loopBack i frame)).notify i)
  else
    match w.sendFrame i m frame with
    | (.ok (), w) => (true, w)
    | (.error _, w) => (false, w)

/-- Hands a frame to members in turn. Answers the ones that could not be reached. -/
def deliverAll (w : Fabric μ σ) (i : Nat) (here : Member) (frame : Bytes) :
    List Member → List Member × Fabric μ σ
  | [] => ([], w)
  | m :: rest =>
    let (reached, w) := w.deliver i here frame m
    let (unreachable, w) := w.deliverAll i here frame rest
    (if reached then unreachable else m :: unreachable, w)

/-- The frame of a message and the members it goes to, if it can be sent. -/
def prepare (w : Fabric μ σ) (n : Node μ σ) (m : Message μ) (recipients : Recipients) :
    Except FabricError (Bytes × List Member) :=
  if n.isShutdown then .error .shutdown
  else do
    let members ← w.targets n m recipients
    let frame ← frameOf n m
    return (frame, members)

/-- Sends a message from a node. Answers the recipients that could not be reached. -/
def send (w : Fabric μ σ) (i : Nat) (m : Message μ) (recipients : Recipients) :
    Except FabricError (List Member) × Fabric μ σ :=
  match w.node? i with
  | none => (.error .shutdown, w)
  | some n =>
    match w.prepare n m recipients with
    | .error e => (.error e, w)
    | .ok (frame, members) =>
      let (unreachable, w) := w.deliverAll i n.member frame members
      (.ok unreachable, w)

/-- Sends a reply to the member that asked. One that cannot be reached is let go. -/
def sendReply (w : Fabric μ σ) (i : Nat) (m : Member) (r : Reply) :
    Except FabricError Unit × Fabric μ σ :=
  let (result, w) := w.send i (.reply r) (.members [m])
  (result.map fun _ => (), w)

/-- Sends an exception to the member that asked, in the name of the local member. -/
def sendException (w : Fabric μ σ) (i : Nat) (m : Member) (processor : Int32)
    (e : ReplyException) : Except FabricError Unit × Fabric μ σ :=
  match w.node? i with
  | none => (.error .shutdown, w)
  | some n => w.sendReply i m { processor, value := .exception (e.fromMember n.member) }

/-! ## Handling -/

/-- Answers for a handler that failed. -/
def handleFailure (w : Fabric μ σ) (i : Nat) (sender : Member) (m : μ) (e : FabricError) :
    Fabric μ σ :=
  let processor := AppMessage.processor m
  if processor = 0 then w
  else if AppMessage.isReply m then
    w.modifyKeeper i fun k =>
      match k.find? processor with
      | some ticket => k.cancel ticket sender e.message
      | none => k
  else
    (w.sendException i sender processor { kind := .internal, message := e.message }).2

variable [Service μ σ]

/-- Lets the application act on a message, and sends its answer. -/
def serve (w : Fabric μ σ) (i : Nat) (n : Node μ σ) (sender : Member) (m : μ) :
    Except FabricError Unit × Fabric μ σ :=
  let (result, attached) := Service.handle m n.member sender n.attached
  let w := w.setNode i { n with attached }
  match result with
  | .error why => (.error (.handler why), w)
  | .ok none => (.ok (), w)
  | .ok (some r) => w.sendReply i sender r

/-- Handles a message at a node. -/
def handle (w : Fabric μ σ) (i : Nat) (x : Inbound μ) : Fabric μ σ :=
  match w.node? i with
  | none => w
  | some n =>
    match x.message with
    | .reply r => w.setNode i { n with keeper := (n.keeper.processReply x.sender r).2 }
    | .app m =>
      match w.serve i n x.sender m with
      | (.ok (), w) => w
      | (.error e, w) => w.handleFailure i x.sender m e

/-- Takes in one frame at a node. -/
def dispatch (w : Fabric μ σ) (i : Nat) (arrival : Arrival) : Fabric μ σ :=
  match w.node? i with
  | none => w
  | some n =>
    if n.config.maxFrame < arrival.2.length then w
    else
      match Frame.decode n.registry arrival.2 with
      | .error _ => w
      | .ok message =>
        let x : Inbound μ := { sender := arrival.1, message }
        if message.isInline then w.handle i x
        else
          let (_, queue) := n.queue.push x message.priority
          (w.setNode i { n with queue }).call (.work i)

/-! ## Turns -/

/-- Takes in the frames that wait at a port. -/
def takeIn (w : Fabric μ σ) (i : Nat) : Fabric μ σ :=
  let (arrivals, network) := w.network.takeAll i
  arrivals.foldl (fun w arrival => w.dispatch i arrival) { w with network }

/-- Takes in the frames that have arrived at a node, and then the answers that the node sent to
itself as it did so. -/
def receive (w : Fabric μ σ) (i : Nat) : Fabric μ σ :=
  if w.receives i then (w.takeIn i).takeIn i else w

/-- Lets the workers of a node handle what is queued. -/
def work (w : Fabric μ σ) (i : Nat) : Fabric μ σ :=
  match w.node? i with
  | none => w
  | some n =>
    let (tasks, queue) := n.queue.drain
    tasks.foldl (fun w x => w.handle i x) (w.setNode i { n with queue })

/-- Carries out an activity, which is due no longer. -/
def act (w : Fabric μ σ) (a : Activity) : Fabric μ σ :=
  let w := match a with
    | .receive i => w.receive i
    | .work i => w.work i
  { w with due := w.due.erase a }

/-- Carries out the activities that are due, in their order. -/
def round (w : Fabric μ σ) : Fabric μ σ := w.due.foldl act w

/-- Goes on until nothing is in flight. -/
def settle (w : Fabric μ σ) : Fabric μ σ := w.round.round.round

/-- Stops a node: it receives and queues nothing more, and works off what is queued. -/
def shutdown (w : Fabric μ σ) (i : Nat) : Fabric μ σ :=
  match w.node? i with
  | none => w
  | some n =>
    if n.isShutdown then w
    else
      let network := if n.started then w.network.unsubscribe i else w.network
      let w := { w with network }.setNode i { n with isShutdown := true, queue := n.queue.close }
      (w.disconnect i).work i

end Fabric

end DataGrid
