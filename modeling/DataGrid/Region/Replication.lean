import DataGrid.Fabric.Delivery
import DataGrid.Region.Command

/-!
# Replication — a region that every member has a copy of

A write is carried out on the writer's copy and pushed to every other member; the writer waits for
all of them to answer. A member that cannot take a delta says so, and gets the whole value in a
second round. A write that fails while it is pushed keeps its effect on the writer's copy.

A round has two parts, which are apart so that other members can act between them: `begin` names
the event, registers for the answers and sends the update; `finish` waits and lets the processor
go.
-/

namespace DataGrid

/-- Handling an update: it is applied to the member's copy, and the sender is told. -/
instance : Service Update RegionState where
  handle u here _ attached :=
    match attached with
    | none => (.error "no region attached to this member", none)
    | some s =>
      match s.applyUpdate u with
      | (.error e, s) => (.error e.message, some s)
      | (.ok outcome, s) =>
        if u.processor = 0 then (.ok none, some s)
        else
          let r : Reply := { processor := u.processor }
          match outcome with
          | .needsFull why =>
            let e : ReplyException :=
              { kind := .invalidDelta, message := why, sender := some here }
            (.ok (some { r with ignored := true, value := .exception e }), some s)
          | _ => (.ok (some r), some s)

/-- Why a write failed. -/
inductive RegionError where
  | command (e : CommandError)
  | fabric (e : FabricError)
  | reply (e : ReplyError)

namespace RegionError

/-- The error's name. -/
def name : RegionError → String
  | .command e => e.name
  | .fabric e => e.name
  | .reply e => e.name

/-- What the error says. -/
def message : RegionError → String
  | .command e => e.message
  | .fabric e => e.message
  | .reply e => e.message

end RegionError

/-- The members of a region. -/
abbrev RegionFabric := Fabric Update RegionState

/-- One member's handle on the region. -/
structure Region where
  /-- The place of the member's node. -/
  place : Nat
  /-- Who numbers the member's writes. -/
  producer : Producer
  /-- How many members were sent a whole value because they could not take a delta. -/
  fullResends : Nat := 0

namespace Region

/-- Attaches a copy of the region to a node, which from then on takes updates. -/
def create (w : RegionFabric) (place : Nat) : Region × RegionFabric :=
  let w := (w.learn place Update.messageKind Update.read).attach place {}
  let (producer, w) := w.newProducer
  ({ place, producer }, w)

/-- The member's copy. -/
def state (r : Region) (w : RegionFabric) : RegionState :=
  (w.attached? r.place).getD {}

/-- The entities of the member's copy. -/
def entries (r : Region) (w : RegionFabric) : Entries := (r.state w).entries

/-- Replaces the entities of the member's copy. -/
def setEntries (r : Region) (w : RegionFabric) (entries : Entries) : RegionFabric :=
  w.modify r.place fun n => { n with attached := n.attached.map fun s => { s with entries } }

/-- Applies an update to the member's copy. -/
def applyUpdate (r : Region) (w : RegionFabric) (u : Update) :
    Except DeltaError UpdateOutcome × RegionFabric :=
  let (result, s) := (r.state w).applyUpdate u
  (result, w.attach r.place s)

/-! ## Reading -/

/-- The entity under a key. -/
def get? (r : Region) (w : RegionFabric) (key : Bytes) : Option Entity := (r.state w).get? key

/-- The members of the set under a key; none if there is no set. -/
def members (r : Region) (w : RegionFabric) (key : Bytes) : List Bytes :=
  match r.get? w key with
  | some { content := .set s, .. } => s.toList
  | _ => []

/-- The milliseconds that the entity under a key has left. -/
def timeToLive (r : Region) (w : RegionFabric) (key : Bytes) (now : Int64) : Int64 :=
  ((r.get? w key).map (·.timeToLive now)).getD Entity.expired

/-! ## Pushing updates -/

/-- The members that a write is pushed to. -/
def peers (r : Region) (w : RegionFabric) : List Member :=
  match w.node? r.place with
  | some n => w.membership.others n.member
  | none => []

/-- Registers for the answers of recipients and sends them an update. Recipients that cannot be
reached are taken to have left. Answers the ticket of the processor and who was not reached. -/
def push (w : RegionFabric) (place : Nat) (recipients : List Member) (update : Int32 → Update) :
    Except FabricError (Nat × List Member) × RegionFabric :=
  let (ticket, w) := w.await place recipients
  let update := update (w.processorId place ticket)
  match w.send place (.app update) (.members recipients) with
  | (.error e, w) => (.error e, w.drop place ticket)
  | (.ok unreachable, w) =>
    let w := w.modifyKeeper place fun k => unreachable.foldl (·.depart ticket ·) k
    (.ok (ticket, unreachable), w)

/-- Begins a round: names the event and sends the update. Answers the ticket of the processor that
waits for the recipients. -/
def begin (r : Region) (w : RegionFabric) (recipients : List Member) (key : Bytes)
    (payload : Payload) : Except FabricError Nat × Region × RegionFabric :=
  match w.newEvent r.place r.producer with
  | (.error e, producer, w) => (.error (.event e), { r with producer }, w)
  | (.ok event, producer, w) =>
    let r := { r with producer }
    match push w r.place recipients fun processor => { processor, event, key, payload } with
    | (.error e, w) => (.error e, r, w)
    | (.ok (ticket, _), w) => (.ok ticket, r, w)

/-- Ends a round: takes the answers as they are now and lets the processor go. -/
def finish (w : RegionFabric) (place ticket : Nat) : Except ReplyError Outcome × RegionFabric :=
  (w.outcome place ticket, w.drop place ticket)

/-- One round: pushes a payload to recipients and waits for their answers. -/
def replicate (r : Region) (w : RegionFabric) (recipients : List Member) (key : Bytes)
    (payload : Payload) : Except RegionError Outcome × Region × RegionFabric :=
  match r.begin w recipients key payload with
  | (.error e, r, w) => (.error (.fabric e), r, w)
  | (.ok ticket, r, w) =>
    let (result, w) := finish w.settle r.place ticket
    (result.mapError .reply, r, w)

/-- The payload that tells of what is under a key. -/
def wholeValue (r : Region) (w : RegionFabric) (key : Bytes) : Payload :=
  match r.get? w key with
  | some e => .full e.snapshot
  | none => .destroy

/-- Tells the other members of a write. Those that could not take its delta get the whole value. -/
def distribute (r : Region) (w : RegionFabric) (key : Bytes) (payload : Payload) :
    Except RegionError Unit × Region × RegionFabric :=
  match r.peers w with
  | [] => (.ok (), r, w)
  | peers =>
    match r.replicate w peers key payload with
    | (.error e, r, w) => (.error e, r, w)
    | (.ok outcome, r, w) =>
      let stale := outcome.needsFullValue
      if stale.isEmpty || !payload.isDelta then (.ok (), r, w)
      else
        let r := { r with fullResends := r.fullResends + stale.length }
        let (result, r, w) := r.replicate w stale key (r.wholeValue w key)
        (result.map fun _ => (), r, w)

/-- Runs a command on the member's copy and tells the other members of it. -/
def write (r : Region) (w : RegionFabric) (key : Bytes) (c : Command) :
    Except RegionError Answer × Region × RegionFabric :=
  let (result, entries) := (r.entries w).run key c
  let w := r.setEntries w entries
  match result with
  | .error e => (.error (.command e), r, w)
  | .ok (answer, none) => (.ok answer, r, w)
  | .ok (answer, some payload) =>
    let (result, r, w) := r.distribute w key payload
    (result.map fun () => answer, r, w)

end Region

end DataGrid
