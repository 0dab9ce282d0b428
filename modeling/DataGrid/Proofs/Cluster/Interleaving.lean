import DataGrid.Proofs.Cluster.Launching

/-!
# Interleaving — members that write at the same time

Every member has commands to write, one after another. A write begins when the one before has
ended: it is launched, and the frame of its update arrives at every other member. A member that
takes the frame in applies the update and answers. The writer takes the answers in, and when it
has them all the write is finished. Moves of different members interleave in any order, but what
arrives from one sender is taken in the order it arrived, and nothing is lost.
-/

namespace DataGrid

open Network (localMember)

/-- Takes the oldest frame that has arrived at a port from a member. -/
def Network.takeFrom (n : Network) (i : Nat) (m : Member) : Option (Arrival × Network) :=
  ((n.get? i).bind fun p => p.inbox.find? (·.1 = m)).map fun arrival =>
    (arrival, n.modify i fun p => { p with inbox := p.inbox.eraseP (·.1 = m) })

/-- What a member has to write, and the round that it waits for. -/
structure Desk where
  region : Region
  todo : List (Bytes × Command)
  waiting : Option Round := none

/-- Members that write at the same time. -/
structure Writers where
  fabric : RegionFabric
  desk? : Nat → Option Desk

namespace Writers

/-- What one member does next. -/
inductive Move where
  /-- The member of a place begins its next write. -/
  | begin (place : Nat)
  /-- The member of a place takes in and handles the oldest frame from another one. -/
  | deliver (place sender : Nat)
  /-- The member of a place takes the answers to its write. -/
  | finish (place : Nat)
  deriving DecidableEq, Repr

variable (s : Writers)

/-- The desk at a place and the fabric after a move. -/
def seat (i : Nat) (desk : Desk) (fabric : RegionFabric) : Writers :=
  { fabric, desk? := Function.update s.desk? i (some desk) }

/-- A write begins if the one before has ended. Its frame keeps to the limits. -/
def begin? (config : Config) (i : Nat) : Option Writers :=
  match s.desk? i with
  | some { region, todo := (key, c) :: todo, waiting := none } =>
    if region.fits s.fabric config key c then
      let (result, region, fabric) := region.launch s.fabric key c
      let waiting := match result with
        | .ok (_, round) => round
        | .error _ => none
      some (s.seat i { region, todo, waiting } fabric)
    else none
  | _ => none

/-- A frame is taken in, and what it queues is worked off. -/
def deliver? (i sender : Nat) : Option Writers :=
  match s.desk? i, s.fabric.network.takeFrom i (localMember sender) with
  | some _, some (arrival, network) =>
    some { s with fabric := ({ s.fabric with network }.dispatch i arrival).work i }
  | _, _ => none

/-- A write finishes when every answer is in, unless somebody needs the whole value. -/
def finish? (i : Nat) : Option Writers :=
  match s.desk? i with
  | some { region, todo, waiting := some round } =>
    if (s.fabric.processor? i round.ticket).any (·.processor.isDone) then
      let (result, region, fabric) := region.land s.fabric round
      let waiting := match result with
        | .ok next => next
        | .error _ => none
      some (s.seat i { region, todo, waiting } fabric)
    else none
  | _ => none

/-- The members after a move, if it can be made. -/
def move? (config : Config) : Move → Option Writers
  | .begin i => s.begin? config i
  | .deliver i sender => s.deliver? i sender
  | .finish i => s.finish? i

/-- The members after moves, if all of them can be made in this order. -/
def run? (config : Config) (moves : List Move) : Option Writers :=
  moves.foldlM (fun s move => s.move? config move) s

/-- The copy of the member at a place. -/
def copy (i : Nat) : RegionState := (s.fabric.attached? i).getD {}

/-- The frames that have arrived at a place and are not yet taken in. -/
def arrived (i : Nat) : List Arrival := (s.fabric.network.get? i).elim [] (·.inbox)

/-- Whether the member of a place has no unfinished write. -/
def isFree (i : Nat) : Bool := (s.desk? i).any fun d => d.waiting.isNone

end Writers

/-- The members of a cluster, each with commands to write. -/
def Cluster.writers (c : Cluster) (commands : Nat → List (Bytes × Command)) : Writers where
  fabric := c.fabric
  desk? i := (c.get? i).map fun m => { region := m.region, todo := commands i }

/-! ## Deliveries -/

namespace Fabric

variable {w : RegionFabric} {config : Config} {live : Nat → Prop} {sites : Nat → Site}
variable {i j : Nat} {m : Member} {arrival : Arrival}

/-- The oldest frame from a member is taken. -/
theorem Shows.takeFrom (h : w.Shows config live sites) (hi : live i)
    (hfind : (sites i).inbox.find? (·.1 = m) = some arrival) :
    ∃ network, w.network.takeFrom i m = some (arrival, network)
      ∧ Shows { w with network } config live (Function.update sites i
          { sites i with inbox := (sites i).inbox.eraseP (·.1 = m) }) := by
  obtain ⟨p, hp, hat⟩ := h.port i hi
  refine ⟨_, ?_, h.setInbox i _ (f := fun p => { p with inbox := p.inbox.eraseP (·.1 = m) })
    fun q hq => ?_⟩
  · rw [Network.takeFrom, hp, Option.bind_some, hat.inbox, hfind, Option.map_some]
  · obtain rfl := Option.some.inj (hp.symm.trans hq)
    rw [hat.inbox]

/-- What is taken from a live place was the oldest frame there. -/
theorem Shows.find?_of_takeFrom (h : w.Shows config live sites) (hi : live i) {network : Network}
    (htake : w.network.takeFrom i m = some (arrival, network)) :
    (sites i).inbox.find? (·.1 = m) = some arrival := by
  obtain ⟨p, hp, hat⟩ := h.port i hi
  rw [Network.takeFrom, hp, Option.bind_some, hat.inbox] at htake
  obtain ⟨found, hfound, heq⟩ := Option.map_eq_some_iff.1 htake
  cases heq
  exact hfound

/-- A live member takes in an update that applies, and answers it. -/
theorem Shows.deliver_update (h : w.Shows config live sites) (hi : live i) (hj : live j)
    (hne : j ≠ i) (hmax : 9 ≤ config.maxFrame) {frame : Bytes} {u : Update} {state : RegionState}
    (hfind : (sites i).inbox.find? (·.1 = localMember j) = some (localMember j, frame))
    (hdecode : Frame.decode Update.registry frame = .ok (.app u))
    (hfits : frame.length ≤ config.maxFrame) (hqueue : (sites i).queue = [])
    (hprocessor : u.processor ≠ 0)
    (happly : (sites i).state.applyUpdate u = (.ok .applied, state)) :
    ∃ network w', w.network.takeFrom i (localMember j) = some ((localMember j, frame), network)
      ∧ (dispatch { w with network } i (localMember j, frame)).work i = w'
      ∧ w'.Shows config live (Function.update (Function.update sites i { sites i with
          inbox := (sites i).inbox.eraseP (·.1 = localMember j), state }) j
            ((sites j).arrive (localMember i, answerFrame config u.processor))) := by
  obtain ⟨network, htake, hshow⟩ := h.takeFrom hi hfind
  obtain ⟨hqueued, -⟩ := hshow.dispatch_update hi (localMember j) hdecode hfits
  rw [Function.update_idem, Function.update_self, hqueue] at hqueued
  obtain ⟨hworked, -⟩ := hqueued.work_update hi hj hne hmax u state
    (by rw [Function.update_self]; rfl) hprocessor (by rw [Function.update_self]; exact happly)
  refine ⟨network, _, htake, rfl, hworked.of_forall_eq fun k => ?_⟩
  rw [Function.update_idem, Function.update_self, Function.update_of_ne hne, ← hqueue]

/-- A live member takes in an answer to its processor. -/
theorem Shows.deliver_answer (h : w.Shows config live sites) (hi : live i)
    (hmax : 9 ≤ config.maxFrame) {id : Int32}
    (hfind : (sites i).inbox.find? (·.1 = m) = some (m, answerFrame config id))
    (hqueue : (sites i).queue = []) :
    ∃ network w', w.network.takeFrom i m = some ((m, answerFrame config id), network)
      ∧ (dispatch { w with network } i (m, answerFrame config id)).work i = w'
      ∧ w'.Shows config live (Function.update sites i { sites i with
          inbox := (sites i).inbox.eraseP (·.1 = m)
          keeper := ((sites i).keeper.processReply m { processor := id }).2 }) := by
  obtain ⟨-, hlength, hdecode⟩ := answerFrame_spec config id
  obtain ⟨network, htake, hshow⟩ := h.takeFrom hi hfind
  obtain ⟨htaken, -⟩ := hshow.dispatch_reply hi m hdecode
    (Nat.le_trans hlength hmax)
  rw [Function.update_idem, Function.update_self] at htaken
  obtain ⟨hworked, -⟩ := htaken.work_nil hi (by rw [Function.update_self]; exact hqueue)
  exact ⟨network, _, htake, rfl, hworked⟩

end Fabric

end DataGrid
