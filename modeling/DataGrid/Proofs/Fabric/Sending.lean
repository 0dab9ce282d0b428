import DataGrid.Proofs.Cluster.Parties
import DataGrid.Proofs.Fabric.Wiring

/-!
# Sending — all refusals come before the first delivery

A send is refused as a whole, and then nothing has changed: no frame was handed to anybody. Or it
goes to all of its targets, one after another, whether or not others of them can be reached
(`Fabric.Sends`). Each of them gets the same frame as often as it is a target, and the answer is the
targets without a usable link.

What reaches a member is said of the places of ports (`Network.place?`). A port is reached under one
name only, since links lead to whom they name (`Fabric.Wired`), so how often the frame arrives at a
port is how often its member is a target.
-/

namespace DataGrid

/-- The port with frames behind the ones that wait. -/
def Port.receiveAll (p : Port) (arrivals : List Arrival) : Port :=
  { p with inbox := p.inbox ++ arrivals }

namespace Network

/-- The frames that wait at a place. -/
def inbox (n : Network) (i : Nat) : List Arrival := (n.get? i).elim [] (·.inbox)

/-- The place that a frame arrives at which a port's member sends to a member, if it arrives: for
the port's own member the port itself, for any other one where a usable link leads. -/
def place? (n : Network) (i : Nat) (here m : Member) : Option Nat :=
  if m = here then some i else n.target? i m

/-- What arrives at a place of a frame that a port's member sends to members. -/
def share (n : Network) (i : Nat) (here : Member) (frame : Bytes) (members : List Member)
    (k : Nat) : List Arrival :=
  List.replicate (members.countP (n.place? i here · = some k)) (here, frame)

end Network

namespace Fabric

variable {μ σ : Type}

/-! ## What a send comes to -/

section Outcomes

variable [AppMessage μ]

/-- Whom a message is for. -/
inductive Addresses (w : Fabric μ σ) (n : Node μ σ) (m : Message μ) :
    Recipients → List Member → Prop where
  /-- Every current member but the local one, once each. Only what is no reply is for everybody. -/
  | all {targets : List Member} (ask : m.isReply = false) (some : targets ≠ [])
      (ascending : targets.Pairwise fun a b => compare a b = .lt)
      (others : ∀ t, t ∈ targets ↔ w.membership.contains t ∧ t ≠ n.member) :
      Addresses w n m .all targets
  /-- The members of a list as they stand there, with repeats. -/
  | members {list : List Member} (some : list ≠ []) : Addresses w n m (.members list) list

/-- Why a message is not sent. -/
inductive Refuses (w : Fabric μ σ) (n : Node μ σ) (m : Message μ) :
    Recipients → FabricError → Prop where
  | shutdown {r : Recipients} (stopped : n.isShutdown = true) : Refuses w n m r .shutdown
  | replyToAll (running : n.isShutdown = false) (reply : m.isReply = true) :
      Refuses w n m .all (.recipients .replyToAll)
  | nobodyElse (running : n.isShutdown = false) (ask : m.isReply = false)
      (alone : ∀ t, w.membership.contains t → t = n.member) :
      Refuses w n m .all (.recipients .nobodyElse)
  | emptyList (running : n.isShutdown = false) :
      Refuses w n m (.members []) (.recipients .emptyList)
  | wire {r : Recipients} {targets : List Member} {fault : Fault} (running : n.isShutdown = false)
      (addressed : w.Addresses n m r targets)
      (unwritable : Frame.encode m n.config.version = .error fault) :
      Refuses w n m r (.wire fault)
  | frameTooLarge {r : Recipients} {targets : List Member} {frame : Bytes}
      (running : n.isShutdown = false) (addressed : w.Addresses n m r targets)
      (written : Frame.encode m n.config.version = .ok frame)
      (long : n.config.maxFrame < frame.length) :
      Refuses w n m r (.frameTooLarge frame.length n.config.maxFrame)

/-- **What has happened when a frame was sent** from a place to its targets. -/
structure Delivers (w w' : Fabric μ σ) (i : Nat) (here : Member) (frame : Bytes)
    (targets unreachable : List Member) : Prop where
  /-- A member that is reached has the port where the frame arrives. It arrives there as often as
  the member is a target, behind what has arrived, and is the local member's. -/
  handed : ∀ m j, w.network.place? i here m = some j → w.network.member? j = some m ∧
    w'.network.inbox j = w.network.inbox j ++ List.replicate (targets.count m) (here, frame)
  /-- Nothing happens at a port at which no target is reached. -/
  spared : ∀ j, (∀ m ∈ targets, w.network.place? i here m ≠ some j) →
    w'.network.get? j = w.network.get? j
  /-- The targets that are not reached, as they stand among the targets. -/
  unreachable : unreachable = targets.filter fun m => (w.network.place? i here m).isNone
  /-- Nothing but the frames that have arrived changes at a port. -/
  ports : ∀ j, (w'.network.get? j).map (fun p => { p with inbox := [] })
    = (w.network.get? j).map fun p => { p with inbox := [] }
  nodes : w'.nodes = w.nodes
  membership : w'.membership = w.membership
  connections : w'.connections = w.connections
  threads : w'.threads = w.threads

/-- **How a send ends.** -/
inductive Sends (w : Fabric μ σ) (i : Nat) (n : Node μ σ) (m : Message μ) (r : Recipients) :
    Except FabricError (List Member) × Fabric μ σ → Prop where
  /-- It is refused, and the fabric is what it was. -/
  | refused {e : FabricError} (why : w.Refuses n m r e) : Sends w i n m r (.error e, w)
  /-- The frame of the message was handed to all targets that can be reached. -/
  | sent {frame : Bytes} {targets unreachable : List Member} {w' : Fabric μ σ}
      (running : n.isShutdown = false) (addressed : w.Addresses n m r targets)
      (written : Frame.encode m n.config.version = .ok frame)
      (fits : frame.length ≤ n.config.maxFrame)
      (handed : w.Delivers w' i n.member frame targets unreachable) :
      Sends w i n m r (.ok unreachable, w')

end Outcomes

variable {w w' w'' : Fabric μ σ} {i j : Nat} {n : Node μ σ} {here m : Member} {frame : Bytes}
variable {targets rest : List Member}

/-! ## Before the first delivery -/

section Preparing

variable [AppMessage μ]

/-- A message is for targets, or it is refused for want of them. -/
theorem targets_spec (hrun : n.isShutdown = false) (w : Fabric μ σ) (m : Message μ)
    (r : Recipients) :
    (∃ targets, w.targets n m r = .ok targets ∧ w.Addresses n m r targets) ∨
      ∃ why, w.targets n m r = .error why ∧ w.Refuses n m r why := by
  have hothers : ∀ t, t ∈ w.membership.others n.member ↔
      w.membership.contains t ∧ t ≠ n.member := by
    intro t
    rw [Membership.others, List.mem_filter, decide_eq_true_iff, Membership.toList,
      OrdSet.mem_toList]
    rfl
  cases r with
  | all =>
    unfold Fabric.targets
    cases hreply : m.isReply with
    | true => exact .inr ⟨_, if_pos rfl, .replyToAll hrun hreply⟩
    | false =>
      dsimp only
      rw [if_neg Bool.false_ne_true]
      split
      · next hnone =>
        refine .inr ⟨_, rfl, .nobodyElse hrun hreply fun t ht => ?_⟩
        by_contra hne
        have hmem := (hothers t).2 ⟨ht, hne⟩
        rw [hnone] at hmem
        cases hmem
      · next hsome =>
        exact .inl ⟨_, rfl, .all hreply hsome
          ((OrdSet.toList_ascending _).sublist List.filter_sublist) hothers⟩
  | members list =>
    cases list with
    | nil => exact .inr ⟨_, rfl, .emptyList hrun⟩
    | cons t rest => exact .inl ⟨_, rfl, .members (List.cons_ne_nil t rest)⟩

/-- A message has a frame and targets, or it is refused. -/
theorem prepare_spec (w : Fabric μ σ) (n : Node μ σ) (m : Message μ) (r : Recipients) :
    (∃ frame targets, w.prepare n m r = .ok (frame, targets) ∧ n.isShutdown = false ∧
      w.Addresses n m r targets ∧ Frame.encode m n.config.version = .ok frame ∧
      frame.length ≤ n.config.maxFrame) ∨
      ∃ why, w.prepare n m r = .error why ∧ w.Refuses n m r why := by
  unfold prepare
  cases hrun : n.isShutdown with
  | true => exact .inr ⟨_, if_pos rfl, .shutdown hrun⟩
  | false =>
    rw [if_neg Bool.false_ne_true]
    rcases targets_spec hrun w m r with ⟨targets, htargets, haddressed⟩ | ⟨why, htargets, hwhy⟩
    · rw [htargets]
      cases hframe : Frame.encode m n.config.version with
      | error fault =>
        refine .inr ⟨_, ?_, .wire hrun haddressed hframe⟩
        rw [frameOf, hframe]
        rfl
      | ok frame =>
        by_cases hlong : n.config.maxFrame < frame.length
        · refine .inr ⟨_, ?_, .frameTooLarge hrun haddressed hframe hlong⟩
          rw [frameOf, hframe]
          dsimp only
          rw [if_pos hlong]
          rfl
        · refine .inl ⟨frame, targets, ?_, rfl, haddressed, rfl, Nat.le_of_not_lt hlong⟩
          rw [frameOf, hframe]
          dsimp only
          rw [if_neg hlong]
          rfl
    · rw [htargets]
      exact .inr ⟨why, rfl, hwhy⟩

end Preparing

/-! ## One delivery after another -/

/-- Whether a fabric is what another one becomes by a frame that is handed to members. -/
structure Hands (w w' : Fabric μ σ) (i : Nat) (here : Member) (frame : Bytes)
    (members : List Member) : Prop where
  ports : ∀ k, w'.network.get? k
    = (w.network.get? k).map (·.receiveAll (w.network.share i here frame members k))
  target : w'.network.target? = w.network.target?
  nodes : w'.nodes = w.nodes
  membership : w'.membership = w.membership
  connections : w'.connections = w.connections
  threads : w'.threads = w.threads

theorem map_receiveAll_nil (o : Option Port) : o.map (·.receiveAll []) = o := by
  cases o with
  | none => rfl
  | some p => exact congrArg (fun inbox => some { p with inbox }) (List.append_nil _)

theorem map_receiveAll_receiveAll (o : Option Port) (l l' : List Arrival) :
    (o.map (·.receiveAll l)).map (·.receiveAll l') = o.map (·.receiveAll (l ++ l')) := by
  cases o with
  | none => rfl
  | some p => exact congrArg (fun inbox => some { p with inbox }) (List.append_assoc ..)

/-- A frame that is handed to nobody changes nothing. -/
theorem Hands.nil (w : Fabric μ σ) (i : Nat) (here : Member) (frame : Bytes) :
    w.Hands w i here frame [] where
  ports _ := (map_receiveAll_nil _).symm
  target := rfl
  nodes := rfl
  membership := rfl
  connections := rfl
  threads := rfl

/-- A member that is not reached changes nothing. -/
theorem Hands.missed (h : w.network.place? i here m = none) (frame : Bytes) :
    w.Hands w i here frame [m] where
  ports k := by
    have hshare : w.network.share i here frame [m] k = [] := by
      simp [Network.share, h]
    rw [hshare, map_receiveAll_nil]
  target := rfl
  nodes := rfl
  membership := rfl
  connections := rfl
  threads := rfl

/-- A member that is reached has the frame behind what has arrived. -/
theorem Hands.reached (h : w.network.place? i here m = some j) {f : Port → Port}
    (hf : ∀ p, w.network.get? j = some p → f p = p.receive (here, frame)) :
    w.Hands ((w.modifyNetwork (·.modify j f)).notify j) i here frame [m] := by
  have hports : ∀ k, (w.network.modify j f).get? k
      = (w.network.get? k).map (·.receiveAll (w.network.share i here frame [m] k)) := by
    intro k
    rw [get?_modify]
    split
    · next hk =>
      subst hk
      have hshare : w.network.share i here frame [m] k = [(here, frame)] := by
        simp [Network.share, h]
      rw [hshare]
      exact Option.map_congr hf
    · next hk =>
      have hshare : w.network.share i here frame [m] k = [] := by
        simp [Network.share, h, Ne.symm hk]
      rw [hshare, map_receiveAll_nil]
  have htarget : (w.network.modify j f).target? = w.network.target? :=
    Network.target?_modify fun p hp => by
      rw [hf p hp]
      exact ⟨rfl, rfl⟩
  unfold notify call
  split
  · split
    · exact ⟨hports, htarget, rfl, rfl, rfl, rfl⟩
    · exact ⟨hports, htarget, rfl, rfl, rfl, rfl⟩
  · exact ⟨hports, htarget, rfl, rfl, rfl, rfl⟩

/-- A frame that is handed to one member and then to others. -/
theorem Hands.cons (h : w.Hands w' i here frame [m]) (hrest : w'.Hands w'' i here frame rest) :
    w.Hands w'' i here frame (m :: rest) where
  ports k := by
    have hplace : w'.network.place? = w.network.place? := by
      unfold Network.place?
      rw [h.target]
    have hshare : w.network.share i here frame (m :: rest) k
        = w.network.share i here frame [m] k ++ w'.network.share i here frame rest k := by
      rw [Network.share, Network.share, Network.share, hplace, List.replicate_append_replicate,
        ← List.countP_append, List.singleton_append]
    rw [hrest.ports, h.ports, map_receiveAll_receiveAll, hshare]
  target := hrest.target.trans h.target
  nodes := hrest.nodes.trans h.nodes
  membership := hrest.membership.trans h.membership
  connections := hrest.connections.trans h.connections
  threads := hrest.threads.trans h.threads

/-- One member is handed the frame, if it can be reached. -/
theorem deliver_hands (hhere : w.network.member? i = some here) (frame : Bytes) (m : Member) :
    (w.deliver i here frame m).1 = (w.network.place? i here m).isSome ∧
      w.Hands (w.deliver i here frame m).2 i here frame [m] := by
  obtain ⟨p, hp, hmember⟩ := Option.map_eq_some_iff.1 hhere
  unfold deliver
  by_cases hm : m = here
  · have hplace : w.network.place? i here m = some i := if_pos hm
    rw [if_pos hm, hplace]
    refine ⟨rfl, .reached hplace fun q hq => ?_⟩
    rw [hp, Option.some_inj] at hq
    rw [← hq, hmember]
  · have hplace : w.network.place? i here m = w.network.target? i m := if_neg hm
    rw [if_neg hm]
    cases htarget : w.network.target? i m with
    | none =>
      rw [htarget] at hplace
      obtain ⟨e, hsend⟩ := Network.send_of_cut htarget frame
      rw [sendFrame, hsend, hplace]
      exact ⟨rfl, .missed hplace frame⟩
    | some j =>
      rw [htarget] at hplace
      rw [sendFrame, Network.send_of_target hp htarget frame, hplace]
      exact ⟨rfl, .reached hplace fun q hq => by rw [hmember]⟩

/-- **All members are handed the frame that can be reached**, and the others are the answer. -/
theorem deliverAll_hands (hhere : w.network.member? i = some here) (frame : Bytes)
    (members : List Member) :
    (w.deliverAll i here frame members).1
        = members.filter (fun m => (w.network.place? i here m).isNone) ∧
      w.Hands (w.deliverAll i here frame members).2 i here frame members := by
  induction members generalizing w with
  | nil => exact ⟨rfl, .nil w i here frame⟩
  | cons m rest ih =>
    obtain ⟨hreached, hone⟩ := deliver_hands hhere frame m
    have hthere : (w.deliver i here frame m).2.network.member? i = some here := by
      rw [Network.member?_congr (congrArg Prod.fst (w.wiring_deliver i here frame m))]
      exact hhere
    obtain ⟨hunreached, hothers⟩ := ih hthere
    -- Whom the others are reached through is the same before and after the first delivery.
    have hplace : (w.deliver i here frame m).2.network.place? = w.network.place? := by
      unfold Network.place?
      rw [hone.target]
    refine ⟨?_, hone.cons hothers⟩
    rw [hplace] at hunreached
    rw [deliverAll]
    dsimp only
    rw [hunreached, hreached, List.filter_cons]
    cases w.network.place? i here m <;> rfl

/-! ## Who is reached -/

/-- Whoever is reached at a place has the port there. -/
theorem Wired.member?_of_place? (hw : w.Wired) (hhere : w.network.member? i = some here)
    (h : w.network.place? i here m = some j) : w.network.member? j = some m := by
  unfold Network.place? at h
  split at h
  · next hm =>
    cases h
    rw [hm]
    exact hhere
  · rw [Network.target?, Option.filter_eq_some_iff] at h
    obtain ⟨p, hp, hlink⟩ := Option.bind_eq_some_iff.1 h.1
    exact hw.links i p m j hp hlink

/-- At a place where a member is reached the frame arrives as often as the member is a target. -/
theorem Wired.share_eq (hw : w.Wired) (hhere : w.network.member? i = some here)
    (h : w.network.place? i here m = some j) (frame : Bytes) (targets : List Member) :
    w.network.share i here frame targets j
      = List.replicate (targets.count m) (here, frame) := by
  refine congrArg (List.replicate · _) (List.countP_congr fun t _ => ?_)
  rw [decide_eq_true_iff, beq_iff_eq]
  -- Two members that are reached at one place are both the member of the port there.
  constructor
  · intro ht
    have hsame := (hw.member?_of_place? hhere ht).symm.trans (hw.member?_of_place? hhere h)
    exact Option.some_inj.1 hsame
  · rintro rfl
    exact h

/-- **What deliveries come to where links lead to whom they name.** -/
theorem Hands.delivers (h : w.Hands w' i here frame targets) (hw : w.Wired)
    (hhere : w.network.member? i = some here) :
    w.Delivers w' i here frame targets
      (targets.filter fun m => (w.network.place? i here m).isNone) where
  handed m j hplace := by
    have hmember := hw.member?_of_place? hhere hplace
    obtain ⟨p, hp, -⟩ := Option.map_eq_some_iff.1 hmember
    refine ⟨hmember, ?_⟩
    rw [Network.inbox, Network.inbox, h.ports, hw.share_eq hhere hplace, hp]
    rfl
  spared j hspared := by
    have hshare : w.network.share i here frame targets j = [] := by
      rw [Network.share, List.countP_eq_zero.2 fun m hm => by simpa using hspared m hm]
      rfl
    rw [h.ports, hshare, map_receiveAll_nil]
  unreachable := rfl
  ports j := by
    rw [h.ports, Option.map_map]
    rfl
  nodes := h.nodes
  membership := h.membership
  connections := h.connections
  threads := h.threads

/-! ## Every run -/

section Runs

variable [AppMessage μ]

/-- **A send where links lead to whom they name** is refused before anything happens, or goes to
all of its targets. -/
theorem Wired.sends (hw : w.Wired) (hn : w.node? i = some n) (m : Message μ) (r : Recipients) :
    w.Sends i n m r (w.send i m r) := by
  rw [send, hn]
  dsimp only
  rcases w.prepare_spec n m r with
    ⟨frame, targets, hprepare, hrun, haddressed, hwritten, hfits⟩ | ⟨why, hprepare, hwhy⟩
  · rw [hprepare]
    have hhere := hw.named i n hn
    obtain ⟨hunreached, hhands⟩ := deliverAll_hands hhere frame targets
    refine .sent hrun haddressed hwritten hfits ?_
    rw [hunreached]
    exact hhands.delivers hw hhere
  · rw [hprepare]
    exact .refused hwhy

variable [Service μ σ]

/-- **A send is all or nothing up to its first delivery**, and from there on each target has the
frame as often as it was named, or is in the answer: whatever was done before, for every message and
all recipients. -/
theorem run_sends (deeds : List (Deed μ σ)) (hn : (run deeds).node? i = some n) (m : Message μ)
    (r : Recipients) : (run deeds).Sends i n m r ((run deeds).send i m r) :=
  (run_wired deeds).sends hn m r

end Runs

open Network (localMember)

/-- One of three members can reach the second and not the third. A list that names the second twice,
the third and the sender brings two frames to the second and one to the sender, and the third is the
answer. -/
theorem run_sends_partly : ∃ (deeds : List (Deed Update RegionState)) (n : Node Update RegionState)
    (m : Message Update) (r : Recipients), (run deeds).node? 0 = some n
      ∧ (run deeds).Sends 0 n m r ((run deeds).send 0 m r)
      ∧ ((run deeds).send 0 m r).1.toOption = some [localMember 2]
      ∧ ((run deeds).send 0 m r).2.network.ports.map (·.inbox.map (·.1))
        = [[localMember 0], [localMember 0, localMember 0], []] := by
  let deeds : List (Deed Update RegionState) := [.addPort (localMember 0), .addPort (localMember 1),
    .addPort (localMember 2), .connect 0 1, .enter 0 {}]
  let m : Message Update := .reply { processor := 1 }
  let r : Recipients := .members [localMember 1, localMember 2, localMember 0, localMember 1]
  have hnode : ((run deeds).node? 0).isSome = true := by decide +kernel
  have hsent : ((run deeds).send 0 m r).1.toOption = some [localMember 2]
      ∧ ((run deeds).send 0 m r).2.network.ports.map (·.inbox.map (·.1))
        = [[localMember 0], [localMember 0, localMember 0], []] := by decide +kernel
  obtain ⟨n, hn⟩ := Option.isSome_iff_exists.1 hnode
  exact ⟨deeds, n, m, r, hn, run_sends deeds hn m r, hsent⟩

end Fabric

end DataGrid
