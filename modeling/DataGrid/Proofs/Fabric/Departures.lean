import DataGrid.Proofs.Reply.Present
import DataGrid.Region.Replication

/-!
# Departures — nobody waits for those who left

Members of one membership wait for answers, each with a keeper of its own. Whatever is done with
them, in whatever order members come, go and answer, every keeper follows the roll of its
processors, and every node is among the listeners of the membership (`Fabric.Enrols`). So a
departure reaches every keeper exactly once, and a processor that its maker still has and that
still waits awaits current members only. It has ended when none of these among its recipients is
silent (`Fabric.run_awaitsPresent`).
-/

namespace DataGrid

/-- What can happen to members that wait for answers. -/
inductive FabricStep where
  /-- The member of a port takes part from now on, if it does not already. -/
  | enter (place : Nat) (config : Config)
  | join (m : Member)
  | depart (m : Member) (crashed : Bool)
  /-- A processor is registered at a node. -/
  | await (place : Nat) (recipients : List Member)
  /-- An answer is handed to the processor that it names. -/
  | answer (place : Nat) (sender : Member) (r : Reply)
  /-- Something happens to the processor of a ticket, such as a cancellation. -/
  | event (place ticket : Nat) (e : ProcessorEvent)
  /-- A wait for the processor of a ticket ends now. -/
  | wait (place ticket : Nat)
  | drop (place ticket : Nat)
  | hold (place ticket : Nat)
  | release (place ticket : Nat)

/-- What a step asks of the keeper of a place, if it asks something of one. -/
def FabricStep.call? (isMember : Member → Bool) : FabricStep → Option (Nat × KeeperCall)
  | .await place recipients => some (place, .register recipients isMember)
  | .answer place sender r => some (place, .processReply sender r)
  | .event place ticket e => some (place, .event ticket e)
  | .drop place ticket => some (place, .drop ticket)
  | .hold place ticket => some (place, .hold ticket)
  | .release place ticket => some (place, .release ticket)
  | .enter .. | .join _ | .depart .. | .wait .. => none

/-- The rolls of the nodes, by their places. -/
abbrev Rolls := Nat → Roll

namespace Fabric

variable {μ σ : Type}

section Steps

variable [AppMessage μ] [Service μ σ]

/-- The fabric after a step, if the step has a result. A processor is registered only where there
is a number for it. -/
def perform? (w : Fabric μ σ) : FabricStep → Option (Fabric μ σ)
  | .enter place config =>
    some (if (w.node? place).isSome then w else (w.addNode place config).2)
  | .join m => some (w.join m)
  | .depart m crashed => some (w.depart m crashed).2
  | .await place recipients =>
    if (w.node? place).all (·.keeper.hasNumber) then some (w.await place recipients).2 else none
  | .answer place sender r => some (w.handle place { sender, message := .reply r })
  | .event place ticket e => some (w.modifyKeeper place (·.on ticket e))
  | .wait _ _ => some w
  | .drop place ticket => some (w.drop place ticket)
  | .hold place ticket => some (w.modifyKeeper place (·.hold ticket))
  | .release place ticket => some (w.modifyKeeper place (·.release ticket))

/-- The rolls after a step: what is asked of a keeper is asked of its roll, and a departure is told
to every roll. -/
def enrol (w : Fabric μ σ) (rolls : Rolls) (s : FabricStep) : Rolls :=
  match s with
  | .depart m _ =>
    if w.membership.contains m then fun i => (rolls i).call 0 (.memberDeparted m) else rolls
  | s =>
    match s.call? w.membership.contains with
    | some (i, c) =>
      match w.node? i with
      | some n => Function.update rolls i ((rolls i).call n.keeper.freshId.1 c)
      | none => rolls
    | none => rolls

/-- The fabric and its rolls after steps. There is nothing after a step without a result. -/
def run? (w : Fabric μ σ) (rolls : Rolls) : List FabricStep → Option (Fabric μ σ × Rolls)
  | [] => some (w, rolls)
  | s :: steps => (w.perform? s).bind fun w' => w'.run? (w.enrol rolls s) steps

end Steps

/-- **Who waits, waits for members.** -/
structure AwaitsPresent (w : Fabric μ σ) (rolls : Rolls) : Prop where
  /-- A processor whose maker has it is what it was registered as and what happened to it. -/
  held : ∀ (i ticket : Nat) (x : Enrolment), (rolls i)[ticket]? = some x → x.owned →
    w.processor? i ticket = some x.registration
  /-- A processor whose maker has it and that has not ended awaits current members only. -/
  present : ∀ (i ticket : Nat) (r : Registration), w.processor? i ticket = some r → r.owned →
    r.processor.isDone = false → ∀ m, r.processor.pending.contains m → w.membership.contains m
  /-- A processor whose maker has it has ended if every current member among its recipients has
  answered. -/
  ended : ∀ (i ticket : Nat) (x : Enrolment), (rolls i)[ticket]? = some x → x.owned →
    (∀ m ∈ x.recipients, w.membership.contains m → ∃ r, .reply m r ∈ x.events) →
    x.processor.isDone

/-- **Every keeper follows its roll**, hears of departures, and waits for members only. -/
structure Enrols (w : Fabric μ σ) (rolls : Rolls) : Prop where
  keeper : ∀ i n, w.node? i = some n → n.keeper.Lists (rolls i)
  vacant : ∀ i, w.node? i = none → rolls i = []
  listens : ∀ i n, w.node? i = some n → n.listener ∈ w.membership.listeners.map (·.token)
  listeners : (w.membership.listeners.map (·.token)).Nodup
  tokens : ∀ token ∈ w.membership.listeners.map (·.token), token < w.membership.tokens
  /-- No node has gone for good. -/
  there : w.membership.gone = []
  awaits : ∀ i, (rolls i).AwaitsOnly w.membership.contains

variable {w w' : Fabric μ σ} {rolls rolls' : Rolls} {i : Nat} {n : Node μ σ}

/-! ## Notices -/

theorem node?_announce_eq (w : Fabric μ σ) (notices : List Notice) (i : Nat) :
    (w.announce notices).node? i
      = (w.node? i).map fun n => notices.foldl (fun n notice => announce.tell notice n) n := by
  have hfold : ∀ nodes : OrdMap Nat (Node μ σ),
      (notices.foldl (fun nodes notice => nodes.mapValues (announce.tell notice)) nodes).get? i
        = (nodes.get? i).map fun n => notices.foldl (fun n notice => announce.tell notice n) n := by
    induction notices with
    | nil => exact fun nodes => Option.map_id'.symm
    | cons notice notices ih =>
      intro nodes
      rw [List.foldl_cons, ih, OrdMap.get?_mapValues, Option.map_map]
      rfl
  exact hfold w.nodes

/-- Notices change nothing of a node but its keeper. -/
theorem exists_foldl_tell (notices : List Notice) (n : Node μ σ) :
    ∃ keeper, notices.foldl (fun n notice => announce.tell notice n) n = { n with keeper } := by
  induction notices generalizing n with
  | nil => exact ⟨n.keeper, rfl⟩
  | cons notice notices ih =>
    obtain ⟨token, change⟩ := notice
    rw [List.foldl_cons]
    cases change with
    | joined m => exact ih n
    | departed m crashed =>
      unfold announce.tell
      dsimp only
      split
      · exact ih { n with keeper := n.keeper.memberDeparted m }
      · exact ih n

/-- Nobody minds who joins. -/
theorem foldl_tell_joined (listeners : List Listener) (m : Member) (n : Node μ σ) :
    (listeners.map (·, MembershipChange.joined m)).foldl
      (fun n notice => announce.tell notice n) n = n := by
  induction listeners with
  | nil => rfl
  | cons l listeners ih => exact ih

/-- A node that listens hears of a departure once. -/
theorem foldl_tell_departed {listeners : List Listener}
    (htokens : (listeners.map (·.token)).Nodup) (m : Member) (crashed : Bool) (n : Node μ σ) :
    (listeners.map (·, MembershipChange.departed m crashed)).foldl
        (fun n notice => announce.tell notice n) n
      = if n.listener ∈ listeners.map (·.token) then { n with keeper := n.keeper.memberDeparted m }
        else n := by
  induction listeners generalizing n with
  | nil => rfl
  | cons l listeners ih =>
    obtain ⟨hfresh, htokens⟩ := List.nodup_cons.1 htokens
    rw [List.map_cons, List.foldl_cons]
    by_cases hlistener : n.listener = l.token
    · have htell : announce.tell (l, .departed m crashed) n
          = { n with keeper := n.keeper.memberDeparted m } := if_pos hlistener
      have hmem : n.listener ∈ (l :: listeners).map (·.token) := hlistener ▸ List.mem_cons_self
      rw [htell, ih htokens, if_pos hmem]
      exact if_neg (hlistener ▸ hfresh)
    · have htell : announce.tell (l, .departed m crashed) n = n := if_neg hlistener
      rw [htell, ih htokens]
      simp [hlistener]

/-! ## Steps -/

theorem enrols_start (network : Network) : Enrols ({ network } : Fabric μ σ) fun _ => [] where
  keeper i n hn := by cases hn
  vacant _ _ := rfl
  listens i n hn := by cases hn
  listeners := .nil
  tokens token htoken := absurd htoken List.not_mem_nil
  there := rfl
  awaits _ := Roll.awaitsOnly_nil _

/-- Steps that change neither the nodes nor the membership. -/
theorem Enrols.congr (h : w.Enrols rolls) (hnodes : w'.nodes = w.nodes)
    (hmembership : w'.membership = w.membership) : w'.Enrols rolls := by
  have hnode : ∀ i, w'.node? i = w.node? i := fun i =>
    congrArg (fun nodes : OrdMap Nat (Node μ σ) => nodes.get? i) hnodes
  refine ⟨fun i n hn => h.keeper i n (hnode i ▸ hn), fun i hn => h.vacant i (hnode i ▸ hn),
    fun i n hn => ?_, ?_, ?_, ?_, ?_⟩
  · rw [hmembership]
    exact h.listens i n (hnode i ▸ hn)
  all_goals rw [hmembership]
  · exact h.listeners
  · exact h.tokens
  · exact h.there
  · exact h.awaits

/-- A member that takes part has an empty keeper and a token that no other listener has. -/
theorem addNode_cases (w : Fabric μ σ) (i : Nat) (config : Config) :
    ((w.addNode i config).2.nodes = w.nodes
        ∧ (w.addNode i config).2.membership = w.membership)
      ∨ ∃ n : Node μ σ, n.keeper = {} ∧ n.listener = w.membership.tokens
        ∧ (w.addNode i config).2.nodes = w.nodes.insert i n
        ∧ (w.addNode i config).2.membership = (w.membership.listen i).2 := by
  rw [Fabric.addNode]
  cases w.network.member? i with
  | none => exact .inl ⟨rfl, rfl⟩
  | some member =>
    dsimp only
    split
    · exact .inl ⟨rfl, rfl⟩
    · exact .inr ⟨_, rfl, rfl, rfl, rfl⟩

theorem Enrols.enter (h : w.Enrols rolls) (hvacant : w.node? i = none) (config : Config) :
    (w.addNode i config).2.Enrols rolls := by
  rcases w.addNode_cases i config with ⟨hnodes, hmembership⟩ | ⟨n, hkeeper, htoken, hnodes, hlisten⟩
  · exact h.congr hnodes hmembership
  have hnode : ∀ j, (w.addNode i config).2.node? j = if j = i then some n else w.node? j := by
    intro j
    rw [node?, hnodes]
    exact OrdMap.get?_insert _ _ _ _
  have hlisteners : (w.addNode i config).2.membership.listeners.map (·.token)
      = w.membership.listeners.map (·.token) ++ [w.membership.tokens] := by
    rw [hlisten]
    exact List.map_append
  have hfresh : w.membership.tokens ∉ w.membership.listeners.map (·.token) := fun hmem =>
    Nat.lt_irrefl _ (h.tokens _ hmem)
  have hthere : (w.addNode i config).2.membership.gone = [] := by
    rw [hlisten]
    exact h.there
  refine ⟨fun j n' hn' => ?_, fun j hj => ?_, fun j n' hn' => ?_, ?_, fun token htoken => ?_,
    hthere, fun j => ?_⟩
  · rw [hnode] at hn'
    split at hn'
    · next hj =>
      obtain rfl := Option.some.inj hn'
      rw [hj, h.vacant i hvacant, hkeeper]
      exact Keeper.lists_nil (by decide)
    · exact h.keeper j n' hn'
  · rw [hnode] at hj
    split at hj
    · cases hj
    · exact h.vacant j hj
  · rw [hlisteners, List.mem_append]
    rw [hnode] at hn'
    split at hn'
    · obtain rfl := Option.some.inj hn'
      exact .inr (htoken ▸ List.mem_cons_self)
    · exact .inl (h.listens j n' hn')
  · rw [hlisteners]
    refine h.listeners.append (List.nodup_singleton _) fun token hmem hlast => ?_
    rw [List.mem_singleton.1 hlast] at hmem
    exact hfresh hmem
  · have htokens : (w.addNode i config).2.membership.tokens = w.membership.tokens + 1 := by
      rw [hlisten]
      rfl
    rw [hlisteners, List.mem_append, List.mem_singleton] at htoken
    rw [htokens]
    rcases htoken with hold | rfl
    · exact Nat.lt_succ_of_lt (h.tokens token hold)
    · exact Nat.lt_succ_self _
  · have hmembers : (w.addNode i config).2.membership.contains = w.membership.contains := by
      rw [hlisten]
      rfl
    rw [hmembers]
    exact h.awaits j

/-- **Something is asked of the keeper of a place.** Only members are awaited from the start on. -/
theorem Enrols.ask (h : w.Enrols rolls) (hn : w.node? i = some n) {c : KeeperCall} {k : Keeper}
    (hk : n.keeper.call? c = some k)
    (hc : ∀ recipients isMember, c = .register recipients isMember →
      ∀ m, isMember m → w.membership.contains m) :
    (w.setNode i { n with keeper := k }).Enrols
      (Function.update rolls i ((rolls i).call n.keeper.freshId.1 c)) := by
  have hnode : ∀ j, (w.setNode i { n with keeper := k }).node? j
      = if j = i then some { n with keeper := k } else w.node? j := fun j =>
    OrdMap.get?_insert _ _ _ _
  refine ⟨fun j n' hn' => ?_, fun j hj => ?_, fun j n' hn' => ?_, h.listeners, h.tokens, h.there,
    fun j => ?_⟩
  · rw [hnode] at hn'
    rw [Function.update_apply]
    split at hn'
    · next hj =>
      obtain rfl := Option.some.inj hn'
      rw [if_pos hj]
      exact (h.keeper i n hn).call hk
    · next hj =>
      rw [if_neg hj]
      exact h.keeper j n' hn'
  · rw [hnode] at hj
    rw [Function.update_apply]
    split at hj
    · cases hj
    · next hne =>
      rw [if_neg hne]
      exact h.vacant j hj
  · rw [hnode] at hn'
    split at hn'
    · obtain rfl := Option.some.inj hn'
      exact h.listens i n hn
    · exact h.listens j n' hn'
  · rw [Function.update_apply]
    split
    · exact (h.awaits i).call _ c hc
    · exact h.awaits j

/-- **A member joins.** -/
theorem Enrols.join (h : w.Enrols rolls) (m : Member) : (w.join m).Enrols rolls := by
  by_cases hhere : w.membership.contains m
  · have hjoin : w.join m = w.announce [] := by
      rw [Fabric.join, Membership.join, if_pos hhere]
    rw [hjoin]
    exact h.congr rfl rfl
  · have hjoin : w.join m = announce
        { w with membership := { w.membership with members := w.membership.members.insert m } }
        (w.membership.notices (.joined m)) := by
      rw [Fabric.join, Membership.join, if_neg hhere, Membership.sweep_of_gone h.there]
    have hnode : ∀ j, (w.join m).node? j = w.node? j := by
      intro j
      rw [hjoin, node?_announce_eq]
      cases hn : w.node? j with
      | none => exact congrArg (Option.map _) hn
      | some n =>
        refine (congrArg (Option.map _) hn).trans (congrArg some ?_)
        exact foldl_tell_joined _ m n
    refine ⟨fun j n hn => h.keeper j n (hnode j ▸ hn), fun j hj => h.vacant j (hnode j ▸ hj),
      fun j n hn => ?_, ?_, ?_, ?_, fun j => (h.awaits j).mono fun a ha => ?_⟩
    all_goals rw [hjoin]
    · exact h.listens j n (hnode j ▸ hn)
    · exact h.listeners
    · exact h.tokens
    · exact h.there
    · show (w.membership.members.insert m).contains a
      rw [OrdSet.contains_insert, show w.membership.members.contains a = true from ha,
        Bool.or_true]

/-- **A member departs**, and every keeper hears of it once. -/
theorem Enrols.depart (h : w.Enrols rolls) (m : Member) (crashed : Bool) :
    (w.depart m crashed).2.Enrols
      (if w.membership.contains m then fun i => (rolls i).call 0 (.memberDeparted m)
        else rolls) := by
  by_cases hhere : w.membership.contains m
  · have hdepart : (w.depart m crashed).2 = announce
        { w with membership := { w.membership with members := w.membership.members.erase m } }
        (w.membership.notices (.departed m crashed)) := by
      rw [Fabric.depart, Membership.depart, if_pos hhere, Membership.sweep_of_gone h.there]
    have hnode : ∀ j, (w.depart m crashed).2.node? j
        = (w.node? j).map fun n => { n with keeper := n.keeper.memberDeparted m } := by
      intro j
      rw [hdepart, node?_announce_eq]
      cases hn : w.node? j with
      | none => exact congrArg (Option.map _) hn
      | some n =>
        refine (congrArg (Option.map _) hn).trans (congrArg some ?_)
        rw [Membership.notices, Membership.live_of_gone h.there]
        refine (foldl_tell_departed h.listeners m crashed n).trans ?_
        rw [if_pos (h.listens j n hn)]
    rw [if_pos hhere]
    refine ⟨fun j n' hn' => ?_, fun j hj => ?_, fun j n' hn' => ?_, ?_, ?_, ?_, fun j => ?_⟩
    · rw [hnode] at hn'
      obtain ⟨n, hn, rfl⟩ := Option.map_eq_some_iff.1 hn'
      exact (h.keeper j n hn).memberDeparted m
    · rw [hnode, Option.map_eq_none_iff] at hj
      rw [h.vacant j hj]
      rfl
    · rw [hnode] at hn'
      obtain ⟨n, hn, rfl⟩ := Option.map_eq_some_iff.1 hn'
      rw [hdepart]
      exact h.listens j n hn
    · rw [hdepart]
      exact h.listeners
    · rw [hdepart]
      exact h.tokens
    · rw [hdepart]
      exact h.there
    · refine ((h.awaits j).memberDeparted m 0).mono fun a ha => ?_
      rw [hdepart]
      show (w.membership.members.erase m).contains a
      rw [OrdSet.contains_erase]
      exact ha
  · have hdepart : (w.depart m crashed).2 = w.announce [] := by
      rw [Fabric.depart, Membership.depart, if_neg hhere]
    rw [if_neg hhere, hdepart]
    exact h.congr rfl rfl

/-- A change of one keeper is a call to it. -/
theorem Enrols.modifyKeeper (h : w.Enrols rolls) (i : Nat) {f : Keeper → Keeper} {c : KeeperCall}
    (hf : ∀ k : Keeper, k.call? c = some (f k))
    (hc : ∀ recipients isMember, c ≠ .register recipients isMember) :
    (w.modifyKeeper i f).Enrols (match w.node? i with
      | some n => Function.update rolls i ((rolls i).call n.keeper.freshId.1 c)
      | none => rolls) := by
  unfold Fabric.modifyKeeper Fabric.modify
  cases hn : w.node? i with
  | none => exact h
  | some n =>
    refine h.ask hn (hf n.keeper) fun recipients isMember heq => ?_
    exact absurd heq (hc recipients isMember)

variable [AppMessage μ] [Service μ σ]

/-- **Every keeper follows its roll through a step.** -/
theorem Enrols.perform (h : w.Enrols rolls) {s : FabricStep} (hs : w.perform? s = some w') :
    w'.Enrols (w.enrol rolls s) := by
  cases s with
  | enter i config =>
    obtain rfl := Option.some.inj hs
    split
    · exact h
    · next hvacant => exact h.enter (Option.not_isSome_iff_eq_none.1 hvacant) config
  | join m => exact Option.some.inj hs ▸ h.join m
  | depart m crashed => exact Option.some.inj hs ▸ h.depart m crashed
  | await i recipients =>
    rw [perform?] at hs
    split at hs
    · next hnumber =>
      obtain rfl := Option.some.inj hs
      unfold Fabric.await
      cases hn : w.node? i with
      | none =>
        show Enrols _ (match w.node? i with | some n => _ | none => rolls)
        rw [hn]
        exact h
      | some n =>
        rw [hn] at hnumber
        have hcall : n.keeper.call? (.register recipients w.membership.contains)
            = some (n.keeper.register (.await recipients w.membership.contains)).2 :=
          if_pos hnumber
        show Enrols _ (match w.node? i with | some n => _ | none => rolls)
        rw [hn]
        refine h.ask hn hcall fun recipients' isMember heq m hm => ?_
        cases heq
        exact hm
    · cases hs
  | answer i sender r =>
    obtain rfl := Option.some.inj hs
    have hhandle : w.handle i { sender, message := .reply r }
        = w.modifyKeeper i fun k => (k.processReply sender r).2 := by
      unfold Fabric.handle Fabric.modifyKeeper Fabric.modify
      cases w.node? i <;> rfl
    rw [hhandle]
    exact h.modifyKeeper i (fun _ => rfl) nofun
  | event i t e => exact Option.some.inj hs ▸ h.modifyKeeper i (fun _ => rfl) nofun
  | wait i t => exact Option.some.inj hs ▸ h
  | drop i t => exact Option.some.inj hs ▸ h.modifyKeeper i (fun _ => rfl) nofun
  | hold i t => exact Option.some.inj hs ▸ h.modifyKeeper i (fun _ => rfl) nofun
  | release i t => exact Option.some.inj hs ▸ h.modifyKeeper i (fun _ => rfl) nofun

/-- **Every keeper follows its roll through all steps.** -/
theorem Enrols.run (h : w.Enrols rolls) {steps : List FabricStep}
    (hsteps : w.run? rolls steps = some (w', rolls')) : w'.Enrols rolls' := by
  induction steps generalizing w rolls with
  | nil =>
    obtain ⟨rfl, rfl⟩ := Prod.mk.inj (Option.some.inj hsteps)
    exact h
  | cons s steps ih =>
    obtain ⟨w₁, hw₁, hrest⟩ := Option.bind_eq_some_iff.1 hsteps
    exact ih (h.perform hw₁) hrest

omit [AppMessage μ] [Service μ σ] in
theorem Enrols.awaitsPresent (h : w.Enrols rolls) : w.AwaitsPresent rolls := by
  have hheld : ∀ (i ticket : Nat) (x : Enrolment), (rolls i)[ticket]? = some x → x.owned →
      w.processor? i ticket = some x.registration := by
    intro i ticket x hx howned
    cases hn : w.node? i with
    | none =>
      rw [h.vacant i hn] at hx
      cases hx
    | some n =>
      have hkept : x.isKept := by rw [Enrolment.isKept, howned, Bool.true_or]
      rw [processor?, hn]
      exact (h.keeper i n hn).get?_of_isKept hx hkept
  refine ⟨hheld, fun i ticket r hr howned hopen m hm => ?_, fun i ticket x hx howned hreplied =>
    (h.awaits i).isDone (List.mem_of_getElem? hx) howned hreplied⟩
  obtain ⟨n, hn, hget⟩ := Option.bind_eq_some_iff.1 hr
  rw [(h.keeper i n hn).live, Option.map_eq_some_iff] at hget
  obtain ⟨x, hx, rfl⟩ := hget
  obtain ⟨hx, -⟩ := Option.filter_eq_some_iff.1 hx
  have hwaits : x.waits := by
    rw [Enrolment.waits, show x.owned = true from howned,
      show x.processor.isDone = false from hopen]
    rfl
  exact h.awaits i x (List.mem_of_getElem? hx) hwaits m hm

/-! ## Every run -/

/-- **Nobody waits for those who left.** Members of one membership wait for answers; they come, go
and answer in any order. At any time a processor that its maker has and that has not ended awaits
current members only, and one has ended if every current member among its recipients has
answered. -/
theorem run_awaitsPresent (network : Network) {steps : List FabricStep}
    (h : run? { network } (fun _ => []) steps = some (w, rolls)) : w.AwaitsPresent rolls :=
  ((enrols_start network).run h).awaitsPresent

/-- A member leaves for which one processor waits, and another one among others. The first has
ended, and the second waits for who is still here. -/
theorem run_awaitsPresent_departed : ∃ (w : RegionFabric) (rolls : Rolls) (steps : _),
    run? { network := .localNetwork 2 } (fun _ => []) steps = some (w, rolls)
      ∧ w.AwaitsPresent rolls ∧ (w.processor? 0 0).any (·.processor.isDone)
      ∧ (w.processor? 1 0).map (·.processor.pending.toList) = some [Network.localMember 0] := by
  let steps : List FabricStep := [.join (Network.localMember 0), .join (Network.localMember 1),
    .enter 0 {}, .enter 1 {}, .await 0 [Network.localMember 1],
    .await 1 [Network.localMember 0, Network.localMember 1], .depart (Network.localMember 1) true]
  have hrun : (run? ({ network := .localNetwork 2 } : RegionFabric) (fun _ => []) steps).any
      (fun s => (s.1.processor? 0 0).any (·.processor.isDone)
        ∧ (s.1.processor? 1 0).map (·.processor.pending.toList) = some [Network.localMember 0])
      = true := by decide +kernel
  obtain ⟨⟨w, rolls⟩, hs, hstate⟩ := (Option.any_eq_true _ _).1 hrun
  exact ⟨w, rolls, steps, hs, run_awaitsPresent _ hs, of_decide_eq_true hstate⟩

end Fabric

end DataGrid
