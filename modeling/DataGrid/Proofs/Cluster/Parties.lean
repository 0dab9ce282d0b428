import DataGrid.Proofs.Cluster.Sites

/-!
# Parties — who takes part in a round

A round concerns the member that begins it and the members that it reaches. Under which names they
take part, what they are set up for, whom each can reach and who is a member stays as it is while
the round goes on (`Parties`); what changes is what their places keep, and that is a site for each.
A fabric hosts sites for the parties (`Fabric.Hosts`) when their ports and nodes are in order and
everything else is as the parties say. Nothing is asked of the links of a port as a whole: a peer
is reached or it is not (`Network.target?`).
-/

namespace DataGrid

/-! ## Reaching a peer -/

namespace Network

/-- The place that a frame from a port to a peer arrives at, if the peer can be reached. -/
def target? (n : Network) (i : Nat) (peer : Member) : Option Nat :=
  ((n.get? i).bind (·.links.get? peer)).filter fun j => (n.get? j).any (·.inlet ≠ .closed)

variable {n : Network} {i j : Nat} {peer : Member} {p : Port}

/-- A frame to a peer that can be reached arrives behind what has arrived there. -/
theorem send_of_target (hp : n.get? i = some p) (h : n.target? i peer = some j) (frame : Bytes) :
    n.send i peer frame = (.ok j, n.modify j (·.receive (p.member, frame))) := by
  rw [target?, hp, Option.bind_some, Option.filter_eq_some_iff] at h
  obtain ⟨hlink, hopen⟩ := h
  cases hq : n.get? j with
  | none =>
    rw [hq] at hopen
    cases hopen
  | some q =>
    have hclosed : q.inlet ≠ .closed := by simpa [hq] using hopen
    rw [send, hp]
    simp only [hlink, Option.bind_some, hq, Option.map_some, if_neg hclosed]

/-- A frame to a peer that cannot be reached changes nothing. -/
theorem send_of_cut (h : n.target? i peer = none) (frame : Bytes) :
    ∃ e, n.send i peer frame = (.error e, n) := by
  rw [send]
  cases hp : n.get? i with
  | none => exact ⟨_, rfl⟩
  | some p =>
    rw [target?, hp, Option.bind_some] at h
    cases hlink : p.links.get? peer with
    | none => exact ⟨_, by simp only [hlink, Option.bind_none]; rfl⟩
    | some j =>
      cases hq : n.get? j with
      | none => exact ⟨_, by simp only [hlink, Option.bind_some, hq, Option.map_none]; rfl⟩
      | some q =>
        have hclosed : q.inlet = .closed := by
          simpa [hlink, hq, Option.filter_some] using h
        exact ⟨_, by
          simp only [hlink, Option.bind_some, hq, Option.map_some, if_pos hclosed]; rfl⟩

/-- Whom a port reaches depends on links and inlets alone. -/
theorem target?_modify {f : Port → Port} (hf : ∀ p, n.get? j = some p →
    (f p).links = p.links ∧ (f p).inlet = p.inlet) : (n.modify j f).target? = n.target? := by
  have hlinks : ∀ i, ((n.modify j f).get? i).map (·.links) = (n.get? i).map (·.links) := by
    intro i
    rw [Fabric.get?_modify]
    by_cases hi : i = j
    · subst hi
      cases hp : n.get? i with
      | none => simp
      | some p => simp [(hf p hp).1]
    · rw [if_neg hi]
  have hinlets : ∀ i, ((n.modify j f).get? i).map (·.inlet) = (n.get? i).map (·.inlet) := by
    intro i
    rw [Fabric.get?_modify]
    by_cases hi : i = j
    · subst hi
      cases hp : n.get? i with
      | none => simp
      | some p => simp [(hf p hp).2]
    · rw [if_neg hi]
  have hbind : ∀ (o : Option Port) (peer : Member),
      o.bind (·.links.get? peer) = (o.map (·.links)).bind (·.get? peer) := by
    intro o peer
    cases o <;> rfl
  have hany : ∀ o : Option Port,
      o.any (fun p => decide (p.inlet ≠ .closed)) = (o.map (·.inlet)).any (· ≠ .closed) := by
    intro o
    cases o <;> rfl
  funext i peer
  simp only [target?, hbind, hany, hlinks, hinlets]

end Network

/-! ## Parties -/

/-- Whether a node names events under the identity of a member. -/
def Node.Names (n : Node Update RegionState) (m : Member) : Prop :=
  ∃ id, m.essentialBytes .current = .ok id
    ∧ n.identity.membershipId n.connection = (.ok id, n.identity)

/-- The members that take part in a round, and what does not change while it goes on. -/
structure Parties where
  /-- The places that take part. -/
  here : Nat → Prop
  member : Nat → Member
  config : Nat → Config
  /-- Under which identities places name events. -/
  names : Nat → Member → Prop
  /-- Whom each place reaches, and where. -/
  target : Nat → Member → Option Nat
  isMember : Member → Bool
  /-- The nodes of the places that take no part. -/
  away : Nat → Option (Node Update RegionState)

/-- Whether a port is that of a party. -/
structure Port.Serves (p : Port) (ps : Parties) (i : Nat) (s : Site) : Prop where
  member : p.member = ps.member i
  inbox : p.inbox = s.inbox
  inlet : p.inlet = .taken

/-- Whether a node is that of a party. -/
structure Node.Serves (n : Node Update RegionState) (ps : Parties) (i : Nat) (s : Site) :
    Prop where
  member : n.member = ps.member i
  config : n.config = ps.config i
  registry : n.registry = Update.registry
  keeper : n.keeper = s.keeper
  queue : n.queue = { normal := s.queue }
  attached : n.attached = some s.state
  started : n.started = true
  running : n.isShutdown = false
  names : ∀ m, ps.names i m → n.Names m

namespace Fabric

/-- **Whether a fabric hosts sites for the parties of a round.** -/
structure Hosts (w : RegionFabric) (ps : Parties) (sites : Nat → Site) : Prop where
  port : ∀ i, ps.here i → ∃ p, w.network.get? i = some p ∧ p.Serves ps i (sites i)
  node : ∀ i, ps.here i → ∃ n, w.node? i = some n ∧ n.Serves ps i (sites i)
  target : w.network.target? = ps.target
  isMember : w.membership.contains = ps.isMember
  away : ∀ i, ¬ps.here i → w.node? i = ps.away i

variable {w w' : RegionFabric} {ps : Parties} {sites : Nat → Site} {i j : Nat} {s : Site}

/-- Only network, nodes and membership are hosts. -/
theorem Hosts.congr (h : w.Hosts ps sites) (hnetwork : w'.network = w.network)
    (hnodes : w'.nodes = w.nodes) (hmembership : w'.membership = w.membership) :
    w'.Hosts ps sites where
  port := by rw [hnetwork]; exact h.port
  node := by
    intro i hi
    rw [node?, hnodes]
    exact h.node i hi
  target := by rw [hnetwork]; exact h.target
  isMember := by rw [hmembership]; exact h.isMember
  away := by
    intro i hi
    rw [node?, hnodes]
    exact h.away i hi

/-- The same sites in another form. -/
theorem Hosts.of_forall_eq {sites' : Nat → Site} (h : w.Hosts ps sites)
    (heq : ∀ j, sites j = sites' j) : w.Hosts ps sites' :=
  funext heq ▸ h

/-- A fabric that differs at the place of one party hosts another site there. -/
theorem Hosts.replace (h : w.Hosts ps sites) (hi : ps.here i)
    (hmembership : w'.membership = w.membership) (htarget : w'.network.target? = w.network.target?)
    (hports : ∀ j, j ≠ i → w'.network.get? j = w.network.get? j)
    (hnodes : ∀ j, j ≠ i → w'.node? j = w.node? j)
    (hport : ∃ p, w'.network.get? i = some p ∧ p.Serves ps i s)
    (hnode : ∃ n, w'.node? i = some n ∧ n.Serves ps i s) :
    w'.Hosts ps (Function.update sites i s) where
  port := by
    intro j hj
    by_cases hji : j = i
    · subst hji
      rw [Function.update_self]
      exact hport
    · rw [Function.update_of_ne hji, hports j hji]
      exact h.port j hj
  node := by
    intro j hj
    by_cases hji : j = i
    · subst hji
      rw [Function.update_self]
      exact hnode
    · rw [Function.update_of_ne hji, hnodes j hji]
      exact h.node j hj
  target := htarget.trans h.target
  isMember := by rw [hmembership]; exact h.isMember
  away := by
    intro j hj
    rw [hnodes j fun hji => hj (hji ▸ hi)]
    exact h.away j hj

/-- The node of a party is put in its place, with the arrivals of before. -/
theorem Hosts.setNode (h : w.Hosts ps sites) (hi : ps.here i) {n : Node Update RegionState}
    (hn : n.Serves ps i s) (hinbox : s.inbox = (sites i).inbox) :
    (w.setNode i n).Hosts ps (Function.update sites i s) := by
  obtain ⟨p, hp, hat⟩ := h.port i hi
  refine h.replace hi rfl rfl (fun _ _ => rfl) (fun j hj => ?_)
    ⟨p, hp, hat.member, hat.inbox.trans hinbox.symm, hat.inlet⟩ ⟨n, ?_, hn⟩
  · rw [node?_setNode, if_neg hj]
  · rw [node?_setNode, if_pos rfl]

/-- The arrivals of a party change. -/
theorem Hosts.setInbox (h : w.Hosts ps sites) (hi : ps.here i) (inbox : List Arrival)
    {f : Port → Port} (hf : ∀ p, w.network.get? i = some p → f p = { p with inbox }) :
    (w.modifyNetwork (·.modify i f)).Hosts ps
      (Function.update sites i { sites i with inbox }) := by
  obtain ⟨p, hp, hport⟩ := h.port i hi
  obtain ⟨n, hn, hnode⟩ := h.node i hi
  refine h.replace hi rfl (Network.target?_modify fun p hp => ?_) (fun j hj => ?_) (fun _ _ => rfl)
    ⟨{ p with inbox }, ?_, hport.member, rfl, hport.inlet⟩ ⟨n, hn, ?_⟩
  · rw [hf p hp]
    exact ⟨rfl, rfl⟩
  · change (w.network.modify i f).get? j = _
    rw [get?_modify, if_neg hj]
  · change (w.network.modify i f).get? i = _
    rw [get?_modify, if_pos rfl, hp, Option.map_some, hf p hp]
  · exact ⟨hnode.member, hnode.config, hnode.registry, hnode.keeper, hnode.queue, hnode.attached,
      hnode.started, hnode.running, hnode.names⟩

theorem Hosts.call (h : w.Hosts ps sites) (a : Activity) : (w.call a).Hosts ps sites := by
  rw [call_eq]
  exact h.congr rfl rfl rfl

theorem Hosts.receives (h : w.Hosts ps sites) (hi : ps.here i) : w.receives i = true := by
  obtain ⟨n, hn, hat⟩ := h.node i hi
  rw [Fabric.receives, hn, Option.any_some, hat.started, hat.running]
  rfl

theorem Hosts.attached? (h : w.Hosts ps sites) (hi : ps.here i) :
    w.attached? i = some (sites i).state := by
  obtain ⟨n, hn, hat⟩ := h.node i hi
  rw [Fabric.attached?, hn]
  exact hat.attached

theorem Hosts.processor?_eq (h : w.Hosts ps sites) (hi : ps.here i) (ticket : Nat) :
    w.processor? i ticket = (sites i).keeper.get? ticket := by
  obtain ⟨n, hn, hat⟩ := h.node i hi
  rw [processor?, hn, Option.bind_some, hat.keeper]

/-! ## Live places are parties -/

open Network (localMember)

variable {config : Config} {live : Nat → Prop} {sites' : Nat → Site}

/-- Live places reach each other. -/
theorem Shows.target?_eq (h : w.Shows config live sites) (hi : live i) (hj : live j) (hne : j ≠ i) :
    w.network.target? i (localMember j) = some j := by
  obtain ⟨p, hp, hat⟩ := h.port i hi
  obtain ⟨q, hq, hqat⟩ := h.port j hj
  rw [Network.target?, hp, Option.bind_some, hat.links j hj hne, Option.filter_some, hq,
    Option.any_some, hqat.inlet]
  rfl

/-- The live places of a fabric, as the parties of a round. -/
def parties (w : RegionFabric) (config : Config) (live : Nat → Prop) : Parties where
  here := live
  member := localMember
  config _ := config
  names i m := m = localMember i
  target := w.network.target?
  isMember := w.membership.contains
  away := w.node?

/-- A fabric that shows sites hosts its live places. -/
theorem Shows.hosts (h : w.Shows config live sites) : w.Hosts (w.parties config live) sites where
  port i hi := by
    obtain ⟨p, hp, hat⟩ := h.port i hi
    exact ⟨p, hp, hat.member, hat.inbox, hat.inlet⟩
  node i hi := by
    obtain ⟨n, hn, hat⟩ := h.node i hi
    exact ⟨n, hn, hat.member, hat.config, hat.registry, hat.keeper, hat.queue, hat.attached,
      hat.started, hat.running, fun _ hm => hm ▸ hat.identity⟩
  target := rfl
  isMember := rfl
  away _ _ := rfl

/-- What hosts the live places of a fabric shows sites as that fabric did. -/
theorem Hosts.shows (h' : w'.Hosts (w.parties config live) sites')
    (h : w.Shows config live sites) : w'.Shows config live sites' where
  port i hi := by
    obtain ⟨p, hp, hat⟩ := h'.port i hi
    refine ⟨p, hp, hat.member, hat.inbox, hat.inlet, fun j hj hne => ?_⟩
    have htarget : w'.network.target? i (localMember j) = some j := by
      rw [h'.target]
      exact h.target?_eq hi hj hne
    rw [Network.target?, hp, Option.bind_some, Option.filter_eq_some_iff] at htarget
    exact htarget.1
  node i hi := by
    obtain ⟨n, hn, hat⟩ := h'.node i hi
    exact ⟨n, hn, hat.member, hat.config, hat.registry, hat.keeper, hat.queue, hat.names _ rfl,
      hat.attached, hat.started, hat.running⟩
  membership m := by
    rw [h'.isMember]
    exact h.membership m
  distinct := h.distinct

end Fabric

end DataGrid
