import DataGrid.Proofs.Cluster.Replicating
import DataGrid.Proofs.Cluster.Start
import DataGrid.Proofs.Region.Reports

/-!
# Reporting — what one round does and tells, for every payload and every copy

A member that is poised pushes a payload to recipients, of whom some may have left and some may not
be reached. Every recipient that is reached lets its copy make of the update what it makes of it,
once, and answers once. The round fails with the failures of the awaited recipients, if there are
any, and otherwise reports who made what of the update (`Region.replicate_reports`). Nothing is
asked of the copies, which may differ from the writer's in any way, nor of the payload, which need
not be readable.
-/

namespace DataGrid

namespace Fabric

variable {ps : Parties} {sites : Nat → Site} {recipients : List Member} {x : Shipment}

/-- **The processor of a round has heard of every recipient**: it has departed, or its copy has
answered. -/
theorem seen_eq (hsends : ps.Sends x.sender recipients)
    (hplaces : x.places = ps.reached x.sender recipients) (hheard : x.Heard ps sites) :
    seen ps sites recipients x = hearing recipients
      (fun m => (ps.target x.sender m).map fun j => (sites j).state) x.update := by
  rw [seen, hearing, departures, Parties.missed, Keeper.eventsOf,
    Shipment.answers_eq_map hheard, hplaces, Parties.reached, List.map_map, List.map_filterMap]
  refine congrArg₂ _ ?_ (List.filterMap_congr fun m hm => ?_)
  · rw [← List.filterMap_eq_map, List.filterMap_filter]
    refine List.filterMap_congr fun m _ => ?_
    rw [Option.isNone_map]
    rfl
  · cases htarget : ps.target x.sender m with
    | none => rfl
    | some j =>
      have hmember := (hsends.linked m hm j htarget).member
      simp only [Option.map_some, Function.comp_apply, hmember]

end Fabric

/-! ## Members that are ready -/

/-- Whether a member is ready at a place: its port is open, its node runs and has a copy of the
region, and nothing has arrived or is queued. -/
structure Fabric.Ready (w : RegionFabric) (i : Nat) (m : Member) : Prop where
  port : ∃ p, w.network.get? i = some p ∧ p.member = m ∧ p.inbox = [] ∧ p.inlet = .taken
  node : ∃ n, w.node? i = some n ∧ n.member = m ∧ n.registry = Update.registry ∧ n.queue = {}
    ∧ n.attached.isSome ∧ n.started = true ∧ n.isShutdown = false

namespace Region

variable {r : Region} {w : RegionFabric} {here : Member} {recipients : List Member}

/-- **Whether a member is poised to push to recipients.** Nothing is in flight; the member is ready
and can name events; and every recipient that it reaches is ready and reaches it. -/
structure Poised (r : Region) (w : RegionFabric) (here : Member) (recipients : List Member) :
    Prop where
  due : w.due = []
  ready : w.Ready r.place here
  names : ∃ n m, w.node? r.place = some n ∧ n.Names m ∧ 0 < n.keeper.next.toInt
  nonempty : recipients ≠ []
  nodup : recipients.Nodup
  others : here ∉ recipients
  linked : ∀ m ∈ recipients, ∀ j, w.network.target? r.place m = some j →
    w.Ready j m ∧ w.network.target? j here = some r.place

end Region

/-- Whether the frame of an update and that of its answer are within the limits of a recipient and
of the member that asks. -/
def Node.admits (n : Node Update RegionState) (asker : Config) (frame : Bytes) (u : Update) :
    Bool :=
  frame.length ≤ n.config.maxFrame && n.attached.all fun s =>
    let answer := (s.answer n.member u).frame n.config.version
    answer.length ≤ n.config.maxFrame && answer.length ≤ asker.maxFrame
      && answer.length < 2147483648

theorem Node.admits_iff {n : Node Update RegionState} {ps : Parties} {j : Nat} {s : Site}
    (h : n.Serves ps j s) {asker : Config} {frame : Bytes} {u : Update} :
    n.admits asker frame u ↔ frame.length ≤ (ps.config j).maxFrame
      ∧ ((s.state.answer (ps.member j) u).frame (ps.config j).version).length
          ≤ (ps.config j).maxFrame
      ∧ ((s.state.answer (ps.member j) u).frame (ps.config j).version).length ≤ asker.maxFrame
      ∧ ((s.state.answer (ps.member j) u).frame (ps.config j).version).length < 2147483648 := by
  simp only [admits, h.config, h.attached, h.member, Option.all_some, Bool.and_eq_true,
    decide_eq_true_eq, and_assoc]

/-- Whether every frame of a round is within the limits of who sends and who reads it. -/
def Region.roundFits (r : Region) (w : RegionFabric) (recipients : List Member) (key : Bytes)
    (payload : Payload) : Bool :=
  match w.node? r.place, r.announcement w key recipients payload with
  | some n, some a =>
    match Frame.encode (.app a) n.config.version with
    | .ok frame =>
      frame.length ≤ n.config.maxFrame && frame.length < 2147483648
        && match Frame.decode Update.registry frame with
          | .ok (.app u) => recipients.all fun m =>
              ((w.network.target? r.place m).bind w.node?).all (·.admits n.config frame u)
          | _ => true
    | .error _ => true
  | _, _ => true

namespace Region

/-- The copy of a recipient that is reached. -/
def reachedCopy (r : Region) (w : RegionFabric) (m : Member) : Option RegionState :=
  (w.network.target? r.place m).bind w.attached?

/-- The copy of a recipient that is awaited: of a current member that is reached. -/
def awaited (r : Region) (w : RegionFabric) (recipients : List Member) :
    Member → Option RegionState :=
  awaitedCopy recipients w.membership.contains (r.reachedCopy w)

/-- The answer of a recipient as it arrives, if the recipient is reached. -/
def arrivalOf (r : Region) (w : RegionFabric) (u : Update) (m : Member) : Option Arrival := do
  let n ← (w.network.target? r.place m).bind w.node?
  let s ← n.attached
  return (m, (s.answer m u).frame n.config.version)

/-- **What a round does and tells.** It has begun in the fabric `begun` and ended in the fabric
`ended`. -/
structure RoundOf (r : Region) (w begun ended : RegionFabric) (here : Member)
    (recipients : List Member) (u : Update) (result : Except RegionError Outcome) : Prop where
  /-- Every recipient that is reached has one task: the update. -/
  queued : ∀ m ∈ recipients, ∀ j, w.network.target? r.place m = some j →
    ∃ n, begun.round.node? j = some n
      ∧ n.queue = { normal := [{ sender := here, message := .app u }] }
  /-- When the tasks are done, one answer of every such recipient has arrived. -/
  arrived : ∃ p, begun.round.round.network.get? r.place = some p
    ∧ p.inbox = recipients.filterMap (r.arrivalOf w u)
  /-- The copies that are reached become what the update makes of them. -/
  reached : ∀ m ∈ recipients, ∀ j s, w.network.target? r.place m = some j →
    w.attached? j = some s → ended.attached? j = some (s.applyUpdate u).2
  /-- No other copy changes. -/
  kept : ∀ j, (∀ m ∈ recipients, w.network.target? r.place m ≠ some j) →
    ended.attached? j = w.attached? j
  settled : ended.due = []
  failed : ∀ m s why, r.awaited w recipients m = some s → (s.applyUpdate u).1 = .error why →
    ∃ failures, result = .error (.reply (.remote failures))
      ∧ Fails failures (r.awaited w recipients) u
  succeeded : (∀ m s, r.awaited w recipients m = some s →
      ∀ why, (s.applyUpdate u).1 ≠ .error why) →
    ∃ o, result = .ok o ∧ o.Reports recipients (r.awaited w recipients) u

/-! ## The parties of a round -/

/-- The members that take part in a round. -/
def parties (r : Region) (w : RegionFabric) (recipients : List Member) : Parties where
  here j := j = r.place ∨ ∃ m ∈ recipients, w.network.target? r.place m = some j
  member j := (w.network.member? j).getD { host := "", port := 0 }
  config j := ((w.node? j).map (·.config)).getD {}
  names j m := j = r.place ∧ ∀ n, w.node? j = some n → n.Names m
  target := w.network.target?
  isMember := w.membership.contains
  away := w.node?

/-- What a place keeps where nothing has arrived or is queued. -/
def siteAt (w : RegionFabric) (j : Nat) : Site :=
  { state := (w.attached? j).getD {}, keeper := ((w.node? j).map (·.keeper)).getD {} }

variable {r : Region} {w : RegionFabric} {here : Member} {recipients : List Member}

theorem Poised.ready_of_here (h : r.Poised w here recipients) {j : Nat}
    (hj : (r.parties w recipients).here j) : ∃ m, w.Ready j m := by
  rcases hj with rfl | ⟨m, hm, htarget⟩
  · exact ⟨here, h.ready⟩
  · exact ⟨m, (h.linked m hm j htarget).1⟩

theorem member_of_ready {j : Nat} {m : Member} (h : w.Ready j m) :
    (r.parties w recipients).member j = m := by
  obtain ⟨p, hp, hmember, -⟩ := h.port
  simp only [parties, Network.member?, hp, Option.map_some, Option.getD_some, hmember]

/-- The fabric hosts the parties of a round that a poised member begins. -/
theorem Poised.hosts (h : r.Poised w here recipients) :
    w.Hosts (r.parties w recipients) (siteAt w) where
  port j hj := by
    obtain ⟨m, hready⟩ := h.ready_of_here hj
    obtain ⟨p, hp, hmember, hinbox, hinlet⟩ := hready.port
    exact ⟨p, hp, hmember.trans (member_of_ready hready).symm, hinbox, hinlet⟩
  node j hj := by
    obtain ⟨m, hready⟩ := h.ready_of_here hj
    obtain ⟨n, hn, hmember, hregistry, hqueue, hattached, hstarted, hrunning⟩ := hready.node
    obtain ⟨s, hs⟩ := Option.isSome_iff_exists.1 hattached
    refine ⟨n, hn, hmember.trans (member_of_ready hready).symm, ?_, hregistry, ?_, hqueue, ?_,
      hstarted, hrunning, ?_⟩
    · simp only [parties, hn, Option.map_some, Option.getD_some]
    · rw [siteAt, hn]
      rfl
    · rw [siteAt, Fabric.attached?, hn, Option.bind_some, hs]
      rfl
    · exact fun m hm => hm.2 n hn
  target := rfl
  isMember := rfl
  away _ _ := rfl

/-- A poised member names events, and its keeper goes on behind a positive number. -/
theorem Poised.exists_names (h : r.Poised w here recipients) :
    ∃ m, (r.parties w recipients).names r.place m ∧ 0 < (siteAt w r.place).keeper.next.toInt := by
  obtain ⟨n, m, hn, hnames, hnext⟩ := h.names
  refine ⟨m, ⟨rfl, fun n' hn' => ?_⟩, ?_⟩
  · obtain rfl := Option.some.inj (hn.symm.trans hn')
    exact hnames
  · rw [siteAt, hn]
    exact hnext

theorem Poised.member (h : r.Poised w here recipients) :
    (r.parties w recipients).member r.place = here := member_of_ready h.ready

/-- A poised member can send to its recipients. -/
theorem Poised.sends (h : r.Poised w here recipients) :
    (r.parties w recipients).Sends r.place recipients where
  here := .inl rfl
  nodup := h.nodup
  others := h.member.symm ▸ h.others
  linked m hm j htarget := by
    obtain ⟨hready, hback⟩ := h.linked m hm j htarget
    exact ⟨.inr ⟨m, hm, htarget⟩, member_of_ready hready, htarget, by rw [h.member]; exact hback⟩

/-- A place is reached if some recipient is reached there. -/
theorem mem_reached {j : Nat} : j ∈ (r.parties w recipients).reached r.place recipients
    ↔ ∃ m ∈ recipients, w.network.target? r.place m = some j :=
  List.mem_filterMap

/-- The copy that a recipient is reached with is that of its site. -/
theorem Poised.reachedCopy_eq (h : r.Poised w here recipients) {m : Member}
    (hm : m ∈ recipients) :
    ((r.parties w recipients).target r.place m).map (fun j => (siteAt w j).state)
      = r.reachedCopy w m := by
  change (w.network.target? r.place m).map _ = _
  cases htarget : w.network.target? r.place m with
  | none => rw [reachedCopy, htarget]; rfl
  | some j =>
    have hat := h.hosts.attached? (.inr ⟨m, hm, htarget⟩ : (r.parties w recipients).here j)
    rw [reachedCopy, htarget, Option.bind_some, hat]
    rfl

/-- A shipment that every recipient admits is within all limits, and everybody's answer is heard. -/
theorem Poised.fits (h : r.Poised w here recipients) {x : Shipment}
    (hships : Fabric.Ships (r.parties w recipients) r recipients x)
    (hread : Frame.decode Update.registry x.frame = .ok (.app x.update))
    (hprocessor : x.update.processor ≠ 0)
    (hall : ∀ m ∈ recipients, ((w.network.target? r.place m).bind w.node?).all
      (·.admits ((r.parties w recipients).config r.place) x.frame x.update)) :
    x.Heard (r.parties w recipients) (siteAt w) ∧ x.Fits (r.parties w recipients) (siteAt w) := by
  have hadmits : ∀ j ∈ x.places, ∃ n : Node Update RegionState,
      n.Serves (r.parties w recipients) j (siteAt w j)
        ∧ n.admits ((r.parties w recipients).config r.place) x.frame x.update := by
    intro j hj
    rw [hships.places, hships.sender, mem_reached] at hj
    obtain ⟨m, hm, htarget⟩ := hj
    obtain ⟨n, hn, hat⟩ := h.hosts.node j (.inr ⟨m, hm, htarget⟩)
    have hpeer := hall m hm
    rw [htarget, Option.bind_some, hn, Option.all_some] at hpeer
    exact ⟨n, hat, hpeer⟩
  have hheard : x.Heard (r.parties w recipients) (siteAt w) := by
    intro j hj
    obtain ⟨n, hat, hpeer⟩ := hadmits j hj
    exact RegionState.voice_of_sendable (decide_eq_true ((Node.admits_iff hat).1 hpeer).2.1)
  refine ⟨hheard, hread, hprocessor, fun j hj => ?_, fun j hj r hr => ?_⟩
  · obtain ⟨n, hat, hpeer⟩ := hadmits j hj
    exact ((Node.admits_iff hat).1 hpeer).1
  · obtain ⟨n, hat, hpeer⟩ := hadmits j hj
    obtain rfl := Option.some.inj ((hheard j hj).symm.trans hr)
    rw [hships.sender]
    exact ((Node.admits_iff hat).1 hpeer).2.2

/-- **What a poised member sends**: the update that it announces, as everybody reads it, within
all limits. -/
theorem Poised.exists_shipment (h : r.Poised w here recipients) {key : Bytes} {payload : Payload}
    (hfits : r.roundFits w recipients key payload) :
    ∃ (a : Update) (x : Shipment), r.announcement w key recipients payload = some a
      ∧ Fabric.Ships (r.parties w recipients) r recipients x
      ∧ Frame.encode (.app a) ((r.parties w recipients).config r.place).version = .ok x.frame
      ∧ x.frame.length ≤ ((r.parties w recipients).config r.place).maxFrame
      ∧ x.Heard (r.parties w recipients) (siteAt w)
      ∧ x.Fits (r.parties w recipients) (siteAt w) ∧ x.update.processor = a.processor
      ∧ x.update.key = key ∧ x.update.payload = payload
      ∧ x.update.event.thread = r.producer.thread ∧ x.update.event.sequence = r.producer.next := by
  obtain ⟨m, hnames, hnext⟩ := h.exists_names
  obtain ⟨n, -, hn, -, -⟩ := h.names
  have hconfig : (r.parties w recipients).config r.place = n.config := by
    simp only [parties, hn, Option.map_some, Option.getD_some]
  obtain ⟨a, frame, ha, hframe, hprocessor, hthread, hsequence, hkey, hpayload, -, -, hdecode⟩ :=
    h.hosts.exists_frame (r := r) (.inl rfl) hnames hnext recipients key payload
  rw [hconfig] at hframe ⊢
  rw [roundFits, hn, ha] at hfits
  simp only [hframe, Bool.and_eq_true, decide_eq_true_eq] at hfits
  obtain ⟨⟨hsent, hshort⟩, hall⟩ := hfits
  obtain ⟨membership, hread⟩ := hdecode hshort
  rw [hread, List.all_eq_true] at hall
  let x : Shipment := {
    sender := r.place, places := (r.parties w recipients).reached r.place recipients, frame
    update := { a with event := { a.event with membership } } }
  have hnonzero : a.processor ≠ 0 := by
    rw [hprocessor]
    exact Keeper.ne_zero_of_pos (Keeper.freshId_pos hnext).1
  obtain ⟨hheard, hfits⟩ := h.fits (x := x) ⟨rfl, rfl⟩ hread hnonzero (hconfig ▸ hall)
  exact ⟨a, x, ha, ⟨rfl, rfl⟩, hframe, hsent, hheard, hfits, rfl, hkey, hpayload, hthread,
    hsequence⟩

/-- The answers that arrive are those of the recipients that are reached. -/
theorem Poised.arrivals_eq (h : r.Poised w here recipients) {x : Shipment}
    (hships : Fabric.Ships (r.parties w recipients) r recipients x)
    (hheard : x.Heard (r.parties w recipients) (siteAt w)) :
    x.arrivals (r.parties w recipients) (siteAt w) x.places
      = recipients.filterMap (r.arrivalOf w x.update) := by
  rw [Shipment.arrivals_eq_map hheard, hships.places, hships.sender, Parties.reached,
    List.map_filterMap]
  refine List.filterMap_congr fun m hm => ?_
  change (w.network.target? r.place m).map _ = _
  rw [arrivalOf]
  cases htarget : w.network.target? r.place m with
  | none => rfl
  | some j =>
    have hhere : (r.parties w recipients).here j := .inr ⟨m, hm, htarget⟩
    obtain ⟨n, hn, hat⟩ := h.hosts.node j hhere
    have hmember : (r.parties w recipients).member j = m :=
      member_of_ready (h.linked m hm j htarget).1
    simp only [Option.map_some, Option.bind_eq_bind, Option.bind_some, hn, hat.attached, hat.config,
      hmember]
    rfl

/-! ## Every round -/

/-- **One round, for every payload and every copy.** A poised member pushes a payload to
recipients, of whom some may have left and some may not be reached; every frame keeps to the limits.
The round sends one update, of the member's next event, to every recipient that it reaches. Each of
them lets its copy make of it what it makes of it, once, and answers once. If an awaited copy
failed, the round fails with those failures; otherwise it reports who made what of the update. -/
theorem replicate_reports {key : Bytes} {payload : Payload} (h : r.Poised w here recipients)
    (hfits : r.roundFits w recipients key payload) :
    ∃ (u : Update) (ticket : Nat) (begun ended : RegionFabric)
        (result : Except RegionError Outcome),
      u.key = key ∧ u.payload = payload ∧ u.event.thread = r.producer.thread
      ∧ u.event.sequence = r.producer.next
      ∧ r.begin w recipients key payload
        = (.ok ticket, { r with producer := r.producer.reserve.2 }, begun)
      ∧ r.replicate w recipients key payload
        = (result, { r with producer := r.producer.reserve.2 }, ended)
      ∧ r.RoundOf w begun ended here recipients u result := by
  obtain ⟨a, x, ha, hships, hframe, hsent, hvoices, hx, hprocessor, hkey, hpayload, hthread,
    hsequence⟩ := h.exists_shipment hfits
  have hr := hships.sender
  obtain ⟨m, hnames, hnext⟩ := h.exists_names
  have hsends : (r.parties w recipients).Sends x.sender recipients := hr ▸ h.sends
  have hself : x.sender ∉ x.places := fun hj => (hships.travels hsends).ne hj rfl
  have hplaces : ∀ j, j ∈ x.places ↔ ∃ m ∈ recipients, w.network.target? r.place m = some j :=
    fun j => by rw [hships.places, hr]; exact mem_reached
  have hmember : (r.parties w recipients).member x.sender = here := hr ▸ h.member
  obtain ⟨ticket, keeper, keeper', w₁, w', hbegin, hqueued, hanswered, hreplicate, hdue, -,
    hended⟩ := h.hosts.replicate hships hsends h.nonempty (hr ▸ hnames) (hr ▸ hnext)
      (fun _ _ => ⟨rfl, rfl⟩) h.due ha hprocessor (hr ▸ hframe) (hr ▸ hsent) hx
  have hheard : Fabric.seen (r.parties w recipients) (siteAt w) recipients x
      = hearing recipients (r.reachedCopy w) x.update := by
    rw [Fabric.seen_eq hsends hships.places hvoices, hr]
    exact hearing_congr fun m hm => h.reachedCopy_eq hm
  rw [hheard] at hreplicate
  refine ⟨x.update, ticket, w₁, w', _, hkey, hpayload, hthread, hsequence, hbegin, hreplicate, ?_⟩
  exact {
    queued := fun m hm j htarget => by
      have hj := (hplaces j).2 ⟨m, hm, htarget⟩
      obtain ⟨n', hn', hat⟩ := hqueued.node j (.inr ⟨m, hm, htarget⟩)
      refine ⟨n', hn', ?_⟩
      rw [hat.queue, Shipment.queued, if_pos hj, hmember]
    arrived := by
      obtain ⟨p, hp, hat⟩ := hanswered.port r.place (.inl rfl)
      refine ⟨p, hp, ?_⟩
      rw [hat.inbox, ← hr, Shipment.answered, if_neg hself, Function.update_self,
        Shipment.arrivals_congr fun j _ => Fabric.begun_state _ _ _ _ j,
        h.arrivals_eq hships hvoices]
    reached := fun m hm j s htarget hs => by
      have hj := (hplaces j).2 ⟨m, hm, htarget⟩
      rw [hended.attached? (.inr ⟨m, hm, htarget⟩), Fabric.replicated, if_pos hj, siteAt, hs]
      rfl
    kept := fun j hj => by
      have hmissed : j ∉ x.places := fun hmem => by
        obtain ⟨m, hm, htarget⟩ := (hplaces j).1 hmem
        exact hj m hm htarget
      by_cases hself : j = r.place
      · subst hself
        rw [hended.attached? (.inl rfl), h.hosts.attached? (.inl rfl), Fabric.replicated,
          if_neg hmissed, hr, Function.update_self]
      · have haway : ¬(r.parties w recipients).here j := by
          rintro (rfl | ⟨m, hm, htarget⟩)
          · exact hself rfl
          · exact hj m hm htarget
        rw [Fabric.attached?, hended.away j haway]
        rfl
    settled := hdue
    failed := fun m s why hcopy hwhy => by
      obtain ⟨failures, hverdict, hfails⟩ := remote_of_failure x.update.processor hcopy hwhy
      refine ⟨failures, ?_, hfails⟩
      change Except.mapError _ (verdict _ _ w.membership.contains _) = _
      rw [hverdict]
      rfl
    succeeded := fun hfree => by
      obtain ⟨o, hverdict, hreports⟩ := reports_of_no_failure x.update.processor hfree
      refine ⟨o, ?_, hreports⟩
      change Except.mapError _ (verdict _ _ w.membership.contains _) = _
      rw [hverdict]
      rfl }

end Region

/-! ## In a cluster at rest -/

namespace Fabric

open Network (localMember)

variable {w : RegionFabric} {config : Config} {live : Nat → Prop} {sites : Nat → Site} {i j : Nat}

/-- A live place where nothing has arrived or is queued is ready. -/
theorem Shows.ready (h : w.Shows config live sites) (hi : live i) (hinbox : (sites i).inbox = [])
    (hqueue : (sites i).queue = []) : w.Ready i (localMember i) := by
  obtain ⟨p, hp, hat⟩ := h.port i hi
  obtain ⟨n, hn, hnat⟩ := h.node i hi
  exact ⟨⟨p, hp, hat.member, hat.inbox.trans hinbox, hat.inlet⟩, n, hn, hnat.member, hnat.registry,
    by rw [hnat.queue, hqueue], by rw [hnat.attached]; rfl, hnat.started, hnat.running⟩

/-- **A live member is poised while nothing is in flight**, to push to live members and to whomever
it does not reach. -/
theorem Shows.poised {r : Region} (h : w.Shows config live sites) (hdue : w.due = [])
    (hi : live r.place) (hcalm : ∀ j, live j → (sites j).inbox = [] ∧ (sites j).queue = [])
    (hnext : 0 < (sites r.place).keeper.next.toInt) {recipients : List Member}
    (hnonempty : recipients ≠ []) (hnodup : recipients.Nodup)
    (hothers : localMember r.place ∉ recipients)
    (hlinked : ∀ m ∈ recipients, (∃ j, live j ∧ localMember j = m)
      ∨ w.network.target? r.place m = none) :
    r.Poised w (localMember r.place) recipients where
  due := hdue
  ready := h.ready hi (hcalm _ hi).1 (hcalm _ hi).2
  names := by
    obtain ⟨n, hn, hat⟩ := h.node r.place hi
    exact ⟨n, localMember r.place, hn, hat.identity, by rw [hat.keeper]; exact hnext⟩
  nonempty := hnonempty
  nodup := hnodup
  others := hothers
  linked m hm k htarget := by
    rcases hlinked m hm with ⟨j, hj, rfl⟩ | hcut
    · have hne : j ≠ r.place := fun heq => hothers (heq ▸ hm)
      obtain rfl : j = k := Option.some.inj ((h.target?_eq hi hj hne).symm.trans htarget)
      exact ⟨h.ready hj (hcalm j hj).1 (hcalm j hj).2, h.target?_eq hj hi hne.symm⟩
    · rw [hcut] at htarget
      cases htarget

end Fabric

namespace Region

open Network (localMember)

/-- A copy without an entity wants the whole value when it is sent a delta. -/
theorem applyUpdate_empty {u : Update} {octets : Bytes} (h : u.payload = .delta octets) :
    (({} : RegionState).applyUpdate u).1
      = .ok (.needsFull ("no local copy of " ++ Text.lossy u.key)) := by
  simp only [RegionState.applyUpdate, Tracker.record, Tracker.recordIn, h, Entries.applyPayload,
    OrdMap.get?_empty]

/-- The writer of a cluster that has just started is poised, also for a stranger. The other members
lack a copy and want the whole value, and the stranger is taken to have left. -/
theorem replicate_reports_missing : ∃ (c : Cluster) (r : Region) (recipients : List Member)
    (key : Bytes) (payload : Payload), Cluster.start 3 {} = .ok c
      ∧ r.Poised c.fabric (localMember 0) recipients
      ∧ r.roundFits c.fabric recipients key payload
      ∧ ∃ o, (r.replicate c.fabric recipients key payload).1 = .ok o
        ∧ localMember 1 ∈ o.needsFullValue ∧ localMember 2 ∈ o.needsFullValue
        ∧ { host := "stranger", port := 1 } ∈ o.departed.toList := by
  let stranger : Member := { host := "stranger", port := 1 }
  let recipients := [localMember 2, stranger, localMember 1]
  let r : Region := (Cluster.newMember 0).region
  obtain ⟨c, hc, -, hshow, hdue⟩ := Cluster.start_ok (by decide : 3 ≤ 18446744073709551616) {}
  have hrun : (match Cluster.start 3 {} with
      | .ok c => r.roundFits c.fabric recipients [107] (.delta [1])
          && (c.fabric.network.target? 0 stranger).isNone
      | .error _ => false) = true := by decide +kernel
  rw [hc, Bool.and_eq_true, Option.isNone_iff_eq_none] at hrun
  obtain ⟨hfits, hcut⟩ := hrun
  have hreach : ∀ j, j = 1 ∨ j = 2 → c.fabric.network.target? 0 (localMember j) = some j :=
    fun j hj => hshow.target?_eq (by decide) (by omega) (by omega)
  have hcopy : ∀ j, j = 1 ∨ j = 2 →
      r.awaited c.fabric recipients (localMember j) = some {} := by
    intro j hj
    have hmem : localMember j ∈ recipients := by rcases hj with rfl | rfl <;> decide
    have hmember : c.fabric.membership.contains (localMember j) :=
      (hshow.membership _).2 ⟨j, by omega, rfl⟩
    obtain ⟨n, hn, hat⟩ := hshow.node j (by omega)
    have hreached : r.reachedCopy c.fabric (localMember j) = some {} := by
      change (c.fabric.network.target? 0 (localMember j)).bind c.fabric.attached? = _
      rw [hreach j hj, Option.bind_some, Fabric.attached?, hn]
      exact hat.attached
    rw [awaited, awaitedCopy, if_pos ⟨hmem, hmember⟩, hreached]
  have hleft : r.awaited c.fabric recipients stranger = none := by
    have hreached : r.reachedCopy c.fabric stranger = none := by
      change (c.fabric.network.target? 0 stranger).bind c.fabric.attached? = _
      rw [hcut, Option.bind_none]
    rw [awaited, awaitedCopy, hreached, ite_self]
  have hpoised : r.Poised c.fabric (localMember 0) recipients := by
    refine hshow.poised (r := r) hdue (by decide) (fun _ _ => ⟨rfl, rfl⟩) (by decide)
      (List.cons_ne_nil _ _) (by decide) (by decide) fun m hm => ?_
    rcases List.mem_cons.1 hm with rfl | hm
    · exact .inl ⟨2, by decide, rfl⟩
    rcases List.mem_cons.1 hm with rfl | hm
    · exact .inr hcut
    · exact .inl ⟨1, by decide, (List.mem_singleton.1 hm).symm⟩
  obtain ⟨u, ticket, w₁, w₂, result, -, hpayload, -, -, -, hreplicate, hround⟩ :=
    replicate_reports hpoised hfits
  have hwants := applyUpdate_empty hpayload
  have hfree : ∀ m s, r.awaited c.fabric recipients m = some s →
      ∀ why, (s.applyUpdate u).1 ≠ .error why := by
    intro m s hs why hwhy
    have hempty : ∀ j, j = 1 ∨ j = 2 → m ≠ localMember j := by
      rintro j hj rfl
      obtain rfl : {} = s := Option.some.inj ((hcopy j hj).symm.trans hs)
      rw [hwants] at hwhy
      cases hwhy
    rcases List.mem_cons.1 (mem_of_awaitedCopy hs) with rfl | hm
    · exact hempty 2 (by decide) rfl
    rcases List.mem_cons.1 hm with rfl | hm
    · rw [hleft] at hs
      cases hs
    · exact hempty 1 (by decide) (List.mem_singleton.1 hm)
  obtain ⟨o, rfl, hreports⟩ := hround.succeeded hfree
  have hstale : ∀ j, j = 1 ∨ j = 2 → localMember j ∈ o.needsFullValue := fun j hj => by
    rw [hreports.needsFullValue]
    exact (hreports.ignored _).2 ⟨{}, hcopy j hj, _, hwants⟩
  refine ⟨c, r, recipients, [107], .delta [1], hc, hpoised, hfits, o, by rw [hreplicate],
    hstale 1 (by decide), hstale 2 (by decide), (hreports.departed stranger).2 ⟨by decide, hleft⟩⟩

end Region

end DataGrid
