import DataGrid.Proofs.Cluster.Turns
import DataGrid.Proofs.Cluster.Writing

/-!
# Replicating — one round among parties

A party begins a round by naming the event, registering for the answers and sending the update.
Recipients that it does not reach are taken to have left. When the update has settled, the wait
sees what the processor has seen: those departures, and one answer of every place that was reached
(`Fabric.Hosts.replicate`). Nothing is asked of the copies of the recipients, nor of the payload.
-/

namespace DataGrid

namespace Fabric

variable {w : RegionFabric} {ps : Parties} {sites : Nat → Site} {i : Nat} {r : Region}

/-! ## Beginning -/

/-- A party names events under the identity of a member. -/
theorem Hosts.newEvent (h : w.Hosts ps sites) (hi : ps.here i) {m : Member}
    (hnames : ps.names i m) (p : Producer) :
    ∃ membership w', w.newEvent i p
        = (.ok { membership, thread := p.thread, sequence := p.next }, p.reserve.2, w')
      ∧ m.essentialBytes .current = .ok membership
      ∧ w'.Hosts ps sites ∧ w'.due = w.due := by
  obtain ⟨n, hn, hat⟩ := h.node i hi
  obtain ⟨membership, hbytes, hid⟩ := hat.names m hnames
  have hset : (w.setNode i { n with identity := n.identity }).Hosts ps
      (Function.update sites i (sites i)) := h.setNode hi hat rfl
  rw [Function.update_eq_self] at hset
  refine ⟨membership, _, ?_, hbytes, hset, rfl⟩
  rw [Fabric.newEvent, hn]
  simp only [EventId.generate, hid]
  rfl

/-- The keeper of a party changes. -/
theorem Hosts.setKeeper (h : w.Hosts ps sites) (hi : ps.here i) {f : Keeper → Keeper}
    {keeper : Keeper} (hf : f (sites i).keeper = keeper) :
    ∃ w', w.modifyKeeper i f = w' ∧ w'.Hosts ps (Function.update sites i { sites i with keeper })
      ∧ w'.due = w.due := by
  obtain ⟨n, hn, hat⟩ := h.node i hi
  have heq : w.modifyKeeper i f = w.setNode i { n with keeper } := by
    rw [modifyKeeper, modify, hn]
    simp only [hat.keeper, hf]
  exact ⟨_, heq, h.setNode hi ⟨hat.member, hat.config, hat.registry, rfl, hat.queue, hat.attached,
    hat.started, hat.running, hat.names⟩ rfl, rfl⟩

/-- A party registers for the answers of members. -/
theorem Hosts.await (h : w.Hosts ps sites) (hi : ps.here i) (recipients : List Member)
    {ticket : Nat} {keeper : Keeper}
    (hregister : (sites i).keeper.register (.await recipients ps.isMember) = (ticket, keeper)) :
    ∃ w', w.await i recipients = (ticket, w')
      ∧ w'.Hosts ps (Function.update sites i { sites i with keeper }) ∧ w'.due = w.due := by
  obtain ⟨n, hn, hat⟩ := h.node i hi
  refine ⟨w.setNode i { n with keeper }, ?_, h.setNode hi ⟨hat.member, hat.config, hat.registry,
    rfl, hat.queue, hat.attached, hat.started, hat.running, hat.names⟩ rfl, rfl⟩
  rw [Fabric.await, hn]
  simp only [h.isMember, hat.keeper, hregister]

/-- The number under which a processor is held. -/
theorem Hosts.processorId_eq (h : w.Hosts ps sites) (hi : ps.here i) {ticket : Nat} {id : Int32}
    {p : Processor} (hholds : (sites i).keeper.Holds ticket id p) :
    w.processorId i ticket = id := by
  rw [processorId, h.processor?_eq hi, hholds.live]
  rfl

/-- What a round announces: the next event of its producer, under the next free number of the
keeper. -/
theorem Hosts.announcement (h : w.Hosts ps sites) (hi : ps.here r.place)
    {m : Member} (hnames : ps.names r.place m) (hnext : 0 < (sites r.place).keeper.next.toInt)
    (recipients : List Member) (key : Bytes) (payload : Payload) :
    ∃ membership, m.essentialBytes .current = .ok membership
      ∧ r.announcement w key recipients payload = some {
          processor := (sites r.place).keeper.freshId.1
          event := { membership, thread := r.producer.thread, sequence := r.producer.next }
          key, payload } := by
  obtain ⟨membership, w₁, hevent, hbytes, hhosts₁, -⟩ := h.newEvent hi hnames r.producer
  rcases hregister : (sites r.place).keeper.register (.await recipients ps.isMember)
    with ⟨ticket, keeper⟩
  have hholds := Keeper.register_holds hnext (.await recipients ps.isMember)
  rw [hregister] at hholds
  obtain ⟨w₂, hawait, hhosts₂, -⟩ := hhosts₁.await hi recipients hregister
  have hid : w₂.processorId r.place ticket = (sites r.place).keeper.freshId.1 :=
    hhosts₂.processorId_eq hi (by rw [Function.update_self]; exact hholds)
  refine ⟨membership, hbytes, ?_⟩
  rw [Region.announcement, hevent]
  simp only [hawait, hid]

/-- The frame of an announced update. A short one is read as the update, but for the form of the
producer's membership id. -/
theorem Hosts.exists_frame (h : w.Hosts ps sites) (hi : ps.here r.place)
    {m : Member} (hnames : ps.names r.place m) (hnext : 0 < (sites r.place).keeper.next.toInt)
    (recipients : List Member) (key : Bytes) (payload : Payload) :
    ∃ u frame, r.announcement w key recipients payload = some u
      ∧ Frame.encode (.app u) (ps.config r.place).version = .ok frame
      ∧ u.processor = (sites r.place).keeper.freshId.1 ∧ u.event.thread = r.producer.thread
      ∧ u.event.sequence = r.producer.next ∧ u.key = key ∧ u.payload = payload
      ∧ 9 ≤ frame.length ∧ payload.octets.length < frame.length
      ∧ (frame.length < 2147483648 → ∃ membership, Frame.decode Update.registry frame
          = .ok (.app { u with event := { u.event with membership } })) := by
  obtain ⟨bytes, hbytes, hu⟩ := h.announcement hi hnames hnext recipients key payload
  let id : EventId :=
    { membership := bytes, thread := r.producer.thread, sequence := r.producer.next }
  have hid : m.essentialBytes .current = .ok id.membership := hbytes
  obtain ⟨membership, hat, hlength⟩ := EventId.exists_membershipAt hid
    (ps.config r.place).version
  obtain ⟨frame, hframe, hnine, hpayload, hdecode⟩ := Update.exists_frame
    (u := { processor := (sites r.place).keeper.freshId.1, key, payload, event := id }) hat hlength
  exact ⟨_, frame, hu, hframe, rfl, rfl, rfl, rfl, rfl, hnine, hpayload,
    fun hshort => ⟨membership, hdecode hshort⟩⟩

/-- What has happened to the processor of a round when the update was sent: whoever was not reached
is taken to have left. -/
def departures (ps : Parties) (i : Nat) (recipients : List Member) : List ProcessorEvent :=
  (ps.missed i recipients).map .departure

/-- The sites behind the beginning of a round. -/
def begun (ps : Parties) (sites : Nat → Site) (i : Nat) (recipients : List Member) (frame : Bytes)
    (keeper : Keeper) (j : Nat) : Site :=
  if j ∈ ps.reached i recipients then (sites j).arrive (ps.member i, frame)
  else Function.update sites i { sites i with keeper } j

/-- The keeper behind the beginning of a round: whoever was not reached is taken to have left. -/
def departed (ps : Parties) (i : Nat) (recipients : List Member) (ticket : Nat)
    (registered : Keeper) : Keeper :=
  (ps.missed i recipients).foldl (·.depart ticket ·) registered

/-- **A round begins.** The update arrives at every recipient that can be reached, the sender's
keeper has registered a processor for the answers, and its producer has moved on. -/
theorem Hosts.begin (h : w.Hosts ps sites) {recipients : List Member}
    (hsends : ps.Sends r.place recipients) (hnonempty : recipients ≠ [])
    {m : Member} (hnames : ps.names r.place m) {ticket : Nat} {registered : Keeper}
    (hregister : (sites r.place).keeper.register (.await recipients ps.isMember)
      = (ticket, registered))
    (key : Bytes) (payload : Payload) {u : Update} {frame : Bytes}
    (hu : r.announcement w key recipients payload = some u)
    (hframe : Frame.encode (.app u) (ps.config r.place).version = .ok frame)
    (hfits : frame.length ≤ (ps.config r.place).maxFrame) :
    ∃ w', r.begin w recipients key payload
        = (.ok ticket, { r with producer := r.producer.reserve.2 }, w')
      ∧ w'.Hosts ps (begun ps sites r.place recipients frame
          (departed ps r.place recipients ticket registered))
      ∧ w'.due = (ps.reached r.place recipients).foldl
          (fun due j => (Activity.receive j).enqueue due) w.due := by
  have hi := hsends.here
  have hself : r.place ∉ ps.reached r.place recipients := fun hj => hsends.ne_of_mem hj rfl
  obtain ⟨membership, w₁, hevent, -, hhosts₁, hdue₁⟩ := h.newEvent hi hnames r.producer
  obtain ⟨w₂, hawait, hhosts₂, hdue₂⟩ := hhosts₁.await hi recipients hregister
  rw [Region.announcement, hevent] at hu
  simp only [hawait] at hu
  obtain rfl := Option.some.inj hu
  obtain ⟨w₃, hsend, hhosts₃, hdue₃⟩ := hhosts₂.send hframe hfits hnonempty hsends
  obtain ⟨w₄, hkeep, hhosts₄, hdue₄⟩ := hhosts₃.setKeeper hi
    (f := departed ps r.place recipients ticket) rfl
  rw [if_neg hself, Function.update_self] at hhosts₄
  refine ⟨w₄, ?_, hhosts₄.of_forall_eq fun j => ?_, ?_⟩
  · rw [Region.begin, hevent]
    simp only [Region.push, hawait, hsend]
    exact congrArg (fun w => (_, _, w)) hkeep
  · by_cases hj : j = r.place
    · subst hj
      simp [begun, hself]
    · simp [begun, hj]
  · rw [hdue₄, hdue₃, hdue₂, hdue₁]

/-- **A round whose update is too long is not begun.** Nothing is sent, but the number of the event
is spent. -/
theorem Hosts.replicate_long (h : w.Hosts ps sites) (hi : ps.here r.place)
    {recipients : List Member} (hnonempty : recipients ≠ []) {m : Member}
    (hnames : ps.names r.place m) (hidle : (sites r.place).keeper.Idle) {key : Bytes}
    {payload : Payload} {u : Update} {frame : Bytes}
    (hu : r.announcement w key recipients payload = some u)
    (hframe : Frame.encode (.app u) (ps.config r.place).version = .ok frame)
    (hlong : (ps.config r.place).maxFrame < frame.length) :
    ∃ keeper w', r.replicate w recipients key payload
        = (.error (.fabric (.frameTooLarge frame.length (ps.config r.place).maxFrame)),
            { r with producer := r.producer.reserve.2 }, w')
      ∧ keeper.Idle ∧ w'.Hosts ps (Function.update sites r.place { sites r.place with keeper })
      ∧ w'.due = w.due := by
  obtain ⟨membership, w₁, hevent, -, hhosts₁, hdue₁⟩ := h.newEvent hi hnames r.producer
  rcases hregister : (sites r.place).keeper.register (.await recipients ps.isMember)
    with ⟨ticket, keeper⟩
  have hwaits := hidle.register (.await recipients ps.isMember)
  rw [hregister] at hwaits
  have hdropped : (keeper.drop ticket).Idle := hwaits.drop
  obtain ⟨w₂, hawait, hhosts₂, hdue₂⟩ := hhosts₁.await hi recipients hregister
  rw [Region.announcement, hevent] at hu
  simp only [hawait] at hu
  obtain rfl := Option.some.inj hu
  have hsend := hhosts₂.send_long hi hframe hlong hnonempty
  obtain ⟨w₃, hdrop, hhosts₃, hdue₃⟩ := hhosts₂.setKeeper hi (f := (·.drop ticket)) rfl
  rw [Function.update_idem, Function.update_self] at hhosts₃
  refine ⟨keeper.drop ticket, w₃, ?_, hdropped, hhosts₃, by rw [hdue₃, hdue₂, hdue₁]⟩
  rw [Region.replicate, Region.begin, hevent]
  simp only [Region.push, hawait, hsend, drop, hdrop]

/-! ## Ending -/

/-- A round ends: the wait takes what the processor has seen, and the processor is let go. -/
theorem Hosts.finish (h : w.Hosts ps sites) (hi : ps.here i) {ticket : Nat} {id : Int32}
    {p : Processor} (hholds : (sites i).keeper.Holds ticket id p) :
    ∃ w', Region.finish w i ticket = (p.wait id, w')
      ∧ w'.Hosts ps (Function.update sites i
          { sites i with keeper := (sites i).keeper.drop ticket })
      ∧ w'.due = w.due := by
  obtain ⟨w', hdrop, hhosts, hdue⟩ := h.setKeeper hi (f := (·.drop ticket)) rfl
  refine ⟨w', ?_, hhosts, hdue⟩
  rw [Region.finish, outcome, h.processor?_eq hi, hholds.live, drop, hdrop]

/-! ## A round -/

/-- Whether a shipment is what a round sends to recipients: it goes to those that are reached. -/
structure Ships (ps : Parties) (r : Region) (recipients : List Member) (x : Shipment) : Prop where
  sender : x.sender = r.place
  places : x.places = ps.reached x.sender recipients

/-- What the processor of a round has seen when the update has settled. -/
def seen (ps : Parties) (sites : Nat → Site) (recipients : List Member) (x : Shipment) :
    List ProcessorEvent :=
  departures ps x.sender recipients ++ Keeper.eventsOf (x.answers ps sites x.places)

/-- The sites behind a round. -/
def replicated (sites : Nat → Site) (x : Shipment) (keeper : Keeper) (j : Nat) : Site :=
  if j ∈ x.places then { sites j with state := ((sites j).state.applyUpdate x.update).2 }
  else Function.update sites x.sender { sites x.sender with keeper } j

variable {recipients : List Member} {x : Shipment}

/-- A shipment to recipients goes to others that can answer. -/
theorem Ships.travels (h : Ships ps r recipients x) (hsends : ps.Sends x.sender recipients) :
    x.Travels ps where
  here := hsends.here
  nodup := h.places ▸ hsends.nodup_reached
  linked j hj := by
    rw [h.places] at hj
    obtain ⟨hm, hlinked⟩ := hsends.mem_reached.1 hj
    exact ⟨hlinked.here, fun heq => hsends.others (heq ▸ hm), hlinked.back⟩

/-- A keeper is no part of a copy. -/
theorem state_setKeeper (sites : Nat → Site) (i : Nat) (keeper : Keeper) (j : Nat) :
    (Function.update sites i { sites i with keeper } j).state = (sites j).state := by
  by_cases hj : j = i
  · subst hj
    rw [Function.update_self]
  · rw [Function.update_of_ne hj]

/-- A round begins without touching a copy. -/
theorem begun_state (sites : Nat → Site) (recipients : List Member) (frame : Bytes)
    (keeper : Keeper) (j : Nat) :
    (begun ps sites i recipients frame keeper j).state = (sites j).state := by
  unfold begun
  split
  · rfl
  · exact state_setKeeper sites i keeper j

section Begun

variable {frame : Bytes} {keeper : Keeper}

theorem begun_of_reached {j : Nat} (hj : j ∈ ps.reached i recipients) :
    begun ps sites i recipients frame keeper j = (sites j).arrive (ps.member i, frame) :=
  if_pos hj

theorem begun_sender (hself : i ∉ ps.reached i recipients) :
    begun ps sites i recipients frame keeper i = { sites i with keeper } := by
  rw [begun, if_neg hself, Function.update_self]

end Begun

/-- Behind a round the sites are as they were, but for the copies that were reached and the keeper
of the sender. -/
theorem Ships.replicated_eq (h : Ships ps r recipients x) (hself : x.sender ∉ x.places)
    (hcalm : ∀ j ∈ x.places, (sites j).inbox = [] ∧ (sites j).queue = [])
    (keeper keeper' : Keeper) (j : Nat) :
    Function.update (x.settled ps (begun ps sites x.sender recipients x.frame keeper)) x.sender
      { x.settled ps (begun ps sites x.sender recipients x.frame keeper) x.sender with
        keeper := keeper' } j = replicated sites x keeper' j := by
  by_cases hj : j = x.sender
  · subst hj
    have hmissed : x.sender ∉ ps.reached x.sender recipients := h.places ▸ hself
    simp [replicated, Shipment.settled, hself, begun_sender hmissed]
  · by_cases hmem : j ∈ x.places
    · obtain ⟨hinbox, hqueue⟩ := hcalm j hmem
      simp only [Function.update_of_ne hj, Shipment.settled, if_pos hmem,
        begun_of_reached (h.places ▸ hmem), Shipment.served, replicated, Site.arrive]
      rw [← hinbox, ← hqueue]
    · have hmissed : j ∉ ps.reached x.sender recipients := h.places ▸ hmem
      simp [replicated, Shipment.settled, hj, hmem, begun, hmissed]

/-- **A shipment is under way.** The round has begun, everybody who is reached is due to receive
it, and the sender's keeper has registered a processor that knows who was missed. -/
theorem Hosts.ship (h : w.Hosts ps sites) (hships : Ships ps r recipients x)
    (hsends : ps.Sends x.sender recipients) (hnonempty : recipients ≠ [])
    {m : Member} (hnames : ps.names x.sender m) (hnext : 0 < (sites x.sender).keeper.next.toInt)
    (hdue : w.due = []) {key : Bytes} {payload : Payload} {a : Update}
    (ha : r.announcement w key recipients payload = some a)
    (hprocessor : x.update.processor = a.processor)
    (hframe : Frame.encode (.app a) (ps.config x.sender).version = .ok x.frame)
    (hsent : x.frame.length ≤ (ps.config x.sender).maxFrame) :
    ∃ ticket keeper w₁, r.begin w recipients key payload
        = (.ok ticket, { r with producer := r.producer.reserve.2 }, w₁)
      ∧ w₁.Hosts ps (begun ps sites x.sender recipients x.frame keeper)
      ∧ w₁.due = x.places.map .receive
      ∧ keeper.Holds ticket x.update.processor ((Processor.await recipients ps.isMember).run
          (departures ps x.sender recipients))
      ∧ ((sites x.sender).keeper.Idle → keeper.Awaits ticket x.update.processor
          ((Processor.await recipients ps.isMember).run (departures ps x.sender recipients))) := by
  have hr := hships.sender
  obtain ⟨membership, -, ha'⟩ := h.announcement (hr ▸ hsends.here) (hr ▸ hnames) (hr ▸ hnext)
    recipients key payload
  have hid : x.update.processor = (sites x.sender).keeper.freshId.1 := by
    rw [hprocessor, Option.some.inj (ha.symm.trans ha'), hr]
  rcases hregister : (sites x.sender).keeper.register (.await recipients ps.isMember)
    with ⟨ticket, registered⟩
  have hholds := Keeper.register_holds hnext (.await recipients ps.isMember)
  rw [hregister, ← hid] at hholds
  obtain ⟨w₁, hbegin, hhosts₁, hdue₁⟩ := h.begin (hr ▸ hsends) hnonempty (hr ▸ hnames)
    (hr ▸ hregister) key payload ha (hr ▸ hframe) (hr ▸ hsent)
  rw [← hr] at hhosts₁ hdue₁
  rw [hdue, foldl_enqueue_receive _ hsends.nodup_reached fun _ _ => List.not_mem_nil,
    List.nil_append, ← hships.places] at hdue₁
  refine ⟨ticket, _, w₁, hbegin, hhosts₁, hdue₁,
    hholds.foldl_depart (ps.missed x.sender recipients), fun hidle => ?_⟩
  have hnumber : x.update.processor = (sites x.sender).keeper.next := by
    rw [hid, hidle.freshId]
  have hwaits := hidle.register (.await recipients ps.isMember)
  rw [hregister, ← hnumber] at hwaits
  exact hwaits.foldl_depart (ps.missed x.sender recipients)

/-- **One round.** It begins, every place that is reached queues the update, works it off and
answers, and the wait gives the verdict on the departures and the answers. The sites differ by what
the update makes of the copies that were reached, and the sender can go on. -/
theorem Hosts.replicate (h : w.Hosts ps sites) (hships : Ships ps r recipients x)
    (hsends : ps.Sends x.sender recipients) (hnonempty : recipients ≠ [])
    {m : Member} (hnames : ps.names x.sender m) (hnext : 0 < (sites x.sender).keeper.next.toInt)
    (hcalm : ∀ j, j = x.sender ∨ j ∈ x.places → (sites j).inbox = [] ∧ (sites j).queue = [])
    (hdue : w.due = []) {key : Bytes} {payload : Payload} {a : Update}
    (ha : r.announcement w key recipients payload = some a)
    (hprocessor : x.update.processor = a.processor)
    (hframe : Frame.encode (.app a) (ps.config x.sender).version = .ok x.frame)
    (hsent : x.frame.length ≤ (ps.config x.sender).maxFrame) (hfits : x.Fits ps sites) :
    ∃ ticket keeper keeper' w₁ w',
      r.begin w recipients key payload
        = (.ok ticket, { r with producer := r.producer.reserve.2 }, w₁)
      ∧ w₁.round.Hosts ps
          (x.queued ps (begun ps sites x.sender recipients x.frame keeper) x.places)
      ∧ w₁.round.round.Hosts ps
          (x.answered ps (begun ps sites x.sender recipients x.frame keeper) x.places x.places)
      ∧ r.replicate w recipients key payload
        = ((verdict x.update.processor recipients ps.isMember
              (seen ps sites recipients x)).mapError .reply,
            { r with producer := r.producer.reserve.2 }, w')
      ∧ w'.due = [] ∧ ((sites x.sender).keeper.Idle → keeper'.Idle)
      ∧ w'.Hosts ps (replicated sites x keeper') := by
  have htravels := hships.travels hsends
  have hself : x.sender ∉ x.places := fun hj => htravels.ne hj rfl
  obtain ⟨ticket, keeper, w₁, hbegin, hhosts₁, hdue₁, hholds, hidle⟩ :=
    h.ship hships hsends hnonempty hnames hnext hdue ha hprocessor hframe hsent
  have hsender : begun ps sites x.sender recipients x.frame keeper x.sender
      = { sites x.sender with keeper } := begun_sender (hships.places ▸ hself)
  -- What answers is the copy of before the round, and who awaits the answers is the new keeper.
  have hstate : ∀ j ∈ x.places,
      (begun ps sites x.sender recipients x.frame keeper j).state = (sites j).state :=
    fun j _ => begun_state sites recipients x.frame keeper j
  obtain ⟨h₁, h₂, h₃, hdue₃⟩ := hhosts₁.settle (hfits.congr hstate) htravels
    (fun j hj => by
      obtain ⟨hinbox, hqueue⟩ := hcalm j (.inr hj)
      rw [begun_of_reached (hships.places ▸ hj)]
      exact ⟨by rw [Site.arrive, hinbox]; rfl, hqueue⟩)
    (by rw [hsender]; exact (hcalm x.sender (.inl rfl)).1) hdue₁
  have hkeeper : (x.settled ps (begun ps sites x.sender recipients x.frame keeper)
      x.sender).keeper = keeper.takeIn (x.answers ps sites x.places) := by
    rw [Shipment.settled, if_neg hself, Function.update_self, hsender,
      Shipment.answers_congr hstate]
  have hholds₃ : (x.settled ps (begun ps sites x.sender recipients x.frame keeper)
      x.sender).keeper.Holds ticket x.update.processor
        ((Processor.await recipients ps.isMember).run (seen ps sites recipients x)) := by
    rw [hkeeper, seen, Processor.run_append]
    exact hholds.takeIn _ x.answers_processor
  obtain ⟨w', hfinish, hhosts', hdue'⟩ := h₃.finish hsends.here hholds₃
  have hwait := (Processor.follows_run_await recipients ps.isMember
    (seen ps sites recipients x)).wait x.update.processor
  rw [hkeeper] at hhosts'
  refine ⟨ticket, keeper, (keeper.takeIn (x.answers ps sites x.places)).drop ticket, w₁, w',
    hbegin, h₁, h₂, ?_, hdue'.trans hdue₃,
    fun hquiet => ((hidle hquiet).takeIn _ x.answers_processor).drop,
    hhosts'.of_forall_eq (hships.replicated_eq hself (fun j hj => hcalm j (.inr hj)) keeper _)⟩
  rw [hships.sender] at hfinish
  rw [Region.replicate, hbegin]
  simp only [hfinish, hwait]

end Fabric

end DataGrid
