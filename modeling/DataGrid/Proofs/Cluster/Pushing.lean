import DataGrid.Proofs.Cluster.Launching
import DataGrid.Proofs.Cluster.Reporting
import DataGrid.Proofs.Region.Mending

/-!
# Pushing — one round among live members, whatever comes of it

Between the writes of a cluster nothing is in flight and nobody waits (`Fabric.Rests`). A live
member that pushes a payload to others then leaves the cluster so again, whatever comes of the
round (`Fabric.Rests.replicate`). The update may be too long to be sent. Otherwise every recipient
lets its copy make of it what it makes of it, and if the round succeeds, every recipient was heard
and nobody failed, so the outcome names those who could not take a delta.
-/

namespace DataGrid

open Network (localMember)

/-! ## Who was heard -/

namespace Fabric

section Heard

variable {ps : Parties} {sites : Nat → Site} {recipients : List Member} {x : Shipment}

/-- A place is told of by what it says alone. -/
theorem voice_of_mem_seen (hsends : ps.Sends x.sender recipients)
    (hplaces : x.places = ps.reached x.sender recipients) {j : Nat} (hj : j ∈ x.places)
    {e : ProcessorEvent} (he : e ∈ seen ps sites recipients x)
    (habout : e.about? = some (ps.member j)) :
    ∃ r, x.voice ps sites j = some r ∧ e = .reply (ps.member j) r := by
  have hforth : ∀ k ∈ x.places, ps.target x.sender (ps.member k) = some k := fun k hk =>
    (hsends.mem_reached.1 (hplaces ▸ hk)).2.forth
  rcases List.mem_append.1 he with he | he
  · -- Nobody who was reached is taken to have left.
    obtain ⟨m, hm, rfl⟩ := List.mem_map.1 he
    obtain rfl : m = ps.member j := Option.some.inj habout
    have hcut := (List.mem_filter.1 hm).2
    rw [hforth j hj] at hcut
    cases hcut
  · obtain ⟨answer, hanswer, rfl⟩ := List.mem_map.1 he
    obtain ⟨k, hk, hvoice⟩ := List.mem_filterMap.1 hanswer
    obtain ⟨r, hr, rfl⟩ := Option.map_eq_some_iff.1 hvoice
    have hmember : ps.member k = ps.member j := Option.some.inj habout
    have hkj := hforth k hk
    rw [hmember, hforth j hj] at hkj
    obtain rfl := Option.some.inj hkj
    exact ⟨r, hr, rfl⟩

/-- **If a round among members succeeds, everybody who was reached has been heard**, and nobody has
failed. -/
theorem heard_of_verdict_ok (hsends : ps.Sends x.sender recipients)
    (hplaces : x.places = ps.reached x.sender recipients)
    (hmembers : ∀ m ∈ recipients, ps.isMember m) {id : Int32} {o : Outcome}
    (hok : verdict id recipients ps.isMember (seen ps sites recipients x) = .ok o) :
    x.Heard ps sites ∧ ∀ j ∈ x.places, (sites j).state.failure? x.update = none := by
  have hvoice : ∀ j ∈ x.places,
      x.voice ps sites j = some ((sites j).state.answer (ps.member j) x.update)
        ∧ (sites j).state.failure? x.update = none := by
    intro j hj
    have hm := (hsends.mem_reached.1 (hplaces ▸ hj)).1
    obtain ⟨e, hfate, hfailed⟩ := fate_of_verdict_ok hok hm
    rw [fate, if_pos hm, if_pos (hmembers _ hm)] at hfate
    have habout := List.find?_some
      (p := fun e : ProcessorEvent => decide (e.about? = some (ps.member j))) hfate
    obtain ⟨r, hr, rfl⟩ := voice_of_mem_seen hsends hplaces hj (List.mem_of_find?_eq_some hfate)
      (of_decide_eq_true habout)
    rcases (RegionState.voice_eq_some hr).2 with rfl | rfl
    · refine ⟨hr, ?_⟩
      rw [RegionState.failed_answer, Option.map_eq_none_iff] at hfailed
      exact hfailed
    · -- An excuse is a failure.
      cases hfailed
  exact ⟨fun j hj => (hvoice j hj).1, fun j hj => (hvoice j hj).2⟩

end Heard

end Fabric

/-! ## A fabric at rest -/

/-- Whether a place is calm: nothing has arrived, is queued or awaited. -/
structure Site.Calm (s : Site) : Prop where
  inbox : s.inbox = []
  queue : s.queue = []
  idle : s.keeper.Idle

/-- **Whether a fabric is at rest**: its live places are calm, and nothing is due. -/
structure Fabric.Rests (w : RegionFabric) (config : Config) (live : Nat → Prop)
    (sites : Nat → Site) : Prop where
  shows : w.Shows config live sites
  due : w.due = []
  calm : ∀ j, live j → (sites j).Calm

/-- Places stay calm if one of them becomes another calm one. -/
theorem calm_update {live : Nat → Prop} {sites : Nat → Site} (h : ∀ j, live j → (sites j).Calm)
    {s : Site} (hs : s.Calm) (i : Nat) : ∀ j, live j → (Function.update sites i s j).Calm :=
  (Function.forall_update_iff sites fun j s => live j → s.Calm).2 ⟨fun _ => hs, fun j _ => h j⟩

/-- What becomes of sites when an update is sent to places and a round gives a result. -/
structure Told (u : Update) (js : List Nat) (sites sites' : Nat → Site)
    (result : Except RegionError Outcome) : Prop where
  reached : ∀ j ∈ js, (sites' j).state = ((sites j).state.applyUpdate u).2
  kept : ∀ j, j ∉ js → (sites' j).state = (sites j).state
  /-- Where the round succeeds, nobody has failed. -/
  taken : ∀ o, result = .ok o → ∀ j ∈ js, (sites j).state.failure? u = none
  /-- And the outcome names those who could not take a delta. -/
  stale : ∀ o, result = .ok o → ∃ stale : List Nat, o.needsFullValue = stale.map localMember
    ∧ stale.Nodup ∧ ∀ j, j ∈ stale ↔ j ∈ js ∧ ((sites j).state.lacks? u).isSome

/-- Whether an update is what a member pushes next. -/
structure Update.IsNext (u : Update) (r : Region) (key : Bytes) (payload : Payload) : Prop where
  short : u.payload.octets.length < 2147483648
  key : u.key = key
  payload : u.payload = payload
  thread : u.event.thread = r.producer.thread
  sequence : u.event.sequence = r.producer.next

namespace Fabric

variable {w : RegionFabric} {config : Config} {live : Nat → Prop} {sites : Nat → Site}
variable {r : Region} {js : List Nat} {x : Shipment} {id : Int32} {o : Outcome}

/-- The outcome of a round among live places names those who could not take a delta. -/
theorem Shows.exists_stale (h : w.Shows config live sites)
    (hlive : ∀ j ∈ js, live j ∧ j ≠ x.sender)
    (hsends : (w.parties config live).Sends x.sender (js.map localMember))
    (hplaces : x.places = (w.parties config live).reached x.sender (js.map localMember))
    (hok : verdict id (js.map localMember) w.membership.contains
      (seen (w.parties config live) sites (js.map localMember) x) = .ok o) :
    (∀ j ∈ js, (sites j).state.failure? x.update = none)
      ∧ ∃ stale : List Nat, o.needsFullValue = stale.map localMember ∧ stale.Nodup
        ∧ ∀ j, j ∈ stale ↔ j ∈ js ∧ ((sites j).state.lacks? x.update).isSome := by
  have hreached : x.places = js := hplaces.trans (h.reached_eq hsends.here hlive)
  have hmembers : ∀ m ∈ js.map localMember, w.membership.contains m := by
    intro m hm
    obtain ⟨j, hj, rfl⟩ := List.mem_map.1 hm
    exact (h.membership _).2 ⟨j, (hlive j hj).1, rfl⟩
  obtain ⟨hheard, hfree⟩ := heard_of_verdict_ok hsends hplaces hmembers hok
  rw [hreached] at hfree
  refine ⟨hfree, ?_⟩
  -- The copy that is awaited of a recipient is that of its place.
  have hcopy : ∀ j ∈ js, awaitedCopy (js.map localMember) w.membership.contains
      (fun m => ((w.parties config live).target x.sender m).map fun j => (sites j).state)
      (localMember j) = some (sites j).state := by
    intro j hj
    have hm : localMember j ∈ js.map localMember := List.mem_map_of_mem hj
    have htarget : (w.parties config live).target x.sender (localMember j) = some j :=
      h.target?_eq hsends.here (hlive j hj).1 (hlive j hj).2
    rw [awaitedCopy, if_pos ⟨hm, hmembers _ hm⟩, htarget]
    rfl
  have hplace : ∀ m s, awaitedCopy (js.map localMember) w.membership.contains
      (fun m => ((w.parties config live).target x.sender m).map fun j => (sites j).state) m
        = some s → ∃ j ∈ js, localMember j = m ∧ s = (sites j).state := by
    intro m s hs
    obtain ⟨j, hj, rfl⟩ := List.mem_map.1 (mem_of_awaitedCopy hs)
    exact ⟨j, hj, rfl, Option.some.inj (hs.symm.trans (hcopy j hj))⟩
  rw [seen_eq hsends hplaces hheard] at hok
  obtain ⟨o', ho', hreports⟩ := reports_of_no_failure id fun m s hs why hwhy => by
    obtain ⟨j, hj, rfl, rfl⟩ := hplace m s hs
    exact Option.some_ne_none why ((RegionState.failure?_eq_some.2 hwhy).symm.trans (hfree j hj))
  obtain rfl : o' = o := Except.ok.inj (ho'.symm.trans hok)
  have hmem : ∀ m, m ∈ o'.needsFullValue ↔ ∃ j, (j ∈ js ∧ ((sites j).state.lacks? x.update).isSome)
      ∧ localMember j = m := by
    intro m
    rw [hreports.needsFullValue, hreports.ignored]
    constructor
    · rintro ⟨s, hs, why, hwhy⟩
      obtain ⟨j, hj, rfl, rfl⟩ := hplace m s hs
      exact ⟨j, ⟨hj, Option.isSome_of_eq_some (RegionState.lacks?_eq_some.2 hwhy)⟩, rfl⟩
    · rintro ⟨j, ⟨hj, hlacks⟩, rfl⟩
      obtain ⟨why, hwhy⟩ := Option.isSome_iff_exists.1 hlacks
      exact ⟨_, hcopy j hj, why, RegionState.lacks?_eq_some.1 hwhy⟩
  obtain ⟨stale, hstale, hall⟩ := exists_map_eq (f := localMember)
    (P := fun j => j ∈ js ∧ ((sites j).state.lacks? x.update).isSome) o'.needsFullValue
    fun m hm => (hmem m).1 hm
  refine ⟨stale, hstale, ?_, fun j => ⟨hall j, fun hj => ?_⟩⟩
  · have hascending := hreports.ascending
    rw [hstale, List.pairwise_map] at hascending
    refine hascending.imp fun {a b} hlt heq => ?_
    rw [heq, Std.ReflOrd.compare_self] at hlt
    cases hlt
  · have hm := (hmem (localMember j)).2 ⟨j, hj, rfl⟩
    rw [hstale] at hm
    obtain ⟨k, hk, heq⟩ := List.mem_map.1 hm
    exact h.distinct k j (hlive k (hall k hk).1).1 (hlive j hj.1).1 heq ▸ hk

theorem mapError_eq_ok {ε ε' α : Type} {x : Except ε α} {f : ε → ε'} {a : α} :
    x.mapError f = .ok a ↔ x = .ok a := by
  cases x <;> simp [Except.mapError]

/-- What a round among live places comes to, once everybody could be told. -/
theorem Shows.told (h : w.Shows config live sites) (hlive : ∀ j ∈ js, live j ∧ j ≠ x.sender)
    (hsends : (w.parties config live).Sends x.sender (js.map localMember))
    (hplaces : x.places = (w.parties config live).reached x.sender (js.map localMember))
    (id : Int32) (keeper : Keeper) :
    Told x.update js sites (replicated sites x keeper) ((verdict id (js.map localMember)
      w.membership.contains (seen (w.parties config live) sites (js.map localMember) x)).mapError
        .reply) := by
  have hmem : ∀ j, j ∈ x.places ↔ j ∈ js := fun j => by
    rw [hplaces, h.reached_eq hsends.here hlive]
  exact {
    reached := fun j hj => by rw [replicated, if_pos ((hmem j).2 hj)]
    kept := fun j hj => by
      rw [replicated, if_neg fun hj' => hj ((hmem j).1 hj'), state_setKeeper]
    taken := fun _ ho => (h.exists_stale hlive hsends hplaces (mapError_eq_ok.1 ho)).1
    stale := fun _ ho => (h.exists_stale hlive hsends hplaces (mapError_eq_ok.1 ho)).2 }

/-- **A round among live places leaves them at rest**, whatever comes of it. Either the update was
too long to be sent, or every recipient was told. -/
theorem Rests.replicate (h : w.Rests config live sites) (hmax : config.maxFrame < 2147483648)
    (hi : live r.place) (hnonempty : js ≠ []) (hjs : js.Nodup)
    (hlive : ∀ j ∈ js, live j ∧ j ≠ r.place) (key : Bytes) (payload : Payload) :
    ∃ result w' sites', r.replicate w (js.map localMember) key payload
        = (result, { r with producer := r.producer.reserve.2 }, w')
      ∧ w'.Rests config live sites' ∧ (∀ j, ¬live j → w'.node? j = w.node? j)
      ∧ (((∃ e, result = .error e) ∧ ∀ j, (sites' j).state = (sites j).state)
        ∨ ∃ u : Update, u.IsNext r key payload ∧ Told u js sites sites' result) := by
  have hidle := (h.calm _ hi).idle
  have hsends := h.shows.sends hi hjs hlive
  have hmapped : js.map localMember ≠ [] := fun hnil => hnonempty (List.map_eq_nil_iff.1 hnil)
  have hnames : (w.parties config live).names r.place (localMember r.place) := rfl
  obtain ⟨a, frame, ha, hframe, hprocessor, hthread, hsequence, hkey, hpayload, -, hlong,
    hdecode⟩ :=
    h.shows.hosts.exists_frame (r := r) hi hnames hidle.next (js.map localMember) key payload
  by_cases hfits : frame.length ≤ config.maxFrame
  · have hplaces := h.shows.reached_eq hi hlive
    obtain ⟨membership, hread⟩ := hdecode (by omega)
    have hmem : ∀ j, j ∈ (w.parties config live).reached r.place (js.map localMember) ↔ j ∈ js :=
      fun j => by rw [hplaces]
    let x : Shipment := {
      sender := r.place
      places := (w.parties config live).reached r.place (js.map localMember)
      frame
      update := { a with event := { a.event with membership } } }
    have hnonzero : x.update.processor ≠ 0 := by
      change a.processor ≠ 0
      rw [hprocessor]
      exact Keeper.ne_zero_of_pos (Keeper.freshId_pos hidle.next).1
    have hlimits : x.Fits (w.parties config live) sites := by
      refine ⟨hread, hnonzero, fun _ _ => hfits, fun j _ reply hreply => ?_⟩
      have hlength := of_decide_eq_true (RegionState.voice_eq_some hreply).1
      exact ⟨hlength, Nat.lt_of_le_of_lt hlength hmax⟩
    obtain ⟨ticket, -, keeper, -, w', -, -, -, hreplicate, hdue, hkeeper, hhosts⟩ :=
      h.shows.hosts.replicate (x := x) ⟨rfl, rfl⟩ hsends hmapped hnames hidle.next
        (fun j hj => by
          have hj' : live j := hj.elim (fun heq => heq ▸ hi) fun hj =>
            (hlive j ((hmem j).1 hj)).1
          exact ⟨(h.calm j hj').inbox, (h.calm j hj').queue⟩)
        h.due ha rfl hframe hfits hlimits
    have hshort : x.update.payload.octets.length < 2147483648 := by
      change a.payload.octets.length < _
      rw [hpayload]
      omega
    refine ⟨_, w', _, hreplicate, ⟨hhosts.shows h.shows, hdue, fun j hj => ?_⟩, hhosts.away,
      .inr ⟨x.update, ⟨hshort, hkey, hpayload, hthread, hsequence⟩,
        h.shows.told hlive hsends rfl x.update.processor keeper⟩⟩
    -- Only the writer's keeper is another one, and it is idle again.
    have hcalm := h.calm j hj
    unfold replicated
    split
    · exact ⟨hcalm.inbox, hcalm.queue, hcalm.idle⟩
    · have hwriter : Site.Calm { sites r.place with keeper } :=
        ⟨(h.calm _ hi).inbox, (h.calm _ hi).queue, hkeeper hidle⟩
      exact calm_update h.calm hwriter r.place j hj
  · obtain ⟨keeper, w', hreplicate, hkeeper, hhosts, hdue⟩ := h.shows.hosts.replicate_long hi
      hmapped hnames hidle ha hframe (Nat.lt_of_not_le hfits)
    have hwriter : Site.Calm { sites r.place with keeper } :=
      ⟨(h.calm _ hi).inbox, (h.calm _ hi).queue, hkeeper⟩
    exact ⟨_, w', _, hreplicate, ⟨hhosts.shows h.shows, hdue.trans h.due,
      calm_update h.calm hwriter r.place⟩, hhosts.away,
      .inl ⟨⟨_, rfl⟩, state_setKeeper sites r.place keeper⟩⟩

end Fabric

end DataGrid
