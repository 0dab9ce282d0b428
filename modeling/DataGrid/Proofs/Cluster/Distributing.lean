import DataGrid.Proofs.Cluster.Pushing

/-!
# Distributing — the rounds of one write

A write is told of in one round, or in two: those who could not take its delta get the whole value
in a second one. Whatever comes of them, no other key is touched, and what the others know of the
writer's thread is lower than the number that its producer comes to next (`Pushed`). If the rounds
succeed, every peer has the entry that there is to be, and the writer has counted those who could
not take the delta (`Fabric.Rests.distribute`).
-/

namespace DataGrid

open Network (localMember)

/-! ## What rounds leave alone -/

/-- What is left when a producer has pushed a key in rounds, of which there were at most so many.
-/
structure Pushed (rounds : Nat) (key : Bytes) (p p' : Producer) (sites sites' : Nat → Site) :
    Prop where
  thread : p'.thread = p.thread
  room : ∀ left, p.HasRoom (left + rounds) → p'.HasRoom left
  tidy : ∀ j, (sites j).state.entries.Tidy → (sites' j).state.entries.Tidy
  entries : ∀ j k, k ≠ key → (sites' j).state.entries.get? k = (sites j).state.entries.get? k
  others : ∀ j thread sequence, p.thread ≠ thread →
    (sites j).state.tracker.Below thread sequence → (sites' j).state.tracker.Below thread sequence
  /-- Where events are left for the producer, the next one is unseen. -/
  unseen : ∀ j left, 0 < left → p.HasRoom (left + rounds) →
    (sites j).state.tracker.Below p.thread p.next → (sites' j).state.tracker.Below p.thread p'.next

namespace Pushed

variable {m n : Nat} {key : Bytes} {p p' p'' : Producer} {sites sites' sites'' : Nat → Site}

theorem refl (key : Bytes) (p : Producer) (sites : Nat → Site) : Pushed 0 key p p sites sites where
  thread := rfl
  room _ h := h
  tidy _ h := h
  entries _ _ _ := rfl
  others _ _ _ _ h := h
  unseen _ _ _ _ h := h

theorem mono (h : Pushed n key p p' sites sites') (hle : n ≤ m) :
    Pushed m key p p' sites sites' where
  thread := h.thread
  room left hroom := h.room left (hroom.mono (by omega))
  tidy := h.tidy
  entries := h.entries
  others := h.others
  unseen j left hleft hroom := h.unseen j left hleft (hroom.mono (by omega))

theorem trans (h : Pushed n key p p' sites sites') (h' : Pushed m key p' p'' sites' sites'') :
    Pushed (m + n) key p p'' sites sites'' where
  thread := h'.thread.trans h.thread
  room left hroom := h'.room left (h.room (left + m) (by rwa [Nat.add_assoc]))
  tidy j hj := h'.tidy j (h.tidy j hj)
  entries j k hk := (h'.entries j k hk).trans (h.entries j k hk)
  others j thread sequence hne hbelow :=
    h'.others j thread sequence (h.thread ▸ hne) (h.others j thread sequence hne hbelow)
  unseen j left hleft hroom hbelow := by
    have hroom' : p.HasRoom (left + m + n) := by rwa [Nat.add_assoc]
    have hfirst := h.unseen j (left + m) (by omega) hroom' hbelow
    have hsecond := h'.unseen j left hleft (h.room (left + m) hroom') (h.thread ▸ hfirst)
    exact h.thread ▸ hsecond

end Pushed

/-- **One round spends one number.** Whether it was told of or not, the next number is unseen. -/
theorem pushed_of_round {r : Region} {key : Bytes} {payload : Payload} {js : List Nat}
    {sites sites' : Nat → Site} {result : Except RegionError Outcome}
    (h : ((∃ e, result = .error e) ∧ ∀ j, (sites' j).state = (sites j).state)
      ∨ ∃ u : Update, u.IsNext r key payload ∧ Told u js sites sites' result) :
    Pushed 1 key r.producer r.producer.reserve.2 sites sites' := by
  -- A copy is as it was, or it is what the update made of it.
  have hcases : ∀ j, (sites' j).state = (sites j).state
      ∨ ∃ u : Update, u.IsNext r key payload
        ∧ (sites' j).state = ((sites j).state.applyUpdate u).2 := by
    intro j
    rcases h with ⟨-, hkept⟩ | ⟨u, hnext, htold⟩
    · exact .inl (hkept j)
    · by_cases hj : j ∈ js
      · exact .inr ⟨u, hnext, htold.reached j hj⟩
      · exact .inl (htold.kept j hj)
  refine ⟨rfl, fun left hroom => hroom.reserve, fun j hj => ?_, fun j k hk => ?_,
    fun j thread sequence hne hbelow => ?_, fun j left hleft hroom hbelow => ?_⟩
  · rcases hcases j with heq | ⟨u, -, heq⟩
    · rw [heq]
      exact hj
    · rw [heq]
      exact RegionState.tidy_applyUpdate hj u
  · rcases hcases j with heq | ⟨u, hnext, heq⟩
    · rw [heq]
    · rw [heq]
      exact RegionState.get?_applyUpdate_of_ne _ (hnext.key.symm ▸ hk)
  · rcases hcases j with heq | ⟨u, hnext, heq⟩
    · rw [heq]
      exact hbelow
    · rw [heq, RegionState.tracker_applyUpdate]
      exact hbelow.record_other (hnext.thread.symm ▸ hne)
  · have hlt := hroom.lt_reserve hleft
    rcases hcases j with heq | ⟨u, hnext, heq⟩
    · rw [heq]
      exact hbelow.mono hlt
    · rw [heq, RegionState.tracker_applyUpdate, ← hnext.thread]
      rw [← hnext.thread, ← hnext.sequence] at hbelow
      exact hbelow.record_self (hnext.sequence.symm ▸ hlt)

/-! ## One round or two -/

/-- What a payload comes to at peers, if it is told of: every one has the entry that there is to
be, and those who could not take a delta are counted. What anybody was told of is short. -/
structure Mends (key : Bytes) (payload : Payload) (own : Option Entity) (r r' : Region)
    (js : List Nat) (sites sites' : Nat → Site) : Prop where
  entry : ∀ j ∈ js, (sites' j).state.entries.get? key
    = payload.mended ((sites j).state.entries.get? key) own
  resends : r'.fullResends = r.fullResends
    + js.countP fun j => payload.rejectedBy ((sites j).state.entries.get? key)
  short : js ≠ [] → payload.octets.length < 2147483648

/-- What a payload promises of the writer's entry: it tells of it, if it is no delta. -/
structure Payload.TellsOf (p : Payload) (own : Option Entity) : Prop where
  whole : p.isDelta = false → p = .whole own
  tidy : ∀ e, own = some e → e.isEmpty = false ∧ e.staged = none

theorem Region.distribute_of_peers {r : Region} {w : RegionFabric} (h : r.peers w ≠ [])
    (key : Bytes) (payload : Payload) :
    r.distribute w key payload = match r.replicate w (r.peers w) key payload with
      | (.error e, r, w) => (.error e, r, w)
      | (.ok outcome, r, w) =>
        if outcome.needsFullValue.isEmpty || !payload.isDelta then (.ok (), r, w)
        else
          let r := { r with fullResends := r.fullResends + outcome.needsFullValue.length }
          let (result, r, w) := r.replicate w outcome.needsFullValue key (r.wholeValue w key)
          (result.map fun _ => (), r, w) := by
  unfold Region.distribute
  split
  · next hnil => exact absurd hnil h
  · rfl

/-- A write ships nothing and only changes the writer's copy, or it ships a payload that is
distributed. -/
theorem Region.write_cases (r : Region) (w : RegionFabric) (key : Bytes) (c : Command) :
    (∃ result entries, r.write w key c = (result, r, r.setEntries w entries)
        ∧ ((r.entries w).run key c).2 = entries
        ∧ ∀ answer payload entries', (r.entries w).run key c
          ≠ (.ok (answer, some payload), entries'))
      ∨ ∃ answer payload entries, (r.entries w).run key c = (.ok (answer, some payload), entries)
        ∧ ∀ result r' w', r.distribute (r.setEntries w entries) key payload = (result, r', w') →
          r.write w key c = (result.map fun () => answer, r', w') := by
  rcases hrun : (r.entries w).run key c with ⟨e | ⟨answer, _ | payload⟩, entries⟩
  · refine .inl ⟨.error (.command e), entries, ?_, rfl, fun _ _ _ hships => by cases hships⟩
    rw [Region.write, hrun]
  · refine .inl ⟨.ok answer, entries, ?_, rfl, fun _ _ _ hships => by cases hships⟩
    rw [Region.write, hrun]
  · refine .inr ⟨answer, payload, entries, rfl, fun result r' w' hdistribute => ?_⟩
    rw [Region.write, hrun]
    simp only [hdistribute]

section Told

variable {u : Update} {r : Region} {js : List Nat} {sites sites' : Nat → Site} {key : Bytes}
variable {payload : Payload} {own : Option Entity} {o : Outcome}

/-- What a round that succeeds makes of a copy to which the update is new. -/
theorem Told.mends (h : Told u js sites sites' (.ok o)) (hnext : u.IsNext r key payload)
    (htells : payload.TellsOf own) {j : Nat} (hj : j ∈ js)
    (hunseen : (sites j).state.tracker.Below r.producer.thread r.producer.next) :
    ((sites j).state.lacks? u).isSome = payload.rejectedBy ((sites j).state.entries.get? key)
      ∧ (sites' j).state.entries.get? key
        = if payload.rejectedBy ((sites j).state.entries.get? key) then
            (sites j).state.entries.get? key
          else payload.mended ((sites j).state.entries.get? key) own := by
  rw [← hnext.thread, ← hnext.sequence] at hunseen
  have hfree : ∀ why, ((sites j).state.applyUpdate u).1 ≠ .error why := fun why hwhy =>
    Option.some_ne_none why
      ((RegionState.failure?_eq_some.2 hwhy).symm.trans (h.taken o rfl j hj))
  have hmends := RegionState.applyUpdate_mends hunseen (hnext.payload.symm ▸ htells.whole)
    htells.tidy hnext.short hfree
  rwa [← h.reached j hj, hnext.key, hnext.payload] at hmends

/-- If nobody is stale, one round mends every copy. -/
theorem Told.mends_all (h : Told u js sites sites' (.ok o)) (hnext : u.IsNext r key payload)
    (htells : payload.TellsOf own)
    (hunseen : ∀ j ∈ js, (sites j).state.tracker.Below r.producer.thread r.producer.next)
    (hlast : o.needsFullValue = [] ∨ payload.isDelta = false) (p : Producer) :
    Mends key payload own r { r with producer := p } js sites sites' := by
  have htaken : ∀ j ∈ js, payload.rejectedBy ((sites j).state.entries.get? key) = false := by
    intro j hj
    rcases hlast with hnone | hwhole
    · obtain ⟨stale, hstale, -, hmem⟩ := h.stale o rfl
      obtain rfl : stale = [] := List.map_eq_nil_iff.1 (hstale.symm.trans hnone)
      rw [← (h.mends hnext htells hj (hunseen j hj)).1, Bool.eq_false_iff]
      exact fun hlacks => List.not_mem_nil ((hmem j).2 ⟨hj, hlacks⟩)
    · rw [htells.whole hwhole]
      exact Payload.rejectedBy_whole _ _
  refine ⟨fun j hj => ?_, ?_, fun _ => hnext.payload ▸ hnext.short⟩
  · rw [(h.mends hnext htells hj (hunseen j hj)).2, htaken j hj]
    rfl
  · rw [List.countP_eq_zero.2 fun j hj => Bool.eq_false_iff.1 (htaken j hj)]
    rfl

/-- If those who are stale get the whole value in a second round, the two mend every copy. -/
theorem Told.mends_stale {u' : Update} {r' : Region} {sites'' : Nat → Site} {o' : Outcome}
    {stale : List Nat} (h : Told u js sites sites' (.ok o)) (hnext : u.IsNext r key payload)
    (htells : payload.TellsOf own) (hjs : js.Nodup)
    (hunseen : ∀ j ∈ js, (sites j).state.tracker.Below r.producer.thread r.producer.next)
    (hnodup : stale.Nodup)
    (hstale : ∀ j, j ∈ stale ↔ j ∈ js ∧ ((sites j).state.lacks? u).isSome)
    (h' : Told u' stale sites' sites'' (.ok o')) (hnext' : u'.IsNext r' key (.whole own))
    (hunseen' : ∀ j ∈ stale,
      (sites' j).state.tracker.Below r'.producer.thread r'.producer.next) (p : Producer) :
    Mends key payload own r
      { r' with producer := p, fullResends := r.fullResends + stale.length } js sites sites'' := by
  have hwhole : (Payload.whole own).TellsOf own := ⟨fun _ => rfl, htells.tidy⟩
  have hmem : ∀ j, j ∈ stale
      ↔ j ∈ js ∧ payload.rejectedBy ((sites j).state.entries.get? key) = true := fun j => by
    rw [hstale]
    exact and_congr_right fun hj => by rw [(h.mends hnext htells hj (hunseen j hj)).1]
  refine ⟨fun j hj => ?_, ?_, fun _ => hnext.payload ▸ hnext.short⟩
  · by_cases hj' : j ∈ stale
    · have hrejected := ((hmem j).1 hj').2
      rw [(h'.mends hnext' hwhole hj' (hunseen' j hj')).2, Payload.rejectedBy_whole,
        Payload.mended_whole, Payload.mended_of_rejectedBy hrejected]
      rfl
    · have htaken : payload.rejectedBy ((sites j).state.entries.get? key) = false :=
        Bool.eq_false_iff.2 fun hrejected => hj' ((hmem j).2 ⟨hj, hrejected⟩)
      rw [h'.kept j hj', (h.mends hnext htells hj (hunseen j hj)).2, htaken]
      rfl
  · have hperm : stale.Perm
        (js.filter fun j => payload.rejectedBy ((sites j).state.entries.get? key)) :=
      (List.perm_ext_iff_of_nodup hnodup (hjs.filter _)).2 fun j => by
        rw [hmem, List.mem_filter]
    rw [List.countP_eq_length_filter, ← hperm.length_eq]

end Told

namespace Fabric

variable {w : RegionFabric} {config : Config} {live : Nat → Prop} {sites : Nat → Site}
variable {r : Region} {js : List Nat}

/-- What the writer of a fabric at rest owes to those who cannot take its delta. -/
theorem Shows.wholeValue_eq (h : w.Shows config live sites) (hi : live r.place) (key : Bytes) :
    r.wholeValue w key = .whole ((sites r.place).state.entries.get? key) := by
  rw [Region.wholeValue_eq, ← h.entries hi]
  rfl

/-- What a live member leaves of a fabric at rest when it has pushed a key, in so many rounds at
most. -/
structure Pushes (w w' : RegionFabric) (config : Config) (live : Nat → Prop) (rounds : Nat)
    (key : Bytes) (r r' : Region) (sites sites' : Nat → Site) : Prop where
  rests : w'.Rests config live sites'
  away : ∀ j, ¬live j → w'.node? j = w.node? j
  place : r'.place = r.place
  pushed : Pushed rounds key r.producer r'.producer sites sites'

section Pushes

variable {w' w'' : RegionFabric} {m n : Nat} {key : Bytes} {r' r'' : Region}
variable {sites' sites'' : Nat → Site}

theorem Rests.pushes (h : w.Rests config live sites) (n : Nat) (key : Bytes) (r : Region) :
    w.Pushes w config live n key r r sites sites :=
  ⟨h, fun _ _ => rfl, rfl, (Pushed.refl key r.producer sites).mono (Nat.zero_le n)⟩

theorem Pushes.mono (h : w.Pushes w' config live n key r r' sites sites') (hle : n ≤ m) :
    w.Pushes w' config live m key r r' sites sites' :=
  ⟨h.rests, h.away, h.place, h.pushed.mono hle⟩

theorem Pushes.trans (h : w.Pushes w' config live n key r r' sites sites')
    (h' : w'.Pushes w'' config live m key r' r'' sites' sites'') :
    w.Pushes w'' config live (m + n) key r r'' sites sites'' where
  rests := h'.rests
  away j hj := (h'.away j hj).trans (h.away j hj)
  place := h'.place.trans h.place
  pushed := h.pushed.trans h'.pushed

/-- It does not matter what a writer has counted. -/
theorem Pushes.count (h : w.Pushes w' config live n key r r' sites sites') (fullResends : Nat) :
    w.Pushes w' config live n key r { r' with fullResends } sites sites' :=
  ⟨h.rests, h.away, h.place, h.pushed⟩

end Pushes

/-- **A payload is pushed to live places in one round.** Whatever comes of it, one number is spent.
If the round succeeds, everybody was told. -/
theorem Rests.push (h : w.Rests config live sites) (hmax : config.maxFrame < 2147483648)
    (hi : live r.place) (hnonempty : js ≠ []) (hjs : js.Nodup)
    (hlive : ∀ j ∈ js, live j ∧ j ≠ r.place) (key : Bytes) (payload : Payload) :
    ∃ result w' sites', r.replicate w (js.map localMember) key payload
        = (result, { r with producer := r.producer.reserve.2 }, w')
      ∧ w.Pushes w' config live 1 key r { r with producer := r.producer.reserve.2 } sites sites'
      ∧ (sites' r.place).state = (sites r.place).state
      ∧ ∀ o, result = .ok o → ∃ u : Update, u.IsNext r key payload
        ∧ Told u js sites sites' (.ok o) := by
  obtain ⟨result, w', sites', hround, hrests, haway, hcase⟩ :=
    h.replicate hmax hi hnonempty hjs hlive key payload
  refine ⟨result, w', sites', hround, ⟨hrests, haway, rfl, pushed_of_round hcase⟩, ?_, ?_⟩
  · rcases hcase with ⟨-, hkept⟩ | ⟨u, -, htold⟩
    · exact hkept r.place
    · exact htold.kept r.place fun hj => (hlive _ hj).2 rfl
  · rintro o rfl
    rcases hcase with ⟨⟨e, he⟩, -⟩ | htold
    · cases he
    · exact htold

/-- **A payload is distributed among live places.** Whatever comes of it, two numbers are spent at
most. If it succeeds, every peer has the entry that there is to be. -/
theorem Rests.distribute (h : w.Rests config live sites) (hmax : config.maxFrame < 2147483648)
    (hi : live r.place) (hpeers : r.peers w = js.map localMember) (hjs : js.Nodup)
    (hmem : ∀ j, j ∈ js ↔ live j ∧ j ≠ r.place) (key : Bytes) (payload : Payload) :
    ∃ result r' w' sites', r.distribute w key payload = (result, r', w')
      ∧ w.Pushes w' config live 2 key r r' sites sites'
      ∧ (sites' r.place).state = (sites r.place).state
      ∧ (result = .ok () → r.producer.HasRoom 2 →
        payload.TellsOf ((sites r.place).state.entries.get? key) →
        (∀ j ∈ js, (sites j).state.tracker.Below r.producer.thread r.producer.next) →
        Mends key payload ((sites r.place).state.entries.get? key) r r' js sites sites') := by
  by_cases hempty : js = []
  · -- There is nobody to tell.
    subst hempty
    refine ⟨.ok (), r, w, sites, ?_, h.pushes 2 key r, rfl,
      fun _ _ _ _ => ⟨fun j hj => absurd hj List.not_mem_nil, rfl, fun hne => absurd rfl hne⟩⟩
    rw [Region.distribute, hpeers]
    rfl
  obtain ⟨result, w₁, sites₁, hround, hpushes, hstate, htold⟩ :=
    h.push hmax hi hempty hjs (fun j hj => (hmem j).1 hj) key payload
  have hdistribute := Region.distribute_of_peers (r := r) (w := w)
    (by rw [hpeers]; exact fun hnil => hempty (List.map_eq_nil_iff.1 hnil)) key payload
  rw [hpeers, hround] at hdistribute
  rcases result with e | o
  · exact ⟨.error e, _, w₁, sites₁, hdistribute, hpushes.mono (by omega), hstate, nofun⟩
  obtain ⟨u, hnext, htold⟩ := htold o rfl
  dsimp only at hdistribute
  split at hdistribute
  · next hlast =>
    -- Nobody is stale, or everybody was sent a whole value already.
    rw [Bool.or_eq_true, List.isEmpty_iff, Bool.not_eq_true'] at hlast
    exact ⟨.ok (), _, w₁, sites₁, hdistribute, hpushes.mono (by omega), hstate,
      fun _ _ htells hunseen => htold.mends_all hnext htells hunseen hlast _⟩
  · next hlast =>
    rw [Bool.or_eq_true, List.isEmpty_iff, not_or] at hlast
    obtain ⟨stale, hnames, hnodup, hstale⟩ := htold.stale o rfl
    have hnonempty : stale ≠ [] := fun hnil => hlast.1 (by rw [hnames, hnil]; rfl)
    -- The second round is of the same writer, whose entry is what it was.
    replace hpushes := hpushes.count (r.fullResends + o.needsFullValue.length)
    generalize hr₁ : ({ r with
        producer := r.producer.reserve.2
        fullResends := r.fullResends + o.needsFullValue.length } : Region) = r₁
      at hdistribute hpushes
    have hresends : r₁.fullResends = r.fullResends + stale.length := by
      rw [← hr₁, hnames, List.length_map]
    have hi₁ : live r₁.place := hpushes.place ▸ hi
    rw [hpushes.rests.shows.wholeValue_eq hi₁, hpushes.place, hstate, hnames] at hdistribute
    obtain ⟨result', w₂, sites₂, hround', hpushes', hstate', htold'⟩ :=
      hpushes.rests.push hmax hi₁ hnonempty hnodup
        (fun j hj => by rw [hpushes.place]; exact (hmem j).1 ((hstale j).1 hj).1) key
        (.whole ((sites r.place).state.entries.get? key))
    rw [hround'] at hdistribute
    rw [hpushes.place, hstate] at hstate'
    refine ⟨result'.map fun _ => (), _, w₂, sites₂, hdistribute, hpushes.trans hpushes', hstate',
      fun hok hroom htells hunseen => ?_⟩
    rcases result' with e | o'
    · cases hok
    obtain ⟨u', hnext', htold'⟩ := htold' o' rfl
    have hunseen' : ∀ j ∈ stale,
        (sites₁ j).state.tracker.Below r₁.producer.thread r₁.producer.next := fun j hj => by
      rw [hpushes.pushed.thread]
      exact hpushes.pushed.unseen j 1 Nat.one_pos hroom (hunseen j ((hstale j).1 hj).1)
    have hmends := htold.mends_stale hnext htells hjs hunseen hnodup hstale htold' hnext' hunseen'
      r₁.producer.reserve.2
    rw [← hresends] at hmends
    exact hmends

/-! ## A write -/

theorem node?_modify_of_ne (w : RegionFabric) {i j : Nat}
    (f : Node Update RegionState → Node Update RegionState) (h : j ≠ i) :
    (w.modify i f).node? j = w.node? j := by
  unfold modify
  split
  · rw [node?_setNode, if_neg h]
  · rfl

/-- The entries of a live place are replaced. -/
theorem Rests.setEntries (h : w.Rests config live sites) (hi : live r.place) (entries : Entries) :
    ∃ w', r.setEntries w entries = w' ∧ (∀ j, ¬live j → w'.node? j = w.node? j)
      ∧ w'.Rests config live (Function.update sites r.place
          { sites r.place with state := { (sites r.place).state with entries } }) := by
  obtain ⟨w', hw', hshow, hdue, -⟩ := h.shows.setEntries hi entries
  have hwriter : Site.Calm { sites r.place with
      state := { (sites r.place).state with entries } } :=
    ⟨(h.calm _ hi).inbox, (h.calm _ hi).queue, (h.calm _ hi).idle⟩
  refine ⟨w', hw', fun j hj => ?_, hshow, hdue.trans h.due, calm_update h.calm hwriter r.place⟩
  rw [← hw', Region.setEntries, node?_modify_of_ne]
  rintro rfl
  exact hj hi

/-- What a command does to the writer's copy spends no number. -/
theorem pushed_of_run {sites : Nat → Site} {i : Nat} {key : Bytes} {entries : Entries}
    (p : Producer) (htidy : entries.Tidy)
    (hsame : ∀ k, k ≠ key → entries.get? k = (sites i).state.entries.get? k) :
    Pushed 0 key p p sites (Function.update sites i
      { sites i with state := { (sites i).state with entries } }) := by
  have hcases := Function.forall_update_iff sites (a := i)
    (b := { sites i with state := { (sites i).state with entries } })
  exact {
    thread := rfl
    room := fun _ h => h
    tidy := (hcases fun j s => (sites j).state.entries.Tidy → s.state.entries.Tidy).2
      ⟨fun _ => htidy, fun _ _ h => h⟩
    entries := (hcases fun j s => ∀ k, k ≠ key →
      s.state.entries.get? k = (sites j).state.entries.get? k).2 ⟨hsame, fun _ _ _ _ => rfl⟩
    others := (hcases fun j s => ∀ thread sequence, p.thread ≠ thread →
      (sites j).state.tracker.Below thread sequence → s.state.tracker.Below thread sequence).2
        ⟨fun _ _ _ h => h, fun _ _ _ _ _ h => h⟩
    unseen := (hcases fun j s => ∀ left, 0 < left → p.HasRoom (left + 0) →
      (sites j).state.tracker.Below p.thread p.next → s.state.tracker.Below p.thread p.next).2
        ⟨fun _ _ _ h => h, fun _ _ _ _ _ h => h⟩ }

/-- **A live member of a fabric at rest writes.** Whatever comes of it, the fabric is at rest
again, at most two numbers are spent, no other key is touched, and the writer has what the command
left. Nobody is told of a command without a payload. If the write ships a payload and succeeds,
every peer has the entry that there is to be. -/
theorem Rests.write (h : w.Rests config live sites) (hmax : config.maxFrame < 2147483648)
    (hi : live r.place) (htidy : (sites r.place).state.entries.Tidy) (key : Bytes) (c : Command) :
    ∃ result r' w' sites', r.write w key c = (result, r', w')
      ∧ w.Pushes w' config live 2 key r r' sites sites'
      ∧ (sites' r.place).state.entries = ((r.entries w).run key c).2
      ∧ ((∀ answer payload entries,
          (r.entries w).run key c ≠ (.ok (answer, some payload), entries)) →
        ∀ j, j ≠ r.place → sites' j = sites j)
      ∧ ∃ js : List Nat, js.Nodup ∧ (∀ j, j ∈ js ↔ live j ∧ j ≠ r.place)
        ∧ ∀ answer answer' payload entries,
          (r.entries w).run key c = (.ok (answer, some payload), entries) →
          result = .ok answer' → r.producer.HasRoom 2 →
          (∀ j ∈ js, (sites j).state.tracker.Below r.producer.thread r.producer.next) →
          Mends key payload (entries.get? key) r r' js sites sites' := by
  obtain ⟨entries, hentries, htidy', hsame, -⟩ := Entries.run_replicates htidy key c
  rw [← h.shows.entries hi] at hentries
  obtain ⟨w₁, hw₁, haway, hrests⟩ := h.setEntries hi entries
  have hpushes : w.Pushes w₁ config live 0 key r r sites (Function.update sites r.place
      { sites r.place with state := { (sites r.place).state with entries } }) :=
    ⟨hrests, haway, rfl, pushed_of_run r.producer htidy' hsame⟩
  obtain ⟨js, hpeers, hjs, hmem⟩ := hrests.shows.exists_peers r hi
  rcases Region.write_cases r w key c with ⟨result, left, hwrite, hleft, hnothing⟩ |
    ⟨answer, payload, left, hrun, hwrite⟩
  · obtain rfl : left = entries := hleft.symm.trans hentries
    rw [hw₁] at hwrite
    refine ⟨result, r, w₁, _, hwrite, hpushes.mono (by omega), ?_, fun _ j hj => ?_, js, hjs, hmem,
      fun answer _ payload entries' hships => absurd hships (hnothing answer payload entries')⟩
    · rw [Function.update_self, hleft]
    · exact Function.update_of_ne hj _ _
  · obtain rfl : left = entries := by
      rw [hrun] at hentries
      exact hentries
    obtain ⟨result, r', w₂, sites₂, hdistribute, hpushes₂, hstate, hmends⟩ :=
      hrests.distribute hmax hi hpeers hjs hmem key payload
    rw [Function.update_self] at hstate hmends
    refine ⟨result.map fun () => answer, r', w₂, sites₂,
      hwrite result r' w₂ (by rw [hw₁]; exact hdistribute), hpushes.trans hpushes₂,
      by rw [hstate, hrun], fun hnothing => absurd hrun (hnothing _ _ _), js, hjs, hmem,
      fun answer₁ answer₂ payload' entries' hships hok hroom hunseen => ?_⟩
    rw [hrun] at hships
    cases hships
    have hdone : result = .ok () := by
      rcases result with e | ⟨⟩
      · cases hok
      · rfl
    -- The peers are not the writer, so their copies are those of before the write.
    have hpeer : ∀ j ∈ js, Function.update sites r.place { sites r.place with
        state := { (sites r.place).state with entries := left } } j = sites j := fun j hj =>
      Function.update_of_ne ((hmem j).1 hj).2 _ _
    have htells : payload.TellsOf (left.get? key) := {
      whole := fun hwhole => by
        rw [h.shows.entries hi] at hrun
        exact Entries.run_ships_whole htidy hrun hwhole
      tidy := htidy' key }
    obtain ⟨hentry, hresends, hshort⟩ := hmends hdone hroom htells fun j hj => by
      rw [hpeer j hj]
      exact hunseen j hj
    refine ⟨fun j hj => ?_, ?_, hshort⟩
    · rw [hentry j hj, hpeer j hj]
    · rw [hresends]
      exact congrArg _ (List.countP_congr fun j hj => by rw [hpeer j hj])

end Fabric

end DataGrid
