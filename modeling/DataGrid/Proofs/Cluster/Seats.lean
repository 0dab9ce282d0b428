import DataGrid.Proofs.Cluster.Launching
import DataGrid.Proofs.Cluster.Letters

/-!
# Seats — what is known of members that write at the same time

While the update of a writer is on its way, the other copy is alike to the writer's copy of
before, and otherwise to its copy of now (`Meets`). What other writers do is under other keys and
under other thread ids, and cannot disturb that (`Meets.of_touches`). So a move of one writer keeps
all of them consistent if it does with respect to that writer (`Consistent.moved`).
-/

namespace DataGrid

open Network (localMember)

/-! ## What is known of a run -/

/-- The write that a member waits for: its update and frame, the slot that it changed as it was
before, who is to answer, and what has happened to the processor. A member that has not written
yet has one of defaults. -/
structure Flight where
  frame : Bytes := []
  update : Update :=
    { event := { membership := [], thread := 0, sequence := 0 }, key := [], payload := .destroy }
  before : Option Entity := none
  others : List Nat := []
  isMember : Member → Bool := fun _ => false
  events : List ProcessorEvent := []

/-- The write after one more answer. -/
def Flight.answeredBy (f : Flight) (j : Nat) : Flight :=
  { f with events := f.events ++ [.reply (localMember j) { processor := f.update.processor }] }

/-- What is known of the write of member `i` while it waits. -/
structure Pending (config : Config) (count : Nat) (keys : List Bytes) (i : Nat) (d : Desk)
    (σ : Site) (phase : Nat → Phase) (f : Flight) (round : Round) : Prop where
  others : ∀ j, j ∈ f.others ↔ j < count ∧ j ≠ i
  members : ∀ m ∈ f.others.map localMember, f.isMember m
  strangers : ∀ j, j ∉ f.others → phase j = .done
  awaits : σ.keeper.Awaits round.ticket f.update.processor
    ((Processor.await (f.others.map localMember) f.isMember).run f.events)
  plain : Processor.Plain f.update.processor f.events
  replied : ∀ j, .reply (localMember j) { processor := f.update.processor } ∈ f.events →
    phase j = .done
  decode : Frame.decode Update.registry f.frame = .ok (.app f.update)
  fits : f.frame.length ≤ config.maxFrame
  long : 9 ≤ f.frame.length
  key : f.update.key ∈ keys
  thread : f.update.event.thread = d.region.producer.thread
  sequence : 0 < d.todo.length → f.update.event.sequence < d.region.producer.next
  carries : f.update.payload.Carries f.update.key f.before
    (σ.state.entries.get? f.update.key)

/-- What is known of member `i` by itself. -/
structure Seated (config : Config) (count : Nat) (keys : List Bytes) (i : Nat) (d : Desk)
    (σ : Site) (phase : Nat → Phase) (f : Flight) : Prop where
  place : d.region.place = i
  resends : d.region.fullResends = 0
  thread : d.region.producer.thread = Int64.ofNat (i + 1)
  room : d.region.producer.HasRoom d.todo.length
  todo : ∀ a ∈ d.todo, a.1 ∈ keys
  queue : σ.queue = []
  tidy : σ.state.entries.Tidy
  free : d.waiting = none → σ.keeper.Idle ∧ ∀ j, phase j = .done
  pending : ∀ round, d.waiting = some round → Pending config count keys i d σ phase f round

/-- What is known of a writer's copy and the copy of another member, under the writer's keys. -/
structure Meets (phase : Phase) (f : Flight) (keys : List Bytes) (d : Desk)
    (own copy : RegionState) : Prop where
  alike : ∀ k ∈ keys, (phase = .sent → k ≠ f.update.key) → copy.entries.AlikeAt k own.entries
  slot : phase = .sent → Option.Rel Entity.Alike f.before (copy.entries.get? f.update.key)
  coming : phase = .sent →
    copy.tracker.Below f.update.event.thread f.update.event.sequence
  unseen : phase ≠ .sent → 0 < d.todo.length →
    copy.tracker.Below d.region.producer.thread d.region.producer.next

/-- Copies meet if no update is on its way between them. -/
theorem Meets.of_ne {phase : Phase} {f : Flight} {keys : List Bytes} {d : Desk}
    {own copy : RegionState} (hphase : phase ≠ .sent)
    (halike : ∀ k ∈ keys, copy.entries.AlikeAt k own.entries)
    (hunseen : 0 < d.todo.length →
      copy.tracker.Below d.region.producer.thread d.region.producer.next) :
    Meets phase f keys d own copy where
  alike k hk _ := halike k hk
  slot hsent := absurd hsent hphase
  coming hsent := absurd hsent hphase
  unseen _ := hunseen

theorem Meets.alike_of_ne {phase : Phase} {f : Flight} {keys : List Bytes} {d : Desk}
    {own copy : RegionState} (h : Meets phase f keys d own copy) (hphase : phase ≠ .sent)
    {k : Bytes} (hk : k ∈ keys) : copy.entries.AlikeAt k own.entries :=
  h.alike k hk fun hsent => absurd hsent hphase

/-- **Whether writers are consistent**: everybody sits where they should, the letters that have
arrived are those on their way, and all copies meet. -/
structure Consistent (s : Writers) (config : Config) (count : Nat) (keys : Nat → List Bytes)
    (desks : Nat → Desk) (sites : Nat → Site) (phase : Nat → Nat → Phase) (flight : Nat → Flight)
    (mail : Nat → List Letter) : Prop where
  threads : count ≤ 18446744073709551616
  apart : ∀ i j, i < count → j < count → i ≠ j → ∀ k ∈ keys i, k ∉ keys j
  shows : s.fabric.Shows config (· < count) sites
  desk? : ∀ i, s.desk? i = if i < count then some (desks i) else none
  seated : ∀ i, i < count →
    Seated config count (keys i) i (desks i) (sites i) (phase i) (flight i)
  inbox : ∀ j, j < count → (sites j).inbox
    = (mail j).map (Letter.arrival config (fun i => (flight i).frame) (flight j).update.processor)
  posted : Posted count phase mail
  meets : ∀ i j, i < count → j < count → j ≠ i →
    Meets (phase i j) (flight i) (keys i) (desks i) (sites i).state (sites j).state

/-! ## The write of a member -/

namespace Pending

variable {config : Config} {count : Nat} {keys : List Bytes} {i j : Nat} {d : Desk} {σ : Site}
variable {row : Nat → Phase} {f : Flight} {round : Round}

/-- A write that is sent is awaited, and nobody has answered yet. -/
theorem of_sent {w w' : RegionFabric} {sites : Nat → Site} {region : Region} {entries : Entries}
    {js : List Nat} {frame : Bytes} {u : Update} {keeper : Keeper}
    {todo : List (Bytes × Command)}
    (h : w.Sent w' config (· < count) sites region round entries js frame u keeper)
    (hkey : round.key ∈ keys) (hroom : region.producer.HasRoom (todo.length + 1))
    (hkeeper : σ.keeper = keeper) (hentries : σ.state.entries = entries)
    (hrow : ∀ j, j ∉ js → row j = .done) :
    Pending config count keys region.place
      { region := { region with producer := region.producer.reserve.2 }, todo
        waiting := some round } σ row
      { frame, update := u, before := (sites region.place).state.entries.get? round.key
        others := js, isMember := w.membership.contains } round where
  others := h.mem_iff
  members := h.members
  strangers := hrow
  awaits := by
    rw [hkeeper, h.announces.processor]
    exact h.awaits
  plain := fun _ he => absurd he List.not_mem_nil
  replied := fun _ he => absurd he List.not_mem_nil
  decode := h.announces.decode
  fits := h.announces.fits
  long := h.announces.long
  key := h.key ▸ hkey
  thread := h.announces.thread
  sequence := fun hleft => by
    rw [h.announces.sequence]
    exact hroom.lt_reserve hleft
  carries := by
    rw [hentries, h.payload, h.key]
    exact h.carries

/-- A write that one more member has answered is still awaited. -/
theorem answered (h : Pending config count keys i d σ row f round) (j : Nat)
    (inbox : List Arrival) :
    Pending config count keys i d
      { σ with
        inbox
        keeper := (σ.keeper.processReply (localMember j) { processor := f.update.processor }).2 }
      (Function.update row j .done) (f.answeredBy j) round := by
  have hrow : ∀ k, row k = .done → Function.update row j .done k = .done := by
    intro k hk
    rw [Function.update_apply, hk, ite_self]
  have hwaits := h.awaits.processReply (localMember j) (r := { processor := f.update.processor })
    rfl
  rw [← Processor.run_reply] at hwaits
  refine { h with
    strangers := fun k hk => hrow k (h.strangers k hk)
    awaits := hwaits
    plain := ?_
    replied := ?_ }
  · intro e he
    rcases List.mem_append.1 he with he | he
    · exact h.plain e he
    · exact ⟨localMember j, List.mem_singleton.1 he⟩
  · intro k hk
    rcases List.mem_append.1 hk with hk | hk
    · exact hrow k (h.replied k hk)
    · have heq := (ProcessorEvent.reply.inj (List.mem_singleton.1 hk)).1
      rw [localMember_injective heq, Function.update_self]

/-- When the processor is done, everybody has answered. -/
theorem done_of_isDone (h : Pending config count keys i d σ row f round)
    (hdone : ((Processor.await (f.others.map localMember) f.isMember).run f.events).isDone) :
    (∀ m ∈ f.others.map localMember,
        .reply m { processor := f.update.processor } ∈ f.events) ∧ ∀ j, row j = .done := by
  have hall := (Processor.isDone_run_iff h.plain h.members).1 hdone
  refine ⟨hall, fun j => ?_⟩
  by_cases hj : j ∈ f.others
  · exact h.replied j (hall _ (List.mem_map_of_mem hj))
  · exact h.strangers j hj

end Pending

/-! ## Keys and threads of others -/

/-- Whether a copy changes at most under a writer's keys, and sees at most the writer's events. -/
structure Touches (keys : List Bytes) (thread : Int64) (s s' : RegionState) : Prop where
  entries : ∀ k, k ∉ keys → s'.entries.get? k = s.entries.get? k
  tracker : ∀ t sequence, t ≠ thread → s.tracker.Below t sequence → s'.tracker.Below t sequence

theorem Touches.refl (keys : List Bytes) (thread : Int64) (s : RegionState) :
    Touches keys thread s s := ⟨fun _ _ => rfl, fun _ _ _ h => h⟩

/-- What one writer does disturbs no other one. -/
theorem Meets.of_touches {phase : Phase} {f : Flight} {keys keys' : List Bytes} {d : Desk}
    {own own' copy copy' : RegionState} {thread : Int64} (h : Meets phase f keys d own copy)
    (hown : Touches keys' thread own own') (hcopy : Touches keys' thread copy copy')
    (hkeys : ∀ k ∈ keys, k ∉ keys') (hthread : d.region.producer.thread ≠ thread)
    (hsent : phase = .sent →
      f.update.key ∈ keys ∧ f.update.event.thread = d.region.producer.thread) :
    Meets phase f keys d own' copy' where
  alike k hk hne := by
    rw [Entries.AlikeAt, hown.entries k (hkeys k hk), hcopy.entries k (hkeys k hk)]
    exact h.alike k hk hne
  slot hphase := by
    rw [hcopy.entries _ (hkeys _ (hsent hphase).1)]
    exact h.slot hphase
  coming hphase := by
    have hcoming := h.coming hphase
    rw [(hsent hphase).2] at hcoming ⊢
    exact hcopy.tracker _ _ hthread hcoming
  unseen hphase hleft := hcopy.tracker _ _ hthread (h.unseen hphase hleft)

/-! ## Moves -/

namespace Consistent

variable {s s' : Writers} {config : Config} {count : Nat} {keys : Nat → List Bytes}
variable {desks : Nat → Desk} {sites sites' : Nat → Site} {phase : Nat → Nat → Phase}
variable {flight : Nat → Flight} {mail mail' : Nat → List Letter} {i j : Nat}

/-- What is known of a member stays while others move, and when one of the others gets on. -/
theorem seated_congr {d : Desk} {σ σ' : Site} {row row' : Nat → Phase} {f : Flight}
    {keys : List Bytes} (h : Seated config count keys i d σ row f)
    (hkeeper : σ'.keeper = σ.keeper) (hqueue : σ'.queue = σ.queue)
    (htidy : σ.state.entries.Tidy → σ'.state.entries.Tidy)
    (hentries : ∀ k ∈ keys, σ'.state.entries.get? k = σ.state.entries.get? k)
    (hrow : ∀ j, row j = .done → row' j = .done) : Seated config count keys i d σ' row' f where
  place := h.place
  resends := h.resends
  thread := h.thread
  room := h.room
  todo := h.todo
  queue := hqueue.trans h.queue
  tidy := htidy h.tidy
  free hfree := by
    obtain ⟨hidle, hdone⟩ := h.free hfree
    exact ⟨hkeeper ▸ hidle, fun j => hrow j (hdone j)⟩
  pending round hround := by
    have hpending := h.pending round hround
    exact { hpending with
      strangers := fun j hj => hrow j (hpending.strangers j hj)
      awaits := hkeeper ▸ hpending.awaits
      replied := fun j hj => hrow j (hpending.replied j hj)
      carries := by
        rw [hentries _ hpending.key]
        exact hpending.carries }

theorem thread_ne (h : Consistent s config count keys desks sites phase flight mail)
    (hi : i < count) (hj : j < count) (hne : i ≠ j) :
    (desks i).region.producer.thread ≠ (desks j).region.producer.thread := by
  rw [(h.seated i hi).thread, (h.seated j hj).thread]
  have hcount := h.threads
  exact fun heq => hne (Cluster.thread_newMember_injective (by omega) (by omega) heq)

/-- **A move of one writer keeps writers consistent** if it does with respect to that writer. -/
theorem moved (h : Consistent s config count keys desks sites phase flight mail)
    (hi : i < count) (s' : Writers) (d : Desk) (row : Nat → Phase) (f : Flight)
    (mail' : Nat → List Letter) (hshows : s'.fabric.Shows config (· < count) sites')
    (hdesk : ∀ j, s'.desk? j = if j < count then some (Function.update desks i d j) else none)
    (hseated : Seated config count (keys i) i d (sites' i) row f)
    (hothers : ∀ j, j < count → j ≠ i → (sites' j).keeper = (sites j).keeper
      ∧ (sites' j).queue = (sites j).queue
      ∧ ((sites j).state.entries.Tidy → (sites' j).state.entries.Tidy))
    (htouches : ∀ j, j < count →
      Touches (keys i) (desks i).region.producer.thread (sites j).state (sites' j).state)
    (hinbox : ∀ j, j < count → (sites' j).inbox = (mail' j).map
      (Letter.arrival config (fun k => (Function.update flight i f k).frame)
        (Function.update flight i f j).update.processor))
    (hposted : Posted count (Function.update phase i row) mail')
    (hmeets : ∀ j, j < count → j ≠ i →
      Meets (row j) f (keys i) d (sites' i).state (sites' j).state) :
    Consistent s' config count keys (Function.update desks i d) sites'
      (Function.update phase i row) (Function.update flight i f) mail' where
  threads := h.threads
  apart := h.apart
  shows := hshows
  desk? := hdesk
  seated a ha := by
    by_cases hai : a = i
    · subst hai
      simpa only [Function.update_self] using hseated
    · simp only [Function.update_of_ne hai]
      obtain ⟨hkeeper, hqueue, htidy⟩ := hothers a ha hai
      exact seated_congr (h.seated a ha) hkeeper hqueue htidy
        (fun k hk => (htouches a ha).entries k (h.apart a i ha hi hai k hk)) fun _ hdone => hdone
  inbox := hinbox
  posted := hposted
  meets a b ha hb hne := by
    by_cases hai : a = i
    · subst hai
      simpa only [Function.update_self] using hmeets b hb hne
    · simp only [Function.update_of_ne hai]
      refine (h.meets a b ha hb hne).of_touches (htouches a ha) (htouches b hb)
        (h.apart a i ha hi hai) (h.thread_ne ha hi hai) fun hsent => ?_
      have hseat := h.seated a ha
      rcases hwaiting : (desks a).waiting with _ | round
      · rw [(hseat.free hwaiting).2 b] at hsent
        cases hsent
      · have hpending := hseat.pending round hwaiting
        exact ⟨hpending.key, hpending.thread⟩

/-- **A move that only its writer notices keeps writers consistent** if it does with respect to
that writer. -/
theorem moved_alone (h : Consistent s config count keys desks sites phase flight mail)
    (hi : i < count) (s' : Writers) (d : Desk) (σ : Site)
    (hshows : s'.fabric.Shows config (· < count) (Function.update sites i σ))
    (hdesk : ∀ j, s'.desk? j = if j < count then some (Function.update desks i d j) else none)
    (hseated : Seated config count (keys i) i d σ (phase i) (flight i))
    (hinbox : σ.inbox = (sites i).inbox)
    (htouches : Touches (keys i) (desks i).region.producer.thread (sites i).state σ.state)
    (hmeets : ∀ j, j < count → j ≠ i →
      Meets (phase i j) (flight i) (keys i) d σ.state (sites j).state) :
    Consistent s' config count keys (Function.update desks i d) (Function.update sites i σ)
      phase flight mail := by
  have hmoved := h.moved hi s' d (phase i) (flight i) mail hshows hdesk ?_ ?_ ?_ ?_ ?_ ?_
  · rwa [Function.update_eq_self, Function.update_eq_self] at hmoved
  · rwa [Function.update_self]
  · intro j hj hji
    rw [Function.update_of_ne hji]
    exact ⟨rfl, rfl, id⟩
  · intro j hj
    by_cases hji : j = i
    · subst hji
      rwa [Function.update_self]
    · rw [Function.update_of_ne hji]
      exact .refl _ _ _
  · intro j hj
    rw [Function.update_eq_self]
    by_cases hji : j = i
    · subst hji
      rw [Function.update_self, hinbox]
      exact h.inbox j hj
    · rw [Function.update_of_ne hji]
      exact h.inbox j hj
  · rw [Function.update_eq_self]
    exact h.posted
  · intro j hj hji
    rw [Function.update_self, Function.update_of_ne hji]
    exact hmeets j hj hji

/-- Who is sent an update is waited for. -/
theorem exists_round (h : Consistent s config count keys desks sites phase flight mail)
    (hi : i < count) (hphase : phase i j ≠ .done) :
    ∃ round, (desks i).waiting = some round
      ∧ Pending config count (keys i) i (desks i) (sites i) (phase i) (flight i) round := by
  have hseat := h.seated i hi
  rcases hwaiting : (desks i).waiting with _ | round
  · exact absurd ((hseat.free hwaiting).2 j) hphase
  · exact ⟨round, rfl, hseat.pending round hwaiting⟩

/-- **An update that has arrived applies.** It is new to the receiver, and its payload carries the
change to the receiver's copy. -/
theorem update_applies (h : Consistent s config count keys desks sites phase flight mail)
    (hi : i < count) (hj : j < count) (hne : j ≠ i) (hphase : phase i j = .sent) :
    ∃ state, (sites j).state.applyUpdate (flight i).update = (.ok .applied, state)
      ∧ (∀ k ∈ keys i, state.entries.AlikeAt k (sites i).state.entries)
      ∧ (∀ k, k ≠ (flight i).update.key → state.entries.get? k = (sites j).state.entries.get? k)
      ∧ ((sites j).state.entries.Tidy → state.entries.Tidy)
      ∧ state.tracker = ((sites j).state.tracker.record (flight i).update.event).2 := by
  obtain ⟨round, -, hpending⟩ := h.exists_round (j := j) hi (by rw [hphase]; decide)
  have hmeets := h.meets i j hi hj hne
  obtain ⟨state, happly, hslot, hothers, htidy, htracker⟩ :=
    RegionState.applyUpdate_of_carries (hmeets.coming hphase).unseen hpending.carries
      (hmeets.slot hphase)
  refine ⟨state, happly, fun k hk => ?_, hothers, htidy, htracker⟩
  by_cases hkey : k = (flight i).update.key
  · rw [hkey]
    exact Entries.AlikeAt.symm hslot
  · rw [Entries.AlikeAt, hothers k hkey]
    exact hmeets.alike k hk fun _ => hkey

end Consistent

end DataGrid
