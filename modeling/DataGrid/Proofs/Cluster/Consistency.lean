import DataGrid.Proofs.Cluster.Launching
import DataGrid.Proofs.Cluster.Seats

/-!
# Consistency — writers of different keys never get in each other's way

Members write at the same time, no two of them under the same key. Every move keeps them
consistent: a write that begins, an update that is taken in and answered, an answer that is taken
in, and a write that finishes. So whoever has no unfinished write is agreed with by everybody, and
no update is passed over or refused (`Writers.run_consistent`).
-/

namespace DataGrid

open Network (localMember)

namespace Consistent

variable {s s' : Writers} {config : Config} {count : Nat} {keys : Nat → List Bytes}
variable {desks : Nat → Desk} {sites sites' : Nat → Site} {phase : Nat → Nat → Phase}
variable {flight : Nat → Flight} {mail mail' : Nat → List Letter} {i j : Nat}

/-! ## Deliveries -/

/-- A member takes an update in. -/
theorem deliver_update (h : Consistent s config count keys desks sites phase flight mail)
    (hj : j < count)
    (hletter : .update i ∈ mail j)
    (hfind : (sites j).inbox.find? (·.1 = localMember i)
      = some (localMember i, (flight i).frame))
    (herase : (sites j).inbox.eraseP (·.1 = localMember i) = ((mail j).erase (.update i)).map
      (Letter.arrival config (fun i => (flight i).frame) (flight j).update.processor)) :
    ∃ network w' sites' phase' mail',
      s.fabric.network.takeFrom j (localMember i)
          = some ((localMember i, (flight i).frame), network)
        ∧ (Fabric.dispatch { s.fabric with network } j
          (localMember i, (flight i).frame)).work j = w'
        ∧ Consistent { s with fabric := w' } config count keys desks sites' phase' flight mail'
      := by
  obtain ⟨hi, hne, hphase⟩ := (h.posted.update i j hj).1 hletter
  obtain ⟨round, hround, hpending⟩ := h.exists_round (j := j) hi (by rw [hphase]; decide)
  obtain ⟨state, happly, halike, hsame, htidy, htracker⟩ := h.update_applies hi hj hne.symm hphase
  have hmax : 9 ≤ config.maxFrame := Nat.le_trans hpending.long hpending.fits
  have hprocessor := Keeper.ne_zero_of_pos hpending.awaits.id
  obtain ⟨network, w', htake, hw', hshow⟩ := h.shows.deliver_update hj hi hne hmax hfind
    hpending.decode hpending.fits (h.seated j hj).queue hprocessor happly
  obtain ⟨sites', hsites⟩ : ∃ sites', Function.update (Function.update sites j { sites j with
      inbox := (sites j).inbox.eraseP (·.1 = localMember i), state }) i
        ((sites i).arrive (localMember j, answerFrame config (flight i).update.processor))
      = sites' := ⟨_, rfl⟩
  obtain ⟨mail', hmail⟩ : ∃ mail', Function.update (Function.update mail j
      ((mail j).erase (.update i))) i (mail i ++ [.answer j]) = mail' := ⟨_, rfl⟩
  rw [hsites] at hshow
  have hsite_i : sites' i
      = (sites i).arrive (localMember j, answerFrame config (flight i).update.processor) := by
    rw [← hsites, Function.update_self]
  have hsite_j : sites' j = { sites j with
      inbox := (sites j).inbox.eraseP (·.1 = localMember i), state } := by
    rw [← hsites, Function.update_of_ne hne.symm, Function.update_self]
  have hsite : ∀ k, k ≠ i → k ≠ j → sites' k = sites k := fun k hki hkj => by
    rw [← hsites, Function.update_of_ne hki, Function.update_of_ne hkj]
  have hmail_i : mail' i = mail i ++ [.answer j] := by rw [← hmail, Function.update_self]
  have hmail_j : mail' j = (mail j).erase (.update i) := by
    rw [← hmail, Function.update_of_ne hne.symm, Function.update_self]
  have hmail_other : ∀ k, k ≠ i → k ≠ j → mail' k = mail k := fun k hki hkj => by
    rw [← hmail, Function.update_of_ne hki, Function.update_of_ne hkj]
  -- The move counts as the writer's: the receiver changes under the writer's keys only.
  have hmoved := h.moved hi { s with fabric := w' } (desks i)
    (Function.update (phase i) j .answered) (flight i) mail' hshow
    (by rw [Function.update_eq_self]; exact h.desk?) ?_ ?_ ?_ ?_
    (hmail ▸ h.posted.applied hi hj hne hphase) ?_
  · rw [Function.update_eq_self, Function.update_eq_self] at hmoved
    exact ⟨network, w', sites', _, mail', htake, hw', hmoved⟩
  · rw [hsite_i]
    refine seated_congr (h.seated i hi) rfl rfl id (fun _ _ => rfl) fun k hk => ?_
    rw [Function.update_of_ne (fun hkj => ?_), hk]
    rw [hkj, hphase] at hk
    cases hk
  · intro k hk hki
    by_cases hkj : k = j
    · rw [hkj, hsite_j]
      exact ⟨rfl, rfl, htidy⟩
    · rw [hsite k hki hkj]
      exact ⟨rfl, rfl, id⟩
  · intro k hk
    by_cases hki : k = i
    · rw [hki, hsite_i]
      exact .refl _ _ _
    · by_cases hkj : k = j
      · rw [hkj, hsite_j]
        refine ⟨fun key hkey => hsame key fun heq => hkey (heq ▸ hpending.key), ?_⟩
        intro t sequence hne hbelow
        rw [htracker]
        exact hbelow.record_other (hpending.thread ▸ hne.symm)
      · rw [hsite k hki hkj]
        exact .refl _ _ _
  · intro k hk
    rw [Function.update_eq_self]
    by_cases hki : k = i
    · rw [hki, hsite_i, hmail_i, Site.arrive, h.inbox i hi, List.map_append]
      rfl
    · by_cases hkj : k = j
      · rw [hkj, hsite_j, hmail_j]
        exact herase
      · rw [hsite k hki hkj, hmail_other k hki hkj, h.inbox k hk]
  · intro k hk hki
    by_cases hkj : k = j
    · rw [hkj, hsite_i, hsite_j, Function.update_self]
      refine .of_ne (by decide) halike fun hleft => ?_
      have hbelow := (h.meets i j hi hj hne.symm).coming hphase
      rw [htracker, ← hpending.thread]
      exact hbelow.record_self (hpending.sequence hleft)
    · rw [hsite_i, hsite k hki hkj, Function.update_of_ne hkj]
      exact h.meets i k hi hk hki

/-- A writer takes an answer in. -/
theorem deliver_answer (h : Consistent s config count keys desks sites phase flight mail)
    (hi : i < count)
    (hletter : .answer j ∈ mail i)
    (hfind : (sites i).inbox.find? (·.1 = localMember j)
      = some (localMember j, answerFrame config (flight i).update.processor))
    (herase : (sites i).inbox.eraseP (·.1 = localMember j) = ((mail i).erase (.answer j)).map
      (Letter.arrival config (fun i => (flight i).frame) (flight i).update.processor)) :
    ∃ network w' sites' phase' flight' mail',
      s.fabric.network.takeFrom i (localMember j)
          = some ((localMember j, answerFrame config (flight i).update.processor), network)
        ∧ (Fabric.dispatch { s.fabric with network } i
          (localMember j, answerFrame config (flight i).update.processor)).work i = w'
        ∧ Consistent { s with fabric := w' } config count keys desks sites' phase' flight' mail'
      := by
  obtain ⟨hj, hne, hphase⟩ := (h.posted.answer j i hi).1 hletter
  obtain ⟨round, hround, hpending⟩ := h.exists_round (j := j) hi (by rw [hphase]; decide)
  have hseat := h.seated i hi
  have hmax : 9 ≤ config.maxFrame := Nat.le_trans hpending.long hpending.fits
  obtain ⟨network, w', htake, hw', hshow⟩ := h.shows.deliver_answer hi hmax hfind hseat.queue
  -- No copy changes. The writer's wait is one answer further.
  have hmoved := h.moved hi { s with fabric := w' } (desks i)
    (Function.update (phase i) j .done) ((flight i).answeredBy j) _ hshow
    (by rw [Function.update_eq_self]; exact h.desk?) ?_ ?_ ?_ ?_
    (h.posted.answered hi hj hphase) ?_
  · rw [Function.update_eq_self] at hmoved
    exact ⟨network, w', _, _, _, _, htake, hw', hmoved⟩
  · rw [Function.update_self]
    refine { hseat with
      queue := hseat.queue
      tidy := hseat.tidy
      free := fun hfree => absurd (hround.symm.trans hfree) (Option.some_ne_none round)
      pending := fun round' hround' => ?_ }
    obtain rfl := Option.some.inj (hround.symm.trans hround')
    exact hpending.answered j _
  · intro k hk hki
    rw [Function.update_of_ne hki]
    exact ⟨rfl, rfl, id⟩
  · intro k hk
    by_cases hki : k = i
    · rw [hki, Function.update_self]
      exact .refl _ _ _
    · rw [Function.update_of_ne hki]
      exact .refl _ _ _
  · intro k hk
    have hflight : ∀ k, (Function.update flight i ((flight i).answeredBy j) k).frame
          = (flight k).frame
        ∧ (Function.update flight i ((flight i).answeredBy j) k).update = (flight k).update := by
      intro k
      rw [Function.update_apply]
      split
      · next heq => exact ⟨heq ▸ rfl, heq ▸ rfl⟩
      · exact ⟨rfl, rfl⟩
    have hframes := funext fun k => (hflight k).1
    have hid := congrArg Update.processor (hflight k).2
    rw [hframes, hid]
    by_cases hki : k = i
    · rw [hki, Function.update_self, Function.update_self]
      exact herase
    · rw [Function.update_of_ne hki, Function.update_of_ne hki]
      exact h.inbox k hk
  · intro k hk hki
    have hmeets := h.meets i k hi hk hki
    rw [Function.update_self, Function.update_of_ne hki]
    by_cases hkj : k = j
    · rw [hkj, Function.update_self]
      rw [hkj, hphase] at hmeets
      exact .of_ne (by decide) (fun _ => hmeets.alike_of_ne (by decide))
        (hmeets.unseen (by decide))
    · rw [Function.update_of_ne hkj]
      exact ⟨hmeets.alike, hmeets.slot, hmeets.coming, hmeets.unseen⟩

/-- **A delivery keeps writers consistent.** -/
theorem deliver (h : Consistent s config count keys desks sites phase flight mail)
    (hmove : s.deliver? j i = some s') :
    ∃ sites' phase' flight' mail',
      Consistent s' config count keys desks sites' phase' flight' mail' := by
  unfold Writers.deliver? at hmove
  split at hmove
  · next d arrival network hdesk htake =>
    have hj : j < count := by
      rw [h.desk?] at hdesk
      split at hdesk
      · assumption
      · cases hdesk
    have hfind := h.shows.find?_of_takeFrom hj htake
    have hinbox := h.inbox j hj
    rw [hinbox] at hfind
    obtain ⟨l, hl, hsender, rfl, herase⟩ := exists_letter hfind
    rw [← hinbox] at hfind herase
    obtain rfl := Option.some.inj hmove
    cases l with
    | update a =>
      obtain rfl : a = i := hsender
      obtain ⟨network', w', sites', phase', mail', htake', hw', hconsistent⟩ :=
        h.deliver_update hj hl hfind herase
      cases htake.symm.trans htake'
      exact ⟨sites', phase', flight, mail', hw' ▸ hconsistent⟩
    | answer a =>
      obtain rfl : a = i := hsender
      obtain ⟨network', w', sites', phase', flight', mail', htake', hw', hconsistent⟩ :=
        h.deliver_answer hj hl hfind herase
      cases htake.symm.trans htake'
      exact ⟨sites', phase', flight', mail', hw' ▸ hconsistent⟩
  · cases hmove

theorem desk?_seat (h : Consistent s config count keys desks sites phase flight mail)
    (hi : i < count) (d : Desk) (w : RegionFabric) (j : Nat) :
    (s.seat i d w).desk? j = if j < count then some (Function.update desks i d j) else none := by
  rw [Writers.seat]
  dsimp only
  by_cases hji : j = i
  · rw [hji, Function.update_self, Function.update_self, if_pos hi]
  · rw [Function.update_of_ne hji, Function.update_of_ne hji, h.desk?]

/-- A write that stays at home keeps writers consistent. -/
theorem begin_kept (h : Consistent s config count keys desks sites phase flight mail)
    (hi : i < count) {region : Region}
    {key : Bytes} {c : Command} {todo : List (Bytes × Command)}
    (hdesk : desks i = { region, todo := (key, c) :: todo }) {entries : Entries}
    (htidy : entries.Tidy)
    (hsame : ∀ k, k ≠ key → entries.get? k = (sites region.place).state.entries.get? k)
    {w : RegionFabric}
    (hkept : s.fabric.Kept w config (· < count) sites region key entries) :
    ∃ sites', Consistent (s.seat i { region, todo } w) config count keys
      (Function.update desks i { region, todo }) sites' phase flight mail := by
  have hseat := h.seated i hi
  rw [hdesk] at hseat
  obtain rfl : region.place = i := hseat.place
  obtain ⟨hidle, hdone⟩ := hseat.free rfl
  have hkey : key ∈ keys region.place := hseat.todo _ List.mem_cons_self
  refine ⟨_, h.moved_alone hi (s.seat region.place { region, todo } w) { region, todo } _
    hkept.shows (h.desk?_seat hi _ w) ?_ rfl ?_ fun j hj hji => ?_⟩
  · exact ⟨rfl, hseat.resends, hseat.thread, hseat.room.mono (Nat.le_succ _),
      fun a ha => hseat.todo a (List.mem_cons_of_mem _ ha), hseat.queue, htidy,
      fun _ => ⟨hidle, hdone⟩, fun _ hround => absurd hround.symm (Option.some_ne_none _)⟩
  · exact ⟨fun k hk => hsame k fun heq => hk (heq ▸ hkey), fun _ _ _ hbelow => hbelow⟩
  · have hmeets := h.meets region.place j hi hj hji
    rw [hdone j, hdesk] at hmeets
    rw [hdone j]
    refine .of_ne (by decide) (fun k hk => ?_)
      fun _ => hmeets.unseen (by decide) (Nat.succ_pos _)
    have hbefore := hmeets.alike_of_ne (by decide) hk
    by_cases hkk : k = key
    · rw [hkk] at hbefore ⊢
      exact hbefore.trans (hkept.alike j hj hji)
    · rw [Entries.AlikeAt, hsame k hkk]
      exact hbefore

/-- A write that is sent keeps writers consistent. -/
theorem begin_sent (h : Consistent s config count keys desks sites phase flight mail)
    (hi : i < count) {region : Region}
    {c : Command} {todo : List (Bytes × Command)} {round : Round}
    (hdesk : desks i = { region, todo := (round.key, c) :: todo }) {entries : Entries}
    (htidy : entries.Tidy)
    (hsame : ∀ k, k ≠ round.key → entries.get? k = (sites region.place).state.entries.get? k)
    {w : RegionFabric} {js : List Nat} {frame : Bytes} {u : Update} {keeper : Keeper}
    (hsent : s.fabric.Sent w config (· < count) sites region round entries js frame u keeper) :
    ∃ sites' phase' flight' mail', Consistent (s.seat i
        { region := { region with producer := region.producer.reserve.2 }, todo
          waiting := some round } w) config count keys (Function.update desks i
        { region := { region with producer := region.producer.reserve.2 }, todo
          waiting := some round }) sites' phase' flight' mail' := by
  have hseat := h.seated i hi
  rw [hdesk] at hseat
  obtain rfl : region.place = i := hseat.place
  obtain ⟨hidle, hdone⟩ := hseat.free rfl
  have hkey : round.key ∈ keys region.place := hseat.todo _ List.mem_cons_self
  have hroom : region.producer.HasRoom (todo.length + 1) := hseat.room
  have hself : region.place ∉ js := fun hj => ((hsent.mem_iff _).1 hj).2 rfl
  have hothers : ∀ j, j < count → j ≠ region.place → j ∈ js := fun j hj hne =>
    (hsent.mem_iff j).2 ⟨hj, hne⟩
  let f : Flight := {
    frame, update := u, before := (sites region.place).state.entries.get? round.key
    others := js, isMember := s.fabric.membership.contains }
  -- The others still hold what the writer held before, which the flight remembers.
  have hmoved := h.moved hi (s.seat region.place
      { region := { region with producer := region.producer.reserve.2 }, todo
        waiting := some round } w) _ (fun j => if j ∈ js then .sent else .done) f
    (fun j => if j ∈ js then mail j ++ [.update region.place] else mail j)
    hsent.shows (h.desk?_seat hi _ w) ?_ ?_ ?_ ?_ (h.posted.launched hi hdone hsent.mem_iff) ?_
  · exact ⟨_, _, _, _, hmoved⟩
  · simp only [if_neg hself, Function.update_self]
    refine ⟨rfl, hseat.resends, hseat.thread, hroom.reserve,
      fun a ha => hseat.todo a (List.mem_cons_of_mem _ ha), hseat.queue, htidy,
      fun hfree => absurd hfree (Option.some_ne_none round), ?_⟩
    rintro _ ⟨⟩
    exact .of_sent hsent hkey hroom rfl rfl fun _ hj => if_neg hj
  · intro j hj hne
    simp only [if_pos (hothers j hj hne)]
    exact ⟨rfl, rfl, id⟩
  · intro j hj
    by_cases hne : j = region.place
    · simp only [hne, if_neg hself, Function.update_self]
      exact ⟨fun k hk => hsame k fun heq => hk (heq ▸ hkey), fun _ _ _ hbelow => hbelow⟩
    · simp only [if_pos (hothers j hj hne)]
      exact .refl _ _ _
  · intro j hj
    -- The writer had no letters out, so the frames of the letters that have arrived stay.
    have hframes : ∀ a, .update a ∈ mail j →
        (flight a).frame = (Function.update flight region.place f a).frame := by
      intro a ha
      obtain ⟨-, -, hphase⟩ := (h.posted.update a j hj).1 ha
      rw [Function.update_of_ne]
      rintro rfl
      rw [hdone j] at hphase
      cases hphase
    by_cases hne : j = region.place
    · subst hne
      simp only [if_neg hself, Function.update_self]
      rw [h.inbox _ hi]
      refine map_arrival_congr hframes fun a ha => ?_
      obtain ⟨-, -, hphase⟩ := (h.posted.answer a _ hi).1 ha
      rw [hdone a] at hphase
      cases hphase
    · have hj' := hothers j hj hne
      simp only [if_pos hj', Site.arrive, List.map_append, Function.update_of_ne hne]
      rw [h.inbox j hj, map_arrival_congr hframes fun _ _ => rfl, List.map_singleton,
        Letter.arrival, Function.update_self]
  · intro j hj hne
    have hmeets := h.meets region.place j hi hj hne
    rw [hdone j, hdesk] at hmeets
    simp only [if_pos (hothers j hj hne), if_neg hself, Function.update_self]
    refine ⟨fun k hk hkk => ?_, fun _ => ?_, fun _ => ?_, fun hphase => absurd rfl hphase⟩
    · have hne' : k ≠ round.key := hsent.key ▸ hkk rfl
      rw [Entries.AlikeAt, hsame k hne']
      exact hmeets.alike_of_ne (by decide) hk
    · have halike := hmeets.alike_of_ne (by decide) hkey
      change Option.Rel _ _ ((sites j).state.entries.get? u.key)
      rw [hsent.key]
      exact halike.symm
    · have hbelow := hmeets.unseen (by decide) (Nat.succ_pos _)
      change (sites j).state.tracker.Below u.event.thread u.event.sequence
      rw [hsent.announces.thread, hsent.announces.sequence]
      exact hbelow

theorem lt_of_desk? (h : Consistent s config count keys desks sites phase flight mail) {d : Desk}
    (hd : s.desk? i = some d) : i < count ∧ desks i = d := by
  rw [h.desk?] at hd
  split at hd
  · next hi => exact ⟨hi, Option.some.inj hd⟩
  · cases hd

/-- **A write that begins keeps writers consistent.** -/
theorem begins (h : Consistent s config count keys desks sites phase flight mail)
    (hmove : s.begin? config i = some s') : ∃ desks' sites' phase' flight' mail',
      Consistent s' config count keys desks' sites' phase' flight' mail' := by
  unfold Writers.begin? at hmove
  split at hmove
  · next region key c todo hd =>
    obtain ⟨hi, hdesk⟩ := h.lt_of_desk? hd
    have hseat := h.seated i hi
    rw [hdesk] at hseat
    obtain rfl : region.place = i := hseat.place
    split at hmove
    · next hfits =>
      obtain ⟨entries, htidy, hsame, hcase⟩ :=
        h.shows.launch hi (hseat.free rfl).1 hseat.tidy key c hfits
      rcases hcase with ⟨result, w, hlaunch, hkept⟩
        | ⟨answer, round, w, js, frame, u, keeper, rfl, hlaunch, hsent⟩
      · obtain ⟨sites', hconsistent⟩ := h.begin_kept hi hdesk htidy hsame hkept
        rw [hlaunch] at hmove
        cases result <;> cases hmove <;> exact ⟨_, _, _, _, _, hconsistent⟩
      · obtain ⟨sites', phase', flight', mail', hconsistent⟩ :=
          h.begin_sent hi hdesk htidy hsame hsent
        rw [hlaunch] at hmove
        cases hmove
        exact ⟨_, _, _, _, _, hconsistent⟩
    · cases hmove
  · cases hmove

/-- **A write that finishes keeps writers consistent**, and there is no second round. -/
theorem finishes (h : Consistent s config count keys desks sites phase flight mail)
    (hmove : s.finish? i = some s') : ∃ desks' sites',
      Consistent s' config count keys desks' sites' phase flight mail := by
  unfold Writers.finish? at hmove
  split at hmove
  · next region todo round hd =>
    obtain ⟨hi, hdesk⟩ := h.lt_of_desk? hd
    have hseat := h.seated i hi
    rw [hdesk] at hseat
    obtain rfl : region.place = i := hseat.place
    have hpending := hseat.pending round rfl
    rw [h.shows.processor?_eq hi, hpending.awaits.live, Option.any_some] at hmove
    split at hmove
    · next hdone =>
      obtain ⟨hall, hrow⟩ := hpending.done_of_isDone hdone
      obtain ⟨o, keeper, w, hfinish, hstale, hidle, hshow, -⟩ := h.shows.finish hi hpending.awaits
        hpending.plain hpending.members hall
      -- Every answer was plain, so nobody asked for the whole value.
      have hland : region.land s.fabric round = (.ok none, region, w) := by
        rw [Region.land, hfinish]
        simp only [hstale, List.isEmpty_nil, Bool.true_or, if_true]
      rw [hland] at hmove
      cases hmove
      refine ⟨_, _, h.moved_alone hi (s.seat region.place { region, todo } w) { region, todo } _
        hshow (h.desk?_seat hi _ w) ?_ rfl (.refl _ _ _) fun j hj hji => ?_⟩
      · exact ⟨rfl, hseat.resends, hseat.thread, hseat.room, hseat.todo, hseat.queue, hseat.tidy,
          fun _ => ⟨hidle, hrow⟩, fun _ hround => absurd hround.symm (Option.some_ne_none _)⟩
      · have hmeets := h.meets region.place j hi hj hji
        rw [hdesk] at hmeets
        exact ⟨hmeets.alike, hmeets.slot, hmeets.coming, hmeets.unseen⟩
    · cases hmove
  · cases hmove

/-- **Moves keep writers consistent.** -/
theorem run (moves : List Writers.Move) {s : Writers} {desks : Nat → Desk} {sites : Nat → Site}
    {phase : Nat → Nat → Phase} {flight : Nat → Flight} {mail : Nat → List Letter}
    (h : Consistent s config count keys desks sites phase flight mail)
    (hrun : s.run? config moves = some s') : ∃ desks' sites' phase' flight' mail',
      Consistent s' config count keys desks' sites' phase' flight' mail' := by
  induction moves generalizing s desks sites phase flight mail with
  | nil =>
    obtain rfl := Option.some.inj hrun
    exact ⟨_, _, _, _, _, h⟩
  | cons move moves ih =>
    rw [Writers.run?, List.foldlM_cons] at hrun
    obtain ⟨s₁, hmove, hrest⟩ := Option.bind_eq_some_iff.1 hrun
    cases move with
    | begin i =>
      obtain ⟨_, _, _, _, _, h₁⟩ := h.begins hmove
      exact ih h₁ hrest
    | deliver i sender =>
      obtain ⟨_, _, _, _, h₁⟩ := h.deliver hmove
      exact ih h₁ hrest
    | finish i =>
      obtain ⟨_, _, h₁⟩ := h.finishes hmove
      exact ih h₁ hrest

/-- The members of a cluster that has started are consistent. -/
theorem of_started {c : Cluster} (hcount : count ≤ 18446744073709551616)
    (hmembers : c.members = (List.range count).map Cluster.newMember)
    (hshow : c.fabric.Shows config (· < count) fun _ => {})
    {commands : Nat → List (Bytes × Command)}
    (hapart : ∀ i j, i < count → j < count → i ≠ j →
      ∀ a ∈ commands i, ∀ b ∈ commands j, a.1 ≠ b.1)
    (hlength : ∀ i, i < count → (commands i).length ≤ 9223372036854775808) :
    Consistent (c.writers commands) config count (fun i => (commands i).map (·.1))
      (fun i => { region := (Cluster.newMember i).region, todo := commands i }) (fun _ => {})
      (fun _ _ => .done) (fun _ => {}) fun _ => [] where
  threads := hcount
  apart i j hi hj hne k hki hkj := by
    obtain ⟨a, ha, rfl⟩ := List.mem_map.1 hki
    obtain ⟨b, hb, heq⟩ := List.mem_map.1 hkj
    exact hapart i j hi hj hne a ha b hb heq.symm
  shows := hshow
  desk? i := by
    change (c.get? i).map _ = _
    rw [Cluster.get?_of_members hmembers]
    split <;> rfl
  seated i hi := ⟨rfl, rfl, rfl, Producer.hasRoom_new _ (hlength i hi),
    fun a ha => List.mem_map_of_mem ha, rfl, Entries.tidy_empty,
    fun _ => ⟨Keeper.idle_empty, fun _ => rfl⟩,
    fun _ hround => absurd hround.symm (Option.some_ne_none _)⟩
  inbox _ _ := rfl
  posted := ⟨fun _ _ => List.nodup_nil, fun _ _ _ => by simp, fun _ _ _ => by simp⟩
  meets _ _ _ _ _ := .of_ne (by decide) (fun k _ => .refl k _) fun _ => Tracker.below_empty _ _

theorem copy_eq (h : Consistent s config count keys desks sites phase flight mail)
    (hi : i < count) : s.copy i = (sites i).state := by
  obtain ⟨n, hn, hat⟩ := h.shows.node i hi
  rw [Writers.copy, Fabric.attached?, hn, Option.bind_some, hat.attached]
  rfl

theorem arrived_eq (h : Consistent s config count keys desks sites phase flight mail)
    (hi : i < count) : s.arrived i = (sites i).inbox := by
  obtain ⟨p, hp, hat⟩ := h.shows.port i hi
  rw [Writers.arrived, hp]
  exact hat.inbox

/-- Whoever has no unfinished write is agreed with under all its keys. -/
theorem alike_of_isFree (h : Consistent s config count keys desks sites phase flight mail)
    (hi : i < count) (hj : j < count) (hfree : s.isFree i) {k : Bytes} (hk : k ∈ keys i) :
    (s.copy j).entries.AlikeAt k (s.copy i).entries := by
  rw [h.copy_eq hi, h.copy_eq hj]
  rw [Writers.isFree, Option.any_eq_true] at hfree
  obtain ⟨d, hd, hwaiting⟩ := hfree
  obtain ⟨-, rfl⟩ := h.lt_of_desk? hd
  by_cases hne : j = i
  · rw [hne]
    exact .refl k _
  · refine (h.meets i j hi hj hne).alike k hk fun hsent => ?_
    rw [((h.seated i hi).free (Option.isNone_iff_eq_none.1 hwaiting)).2 j] at hsent
    cases hsent

/-- Whatever update has arrived anywhere is applied when it is taken in. -/
theorem arrived_applies (h : Consistent s config count keys desks sites phase flight mail)
    (hj : j < count) {arrival : Arrival} (harrived : arrival ∈ s.arrived j) {u : Update}
    (hu : Frame.decode Update.registry arrival.2 = .ok (.app u)) :
    ((s.copy j).applyUpdate u).1 = .ok .applied := by
  rw [h.arrived_eq hj, h.inbox j hj] at harrived
  rw [h.copy_eq hj]
  obtain ⟨l, hl, rfl⟩ := List.mem_map.1 harrived
  cases l with
  | update i =>
    obtain ⟨hi, hne, hphase⟩ := (h.posted.update i j hj).1 hl
    obtain ⟨round, -, hpending⟩ := h.exists_round (j := j) hi (by rw [hphase]; decide)
    obtain ⟨state, happly, -⟩ := h.update_applies hi hj hne.symm hphase
    rw [Letter.arrival, hpending.decode] at hu
    cases hu
    rw [happly]
  | answer i =>
    obtain ⟨-, -, hdecode⟩ := answerFrame_spec config (flight j).update.processor
    rw [Letter.arrival, hdecode] at hu
    cases hu

end Consistent

/-- **Writers of different keys are consistent however their writes interleave.** Let every member
of a cluster write its commands in their order, no two members under the same key and none more
often than its event numbers can count. In every state that can be reached by frames that keep to
the limits, whoever has no unfinished write is agreed with by every other member under all its
keys; no update that has arrived is passed over or refused when it is taken in; and nobody was sent
a whole value because it could not take a delta. -/
theorem Writers.run_consistent {count : Nat} (hcount : count ≤ 18446744073709551616)
    (config : Config) (commands : Nat → List (Bytes × Command))
    (hapart : ∀ i j, i < count → j < count → i ≠ j →
      ∀ a ∈ commands i, ∀ b ∈ commands j, a.1 ≠ b.1)
    (hlength : ∀ i, i < count → (commands i).length ≤ 9223372036854775808) :
    ∃ c, Cluster.start count config = .ok c
      ∧ ∀ moves s, (c.writers commands).run? config moves = some s →
        (∀ i j, i < count → j < count → s.isFree i → ∀ a ∈ commands i,
          (s.copy j).entries.AlikeAt a.1 (s.copy i).entries)
        ∧ (∀ j, j < count → ∀ arrival ∈ s.arrived j, ∀ u,
          Frame.decode Update.registry arrival.2 = .ok (.app u) →
          ((s.copy j).applyUpdate u).1 = .ok .applied)
        ∧ ∀ i d, s.desk? i = some d → d.region.fullResends = 0 := by
  obtain ⟨c, hc, hmembers, hshow, -⟩ := Cluster.start_ok hcount config
  refine ⟨c, hc, fun moves s hrun => ?_⟩
  obtain ⟨_, _, _, _, _, h⟩ :=
    (Consistent.of_started hcount hmembers hshow hapart hlength).run moves hrun
  refine ⟨fun i j hi hj hfree a ha => h.alike_of_isFree hi hj hfree (List.mem_map_of_mem ha),
    fun j hj arrival harrived u hu => h.arrived_applies hj harrived hu, fun i d hd => ?_⟩
  obtain ⟨hi, rfl⟩ := h.lt_of_desk? hd
  exact (h.seated i hi).resends

/-- Two members write at the same time, and a third one looks on. One of them has finished two
writes while the first write of the other is still on its way. -/
theorem Writers.run_consistent_overtaking :
    ∃ c, Cluster.start 3 {} = .ok c ∧ ∃ commands moves s,
      (c.writers commands).run? {} moves = some s ∧ s.isFree 0 ∧ !s.isFree 1
      ∧ (s.copy 2).entries.AlikeAt [97] (s.copy 0).entries
      ∧ (∀ arrival ∈ s.arrived 2, ∀ u, Frame.decode Update.registry arrival.2 = .ok (.app u) →
        ((s.copy 2).applyUpdate u).1 = .ok .applied)
      ∧ ∀ i d, s.desk? i = some d → d.region.fullResends = 0 := by
  let commands : Nat → List (Bytes × Command)
    | 0 => [([97], .sadd [[1], [2]]), ([97], .srem [[2]])]
    | 1 => [([98], .append [1])]
    | _ => []
  let moves : List Move := [.begin 0, .begin 1, .deliver 1 0, .deliver 2 0, .deliver 0 1,
    .deliver 0 1, .deliver 0 2, .finish 0, .begin 0, .deliver 2 0, .deliver 1 0, .deliver 1 0,
    .deliver 0 2, .deliver 0 1, .finish 0]
  have hrun : (match Cluster.start 3 {} with
      | .ok c => ((c.writers commands).run? {} moves).any fun s => s.isFree 0 && !s.isFree 1
      | .error _ => false) = true := by decide +kernel
  have hapart : ∀ i j, i < 3 → j < 3 → i ≠ j →
      ∀ a ∈ commands i, ∀ b ∈ commands j, a.1 ≠ b.1 := by
    have hall : ∀ i < 3, ∀ j < 3, i ≠ j →
        (commands i).all fun a => (commands j).all fun b => a.1 ≠ b.1 := by decide
    intro i j hi hj hne a ha b hb
    simpa using List.all_eq_true.1 (List.all_eq_true.1 (hall i hi j hj hne) a ha) b hb
  have hlength : ∀ i < 3, (commands i).length ≤ 9223372036854775808 := by decide
  obtain ⟨c, hc, hconsistent⟩ := run_consistent (by decide : 3 ≤ 18446744073709551616) {} commands
    hapart hlength
  rw [hc] at hrun
  obtain ⟨s, hs, hstate⟩ := (Option.any_eq_true _ _).1 hrun
  rw [Bool.and_eq_true] at hstate
  obtain ⟨hagree, hfresh, hresends⟩ := hconsistent moves s hs
  exact ⟨c, hc, commands, moves, s, hs, hstate.1, hstate.2,
    hagree 0 2 (by decide) (by decide) hstate.1 ([97], .srem [[2]]) (by decide),
    hfresh 2 (by decide), hresends⟩

end DataGrid
