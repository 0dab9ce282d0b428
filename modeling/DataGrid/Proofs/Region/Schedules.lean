import DataGrid.Proofs.Event.Remembered
import DataGrid.Proofs.Region.Mending
import Mathlib.Data.List.Induction

/-!
# Schedules — updates of many producers, in any order and again

A producer tells of its writes in the order of its sequence ids, and different producers write
under different keys (`Streams`). Updates of different producers reach a copy in any order, and any
of them reaches it again at any later time (`Streams.Schedule`). At each moment a stream has then
made of its keys what it makes of them without the others, as far as it has been delivered
(`Streams.Progress`). So every schedule ends with the same entries and gives each update the same
result, whether that is applied or not, and an update that comes again changes nothing
(`Streams.schedules_agree`).
-/

namespace DataGrid

/-! ## Definitions -/

/-- The entries that the payloads of updates make of entries, one after another. -/
def Entries.applyAll (entries : Entries) (updates : List Update) : Entries :=
  updates.foldl (fun entries u => (entries.applyPayload u.key u.payload).2) entries

namespace RegionState

/-- The copy after updates, one after another. -/
def deliver (s : RegionState) (updates : List Update) : RegionState :=
  updates.foldl (fun s u => (s.applyUpdate u).2) s

/-- The result that an update gets where it is delivered for the first time. -/
def firstResult (s : RegionState) (updates : List Update) (u : Update) :
    Except DeltaError UpdateOutcome :=
  ((s.deliver (updates.takeWhile (· ≠ u))).applyUpdate u).1

end RegionState

/-- **Streams of updates, one for each producer.** The sequence ids of a stream ascend, and no two
streams have the producer or a key in common. -/
structure Streams (ι : Type) where
  updates : ι → List Update
  named : ∀ i, ∀ u ∈ updates i, u.event.FromMember
  ascending : ∀ i, (updates i).Pairwise fun u v =>
    u.event.sameProducer v.event ∧ u.event.sequence < v.event.sequence
  apart : ∀ i j, i ≠ j → ∀ u ∈ updates i, ∀ v ∈ updates j,
    ¬u.event.sameProducer v.event ∧ u.key ≠ v.key

namespace Streams

variable {ι : Type}

/-- The updates of a stream among those delivered, in the order of their first deliveries. -/
def firsts (S : Streams ι) (delivered : List Update) (i : ι) : List Update :=
  delivered.eraseDups.filter (· ∈ S.updates i)

/-- **Whether updates are delivered as they may be**: nothing but what is in the streams, and each
stream as a whole and in its order if what comes again is left out. -/
structure Schedule (S : Streams ι) (delivered : List Update) : Prop where
  streamed : ∀ u ∈ delivered, ∃ i, u ∈ S.updates i
  firsts_eq : ∀ i, S.firsts delivered i = S.updates i

/-- **What a copy is like that had some entries at first**, after updates were delivered. The
tracker knows their events. Under its keys each stream has done what it does alone, and other keys
are as they were. -/
structure Progress (S : Streams ι) (start : Entries) (delivered : List Update)
    (s : RegionState) : Prop where
  recalls : s.tracker.Recalls (delivered.map (·.event))
  streams : ∀ i, ∀ u ∈ S.updates i,
    s.entries.get? u.key = (start.applyAll (S.firsts delivered i)).get? u.key
  others : ∀ key, (∀ i, ∀ u ∈ S.updates i, u.key ≠ key) → s.entries.get? key = start.get? key

end Streams

/-! ## A payload and the entry under its key -/

namespace Entries

variable {a b : Entries} {key k : Bytes}

/-- What a payload does depends on the entry under its key. -/
theorem applyPayload_congr (h : a.get? key = b.get? key) (p : Payload) :
    (a.applyPayload key p).1 = (b.applyPayload key p).1
      ∧ (a.applyPayload key p).2.get? key = (b.applyPayload key p).2.get? key := by
  cases p with
  | full snapshot =>
    rw [applyPayload, applyPayload]
    cases Entity.ofSnapshot snapshot with
    | error fault => exact ⟨rfl, h⟩
    | ok e => exact ⟨rfl, by rw [get?_keep_self, get?_keep_self]⟩
  | destroy => exact ⟨rfl, by rw [applyPayload, applyPayload, OrdMap.get?_erase_self,
      OrdMap.get?_erase_self]⟩
  | delta octets =>
    cases hcopy : a.get? key with
    | none =>
      have hcopy' := h.symm.trans hcopy
      simp only [applyPayload, hcopy, hcopy', and_self]
    | some copy =>
      rw [applyPayload_delta hcopy, applyPayload_delta (h.symm.trans hcopy)]
      split
      · exact ⟨rfl, by rw [get?_keep_self, get?_keep_self]⟩
      · exact ⟨rfl, h⟩
      · exact ⟨rfl, h⟩

/-- Entries that agree about a payload's key and another go on to agree about both. -/
theorem get?_applyPayload_congr (hkey : a.get? key = b.get? key) (h : a.get? k = b.get? k)
    (p : Payload) : (a.applyPayload key p).2.get? k = (b.applyPayload key p).2.get? k := by
  by_cases hk : k = key
  · rw [hk]
    exact (applyPayload_congr hkey p).2
  · rw [get?_applyPayload_of_ne a p hk, get?_applyPayload_of_ne b p hk, h]

/-- A payload is not what finds an update to be a duplicate. -/
theorem applyPayload_ne_duplicate (entries : Entries) (key : Bytes) (p : Payload) :
    (entries.applyPayload key p).1 ≠ .ok .duplicate := by
  intro h
  cases p with
  | full snapshot =>
    rw [applyPayload] at h
    cases hread : Entity.ofSnapshot snapshot with
    | error fault =>
      rw [hread] at h
      cases h
    | ok e =>
      rw [hread] at h
      cases h
  | destroy => cases h
  | delta octets =>
    cases hcopy : entries.get? key with
    | none =>
      simp only [applyPayload, hcopy] at h
      cases h
    | some copy =>
      rw [applyPayload_delta hcopy] at h
      split at h <;> cases h

theorem applyAll_append (entries : Entries) (us : List Update) (u : Update) :
    entries.applyAll (us ++ [u]) = ((entries.applyAll us).applyPayload u.key u.payload).2 :=
  List.foldl_append

end Entries

theorem RegionState.deliver_append (s : RegionState) (us : List Update) (u : Update) :
    s.deliver (us ++ [u]) = ((s.deliver us).applyUpdate u).2 :=
  List.foldl_append

/-! ## First deliveries -/

namespace Streams

variable {ι : Type} {S : Streams ι} {i j : ι} {u v : Update} {start : Entries} {s : RegionState}
variable {delivered before after later : List Update}

theorem mem_firsts : u ∈ S.firsts delivered i ↔ u ∈ delivered ∧ u ∈ S.updates i := by
  rw [firsts, List.mem_filter, List.mem_eraseDups, decide_eq_true_eq]

theorem firsts_append (S : Streams ι) (delivered later : List Update) (i : ι) :
    S.firsts (delivered ++ later) i
      = S.firsts delivered i ++ S.firsts (later.removeAll delivered) i := by
  rw [firsts, List.eraseDups_append, List.filter_append, firsts, firsts]

/-- What is new to a stream comes behind. -/
theorem firsts_append_new (hnew : u ∉ delivered) (hu : u ∈ S.updates i) :
    S.firsts (delivered ++ [u]) i = S.firsts delivered i ++ [u] := by
  rw [firsts_append]
  simp [firsts, List.removeAll, List.eraseDups_cons, hnew, hu]

/-- What comes again or is of another stream does not count. -/
theorem firsts_append_old (hold : u ∈ delivered ∨ u ∉ S.updates i) :
    S.firsts (delivered ++ [u]) i = S.firsts delivered i := by
  rw [firsts_append, List.append_right_eq_self]
  rcases hold with hmem | hu
  · simp [firsts, List.removeAll, hmem]
  · exact List.eq_nil_iff_forall_not_mem.2 fun v hv => by
      rw [mem_firsts, List.removeAll, List.mem_filter, List.mem_singleton] at hv
      exact hu (hv.1.1 ▸ hv.2)

/-- No update of a stream is in another. -/
theorem eq_of_mem (S : Streams ι) (hi : u ∈ S.updates i) (hj : u ∈ S.updates j) : i = j := by
  by_contra hne
  exact (S.apart i j hne u hi u hj).2 rfl

/-- An update that is delivered for the first time is the next of its stream. -/
theorem Schedule.next (h : S.Schedule (before ++ u :: after)) (hnew : u ∉ before) :
    ∃ i later, S.updates i = S.firsts before i ++ u :: later := by
  obtain ⟨i, hi⟩ := h.streamed u (List.mem_append_right _ List.mem_cons_self)
  have hall := h.firsts_eq i
  rw [List.append_cons, firsts_append, firsts_append_new hnew hi, List.append_assoc] at hall
  exact ⟨i, _, hall.symm⟩

/-! ## One delivery -/

/-- **An update that comes again changes nothing.** -/
theorem Progress.again (h : S.Progress start delivered s) (hu : u ∈ delivered) :
    s.applyUpdate u = (.ok .duplicate, s) ∧ S.Progress start (delivered ++ [u]) s := by
  have hpast : u.event ∈ delivered.map (·.event) := List.mem_map_of_mem hu
  have hnamed : u.event.FromMember := h.recalls.named _ hpast
  -- The event is among those recorded.
  have hrefused : s.tracker.record u.event = (false, s.tracker) :=
    h.recalls.record_of_le hnamed hpast ((EventId.sameProducer_iff hnamed hnamed).2 rfl)
      (Int64.le_refl _)
  refine ⟨by rw [RegionState.applyUpdate, hrefused], ?_, fun i v hv => ?_, h.others⟩
  · have hrecalls := h.recalls.record hnamed
    rw [hrefused] at hrecalls
    rw [List.map_append]
    exact hrecalls
  · rw [firsts_append_old (.inl hu)]
    exact h.streams i v hv

/-- An update that is the next of its stream was not seen. -/
theorem Progress.unseen (h : S.Progress start delivered s)
    (hstreamed : ∀ v ∈ delivered, ∃ j, v ∈ S.updates j)
    (hnext : S.updates i = S.firsts delivered i ++ u :: later) :
    s.tracker.hasSeen u.event = false := by
  have hu : u ∈ S.updates i := hnext ▸ List.mem_append_right _ List.mem_cons_self
  refine Bool.eq_false_iff.2 fun hseen => ?_
  obtain ⟨old, hold, hsame, hle⟩ := (h.recalls.hasSeen_iff (S.named i u hu)).1 hseen
  obtain ⟨v, hv, rfl⟩ := List.mem_map.1 hold
  obtain ⟨j, hj⟩ := hstreamed v hv
  -- What was recorded of the same producer is of the same stream and comes before the update.
  by_cases hij : j = i
  · subst hij
    have hascending := S.ascending j
    rw [hnext, List.pairwise_append] at hascending
    have hlt := (hascending.2.2 v (mem_firsts.2 ⟨hv, hj⟩) u List.mem_cons_self).2
    exact Int64.not_lt.2 hle hlt
  · exact (S.apart j i hij v hj u hu).1 hsame

/-- **The next update of a stream gets the result that it gets if the stream is alone**, and the
stream makes progress. -/
theorem Progress.first (h : S.Progress start delivered s)
    (hstreamed : ∀ v ∈ delivered, ∃ j, v ∈ S.updates j) (hnew : u ∉ delivered)
    (hnext : S.updates i = S.firsts delivered i ++ u :: later) :
    (s.applyUpdate u).1
        = ((start.applyAll (S.firsts delivered i)).applyPayload u.key u.payload).1
      ∧ S.Progress start (delivered ++ [u]) (s.applyUpdate u).2 := by
  have hu : u ∈ S.updates i := hnext ▸ List.mem_append_right _ List.mem_cons_self
  have hkey := h.streams i u hu
  have hrecalls := h.recalls.record (S.named i u hu)
  rw [RegionState.applyUpdate_of_unseen (h.unseen hstreamed hnext)]
  refine ⟨(Entries.applyPayload_congr hkey u.payload).1, ?_, fun j v hv => ?_, fun key hkeys => ?_⟩
  · rw [List.map_append]
    exact hrecalls
  · -- The stream alone takes the same step, and the other streams have other keys.
    by_cases hij : j = i
    · subst hij
      rw [firsts_append_new hnew hu, Entries.applyAll_append]
      exact Entries.get?_applyPayload_congr hkey (h.streams j v hv) u.payload
    · have hother : u ∉ S.updates j := fun hj => hij (S.eq_of_mem hj hu)
      rw [firsts_append_old (.inr hother)]
      exact (Entries.get?_applyPayload_of_ne _ _ (S.apart j i hij v hv u hu).2).trans
        (h.streams j v hv)
  · exact (Entries.get?_applyPayload_of_ne _ _ (hkeys i u hu).symm).trans (h.others key hkeys)

/-! ## A schedule -/

/-- Every beginning of a schedule makes the progress that its first deliveries are. -/
theorem Schedule.progress (start : Entries) (h : S.Schedule (before ++ after)) :
    S.Progress start before (RegionState.deliver { entries := start } before) := by
  -- By the last delivery so far; the rest of the schedule is what says that it comes in order.
  induction before using List.reverseRecOn generalizing after with
  | nil => exact ⟨Tracker.recalls_empty, fun _ _ _ => rfl, fun _ _ => rfl⟩
  | append_singleton before u ih =>
    rw [List.append_assoc, List.singleton_append] at h
    rw [RegionState.deliver_append]
    by_cases hu : u ∈ before
    · obtain ⟨hagain, hprogress⟩ := (ih h).again hu
      rw [hagain]
      exact hprogress
    · obtain ⟨i, later, hnext⟩ := h.next hu
      exact ((ih h).first (fun v hv => h.streamed v (List.mem_append_left _ hv)) hu hnext).2

/-- What comes before an update is what comes before its first place. -/
theorem takeWhile_ne_eq (hnew : u ∉ before) :
    (before ++ u :: after).takeWhile (· ≠ u) = before := by
  have hothers : ∀ v ∈ before, decide (v ≠ u) = true := fun v hv =>
    decide_eq_true fun heq : v = u => hnew (heq ▸ hv)
  rw [List.takeWhile_append_of_pos hothers, List.takeWhile_cons_of_neg (by simp), List.append_nil]

/-- **The result of an update comes from its place in its stream alone.** -/
theorem Schedule.firstResult_eq (h : S.Schedule delivered) (start : Entries)
    (hu : u ∈ S.updates i) :
    RegionState.firstResult { entries := start } delivered u
      = ((start.applyAll ((S.updates i).takeWhile (· ≠ u))).applyPayload u.key u.payload).1 := by
  have hmem : u ∈ delivered := by
    rw [← h.firsts_eq i, mem_firsts] at hu
    exact hu.1
  obtain ⟨before, after, rfl, hnew⟩ := List.eq_append_cons_of_mem hmem
  obtain ⟨j, later, hnext⟩ := h.next hnew
  obtain rfl : j = i := S.eq_of_mem (hnext ▸ List.mem_append_right _ List.mem_cons_self) hu
  have hearlier : (S.updates j).takeWhile (· ≠ u) = S.firsts before j := by
    rw [hnext]
    exact takeWhile_ne_eq fun hfirst => hnew (mem_firsts.1 hfirst).1
  rw [RegionState.firstResult, takeWhile_ne_eq hnew, hearlier]
  exact ((h.progress start).first (fun v hv => h.streamed v (List.mem_append_left _ hv)) hnew
    hnext).1

/-- **What a schedule leaves under a key comes from the stream of the key alone.** -/
theorem Schedule.get?_deliver (h : S.Schedule delivered) (start : Entries) :
    (∀ i, ∀ u ∈ S.updates i,
      (RegionState.deliver { entries := start } delivered).entries.get? u.key
        = (start.applyAll (S.updates i)).get? u.key)
    ∧ ∀ key, (∀ i, ∀ u ∈ S.updates i, u.key ≠ key) →
      (RegionState.deliver { entries := start } delivered).entries.get? key = start.get? key := by
  rw [← List.append_nil delivered] at h
  have hprogress := h.progress start
  rw [List.append_nil] at h
  refine ⟨fun i u hu => ?_, hprogress.others⟩
  rw [hprogress.streams i u hu, h.firsts_eq i]

/-- **However updates are scheduled, a copy comes out the same.** Two schedules of the same streams,
to copies with the same entries and nothing recorded, end with the same entries. Each update gets
the same result where it is first delivered, be it applied or refused, and never that it was seen
before. Whatever comes again, in either of them, is found to be a duplicate and changes nothing. -/
theorem schedules_agree (S : Streams ι) (start : Entries) {deliveries deliveries' : List Update}
    (h : S.Schedule deliveries) (h' : S.Schedule deliveries') :
    (RegionState.deliver { entries := start } deliveries).entries
        = (RegionState.deliver { entries := start } deliveries').entries
    ∧ (∀ i, ∀ u ∈ S.updates i,
      RegionState.firstResult { entries := start } deliveries u
          = RegionState.firstResult { entries := start } deliveries' u
        ∧ RegionState.firstResult { entries := start } deliveries u ≠ .ok .duplicate)
    ∧ ∀ before u after, deliveries = before ++ u :: after ∨ deliveries' = before ++ u :: after →
      u ∈ before →
        (RegionState.deliver { entries := start } before).applyUpdate u
          = (.ok .duplicate, RegionState.deliver { entries := start } before) := by
  refine ⟨OrdMap.ext_get? fun key => ?_, fun i u hu => ?_, fun before u after hplace hu => ?_⟩
  · obtain ⟨hstreams, hothers⟩ := h.get?_deliver start
    obtain ⟨hstreams', hothers'⟩ := h'.get?_deliver start
    by_cases hkey : ∃ i, ∃ u ∈ S.updates i, u.key = key
    · obtain ⟨i, u, hu, rfl⟩ := hkey
      rw [hstreams i u hu, hstreams' i u hu]
    · have hnone : ∀ i, ∀ u ∈ S.updates i, u.key ≠ key := fun i u hu heq => hkey ⟨i, u, hu, heq⟩
      rw [hothers key hnone, hothers' key hnone]
  · rw [h.firstResult_eq start hu, h'.firstResult_eq start hu]
    exact ⟨rfl, Entries.applyPayload_ne_duplicate _ _ _⟩
  · rcases hplace with rfl | rfl
    · exact ((h.progress start).again hu).1
    · exact ((h'.progress start).again hu).1

/-- One producer sends a delta that nothing is there for and then, its member padded by now,
destroys the key. Another sends what cannot be read. In one schedule some of it comes again in
between. -/
theorem schedules_agree_interleaved :
    let plain : Bytes := [0, 1, 104, 0, 0, 0, 7, 0, 0, 0, 0, 0, 0]
    let padded := plain ++ MembershipId.padding
    let first : Update := { event := ⟨plain, 1, 1, -1, 0⟩, key := [1], payload := .delta [] }
    let second : Update := { event := ⟨padded, 1, 2, -1, 0⟩, key := [1], payload := .destroy }
    let other : Update := { event := ⟨padded, 2, 1, -1, 0⟩, key := [2], payload := .full [] }
    ∃ S : Streams Bool, S.updates = (if · then [other] else [first, second])
      ∧ S.Schedule [first, other, second] ∧ S.Schedule [other, first, other, second, first]
      ∧ (RegionState.deliver {} [first, other, second]).entries
        = (RegionState.deliver {} [other, first, other, second, first]).entries
      ∧ RegionState.firstResult {} [first, other, second] other
        = RegionState.firstResult {} [other, first, other, second, first] other
      ∧ ((RegionState.deliver {} [other, first]).applyUpdate other).1 = .ok .duplicate := by
  intro plain padded first second other
  have hplain : Member.essentialBytes { host := "h", port := 7 } .current = .ok plain := by rfl
  have hpadded : second.event.FromMember :=
    ⟨_, _, Member.essentialBytes_padded hplain ⟨rfl, rfl⟩⟩
  have hnamed : ∀ u ∈ [first, second, other], u.event.FromMember :=
    List.forall_mem_cons.2 ⟨⟨_, _, hplain⟩, List.forall_mem_cons.2 ⟨hpadded,
      List.forall_mem_singleton.2 hpadded⟩⟩
  have hall : ∀ i : Bool, (if i then [other] else [first, second]) ⊆ [first, second, other] := by
    decide
  have hstreamed : ∀ u ∈ [first, second, other], ∃ i : Bool,
      u ∈ if i then [other] else [first, second] := by decide
  have honce : [first, other, second] ⊆ [first, second, other] := by decide
  have hagain : [other, first, other, second, first] ⊆ [first, second, other] := by decide
  let S : Streams Bool := {
    updates := (if · then [other] else [first, second])
    named := fun i u hu => hnamed u (hall i hu)
    ascending := by decide
    apart := by decide }
  have h : S.Schedule [first, other, second] :=
    ⟨fun u hu => hstreamed u (honce hu), fun i => by cases i <;> rfl⟩
  have h' : S.Schedule [other, first, other, second, first] :=
    ⟨fun u hu => hstreamed u (hagain hu), fun i => by cases i <;> rfl⟩
  obtain ⟨hentries, hresults, hreplays⟩ := S.schedules_agree .empty h h'
  refine ⟨S, rfl, h, h', hentries, (hresults true other List.mem_cons_self).1, ?_⟩
  rw [hreplays [other, first] other [second, first] (.inr rfl) List.mem_cons_self]

end Streams

end DataGrid
