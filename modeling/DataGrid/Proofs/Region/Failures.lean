import DataGrid.Proofs.Event.Remembered
import DataGrid.Proofs.Region.Schedules

/-!
# Failures — updates with a payload that cannot be read

The event of an update is recorded first and its payload is read after that, so an update fails
only when its event was new and only at a payload that cannot be read. The entries are then as they
were, and the event counts as seen all the same: what comes under it next is a duplicate, whatever
it carries (`RegionState.applyUpdate_failed`). Among events of members it stays so for good,
whatever is delivered meanwhile. What the update was to bring can come under another event only.
-/

namespace DataGrid

/-! ## Definitions -/

/-- Whether an event comes no later than another one from the same producer, written the same. -/
structure EventId.NoLater (id last : EventId) : Prop where
  membership : id.membership = last.membership
  thread : id.thread = last.thread
  sequence : id.sequence ≤ last.sequence

/-- Whether a payload cannot be read, and why. -/
inductive Payload.Unreadable : Payload → Fault → Prop where
  | full {snapshot : Bytes} {fault : Fault} (h : Entity.ofSnapshot snapshot = .error fault) :
    Unreadable (.full snapshot) fault
  | delta {octets : Bytes} {fault : Fault} (h : Delta.ofBytes octets = .error fault) :
    Unreadable (.delta octets) fault

/-! ## What was recorded -/

theorem TrackerRecord.isFor_of_noLater (r : TrackerRecord) {id last : EventId}
    (h : id.NoLater last) : r.isFor id = r.isFor last := by
  rw [isFor, isFor, h.membership, h.thread]

/-- The record that answered for an event answers for it again, and for those before it. -/
theorem Tracker.recordIn_again {id last : EventId} (h : id.NoLater last)
    (records : List TrackerRecord) :
    recordIn id (recordIn last records).2 = (false, (recordIn last records).2) := by
  induction records with
  | nil =>
    have hfor : TrackerRecord.isFor ⟨last.membership, last.thread, last.sequence⟩ last := by
      rw [TrackerRecord.isFor, beq_self_eq_true, Bool.true_and]
      exact MembershipId.same_refl last.membership
    rw [recordIn, recordIn, TrackerRecord.isFor_of_noLater _ h, if_pos hfor,
      if_neg (Int64.not_lt.2 h.sequence)]
  | cons r rest ih =>
    rw [recordIn]
    by_cases hfor : r.isFor last
    · rw [if_pos hfor]
      -- It is raised to the event, or it was high enough already.
      split
      · have hraised : TrackerRecord.isFor { r with highest := last.sequence } last := hfor
        rw [recordIn, TrackerRecord.isFor_of_noLater _ h, if_pos hraised,
          if_neg (Int64.not_lt.2 h.sequence)]
      · next hle =>
        rw [recordIn, r.isFor_of_noLater h, if_pos hfor,
          if_neg (Int64.not_lt.2 (Int64.le_trans h.sequence (Int64.not_lt.1 hle)))]
    · rw [if_neg hfor]
      show recordIn id (r :: (recordIn last rest).2) = _
      rw [recordIn, r.isFor_of_noLater h, if_neg hfor, ih]

/-- An event that comes right after it was recorded, or after a later one, is refused. -/
theorem Tracker.record_again (t : Tracker) {id last : EventId} (h : id.NoLater last) :
    (t.record last).2.record id = (false, (t.record last).2) := by
  show ((recordIn id (recordIn last t.records).2).1,
    (⟨(recordIn id (recordIn last t.records).2).2⟩ : Tracker)) = _
  rw [recordIn_again h t.records]
  rfl

namespace RegionState

variable {s : RegionState} {u : Update} {past : List EventId}

/-- An update whose event is refused is a duplicate and changes nothing. -/
theorem applyUpdate_of_refused (h : s.tracker.record u.event = (false, s.tracker)) :
    s.applyUpdate u = (.ok .duplicate, s) := by
  rw [applyUpdate, h]

/-- A tracker that knows past events knows those of the updates that are delivered too. -/
theorem recalls_deliver (h : s.tracker.Recalls past) {updates : List Update}
    (hupdates : ∀ u ∈ updates, u.event.FromMember) :
    (s.deliver updates).tracker.Recalls (past ++ updates.map (·.event)) := by
  induction updates generalizing s past with
  | nil => rwa [List.map_nil, List.append_nil]
  | cons u rest ih =>
    obtain ⟨hu, hrest⟩ := List.forall_mem_cons.1 hupdates
    have hnext : (s.applyUpdate u).2.tracker.Recalls (past ++ [u.event]) := by
      rw [tracker_applyUpdate]
      exact h.record hu
    rw [List.map_cons, List.append_cons]
    exact ih hnext hrest

end RegionState

/-! ## Failures -/

/-- A payload fails only if it cannot be read, and then nothing changes. -/
theorem Entries.applyPayload_error {entries entries' : Entries} {key : Bytes} {p : Payload}
    {e : DeltaError} (h : entries.applyPayload key p = (.error e, entries')) :
    entries' = entries ∧ ∃ fault, e = .wire fault ∧ p.Unreadable fault := by
  cases p with
  | full snapshot =>
    rw [applyPayload] at h
    cases hread : Entity.ofSnapshot snapshot with
    | error fault =>
      rw [hread] at h
      cases h
      exact ⟨rfl, fault, rfl, .full hread⟩
    | ok copy =>
      rw [hread] at h
      cases h
  | delta octets =>
    cases hcopy : entries.get? key with
    | none =>
      simp only [applyPayload, hcopy] at h
      cases h
    | some copy =>
      rw [applyPayload_delta hcopy] at h
      cases hread : Delta.ofBytes octets with
      | error fault =>
        rw [Entity.applyBytes, hread] at h
        cases h
        exact ⟨rfl, fault, rfl, .delta hread⟩
      | ok d =>
        -- A delta that can be read is applied or refused, and neither is a failure.
        rw [Entity.applyBytes_eq hread] at h
        cases hresult : (copy.apply d).1 with
        | error why =>
          rw [hresult] at h
          cases h
        | ok _ =>
          rw [hresult] at h
          cases h
  | destroy => cases h

namespace RegionState

/-- **An update that fails changes no entry, and counts as seen.** Its event was new and is
recorded, and its payload cannot be read. So the event of the failed update or one before it is
found to be a duplicate when it comes next, with any payload, and changes nothing. Where the tracker
knows events of members and such events are delivered, it is still so after any of them, also if
the member is named in its other form. -/
theorem applyUpdate_failed {s s' : RegionState} {u : Update} {e : DeltaError}
    (h : s.applyUpdate u = (.error e, s')) :
    s'.entries = s.entries ∧ s.tracker.record u.event = (true, s'.tracker)
      ∧ (∃ fault, e = .wire fault ∧ u.payload.Unreadable fault)
      ∧ (∀ v : Update, v.event.NoLater u.event → s'.applyUpdate v = (.ok .duplicate, s'))
      ∧ ∀ past, s.tracker.Recalls past → u.event.FromMember →
        ∀ meanwhile : List Update, (∀ w ∈ meanwhile, w.event.FromMember) →
        ∀ v : Update, v.event.FromMember → u.event.sameProducer v.event →
          v.event.sequence ≤ u.event.sequence →
          (s'.deliver meanwhile).applyUpdate v = (.ok .duplicate, s'.deliver meanwhile) := by
  rcases hrecord : s.tracker.record u.event with ⟨_ | _, tracker⟩
  · rw [applyUpdate, hrecord] at h
    cases h
  rw [applyUpdate, hrecord] at h
  obtain ⟨hfails, rfl⟩ := Prod.mk.inj h
  obtain ⟨hentries, hfault⟩ := Entries.applyPayload_error (Prod.ext hfails rfl)
  have htracker : (s.tracker.record u.event).2 = tracker := congrArg Prod.snd hrecord
  refine ⟨hentries, rfl, hfault, fun v hv => applyUpdate_of_refused ?_,
    fun past hrecalls hu meanwhile hmeanwhile v hv hsame hle => applyUpdate_of_refused ?_⟩
  · show tracker.record v.event = (false, tracker)
    rw [← htracker]
    exact s.tracker.record_again hv
  · have hknown := hrecalls.record hu
    rw [htracker] at hknown
    refine (recalls_deliver hknown hmeanwhile).record_of_le hv ?_ hsame hle
    exact List.mem_append_left _ (List.mem_append_right _ List.mem_cons_self)

/-- A delta of no kind, and an append under the same event. It is a duplicate also after two updates
that are applied, with the member named in its other form. -/
theorem applyUpdate_failed_delta :
    let plain : Bytes := [0, 1, 104, 0, 0, 0, 7, 0, 0, 0, 0, 0, 0]
    let padded := plain ++ MembershipId.padding
    let first : EventId := { membership := plain, thread := 3, sequence := 7 }
    let s : RegionState := {
      entries := .ofList [([107], { content := .string { octets := [97] } })]
      tracker := { records := [⟨padded, 3, 6⟩] } }
    let s' : RegionState := { s with tracker := { records := [⟨padded, 3, 7⟩] } }
    let append (event : EventId) : Update := {
      event, key := [107], payload := .delta (Delta.encode (.append 1 [98])) }
    let meanwhile := [append { first with thread := 4 }, append { first with sequence := 8 }]
    s.applyUpdate { event := first, key := [107], payload := .delta [9] }
        = (.error (.wire (.deltaTag 9)), s')
      ∧ s'.applyUpdate (append first) = (.ok .duplicate, s')
      ∧ (s'.deliver meanwhile).applyUpdate (append { first with membership := padded })
        = (.ok .duplicate, s'.deliver meanwhile)
      ∧ (s'.applyUpdate (append { first with thread := 4 })).1 = .ok .applied := by
  intro plain padded first s s' append meanwhile
  have hfails : s.applyUpdate { event := first, key := [107], payload := .delta [9] }
      = (.error (.wire (.deltaTag 9)), s') := by rfl
  have hplain : Member.essentialBytes { host := "h", port := 7 } .current = .ok plain := by rfl
  have hpadded := Member.essentialBytes_padded hplain ⟨rfl, rfl⟩
  let old : EventId := { membership := padded, thread := 3, sequence := 6 }
  have hold : old.FromMember := ⟨_, _, hpadded⟩
  have hrecalls : s.tracker.Recalls [old] := Tracker.recalls_empty.record hold
  obtain ⟨-, -, -, hnext, hlater⟩ := applyUpdate_failed hfails
  refine ⟨hfails, hnext (append first) ⟨rfl, rfl, Int64.le_refl 7⟩, ?_, by decide +kernel⟩
  refine hlater _ hrecalls ⟨_, _, hplain⟩ meanwhile ?_ _ ⟨_, _, hpadded⟩ (by decide)
    (Int64.le_refl 7)
  exact List.forall_mem_cons.2 ⟨⟨_, _, hplain⟩, List.forall_mem_singleton.2 ⟨_, _, hplain⟩⟩

/-- **The event of an update that fails is not given back.** What would have been applied is a
duplicate after a failure under its event. -/
theorem applyUpdate_failed_not_undone :
    let event : EventId := { membership := List.replicate 20 1, thread := 1, sequence := 1 }
    let unreadable : Update := { event, key := [107], payload := .full [] }
    let readable : Update := {
      event, key := [107]
      payload := .full (Entity.snapshot { content := .string { octets := [97] } }) }
    let s : RegionState := {}
    let s' := (s.applyUpdate unreadable).2
    (s.applyUpdate unreadable).1 = .error (.wire (.truncated 8 0))
      ∧ s'.tracker ≠ s.tracker
      ∧ (s.applyUpdate readable).1 = .ok .applied
      ∧ (s'.applyUpdate readable).1 = .ok .duplicate := by
  decide +kernel

end RegionState

end DataGrid
