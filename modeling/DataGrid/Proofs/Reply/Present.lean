import DataGrid.Proofs.Reply.Calls

/-!
# Present — who waits, waits for members

The processors of a roll that wait await nobody who is not here (`Roll.AwaitsOnly`). A processor
that is registered counts strangers as departed, events only ever take somebody off the awaited,
and a departure is told to everybody who waits. So calls keep it up, and it survives that a member
leaves if that is told at once. A processor that waits for members only has ended as soon as no
member among its recipients is silent (`Roll.AwaitsOnly.isDone`).
-/

namespace DataGrid

namespace Processor

theorem pending_complete (p : Processor) : p.complete.pending = p.pending := by
  rw [complete_eq]

/-- An event adds nobody to the awaited. -/
theorem contains_pending_on {p : Processor} {e : ProcessorEvent} {m : Member}
    (h : (p.on e).pending.contains m) : p.pending.contains m := by
  have herase : ∀ j : Member, (p.pending.erase j).contains m → p.pending.contains m := by
    intro j hj
    rw [OrdSet.contains_erase, Bool.and_eq_true] at hj
    exact hj.2
  cases e with
  | reply j r =>
    rw [on, reply] at h
    split at h
    · rw [pending_complete, file_pending] at h
      exact herase j h
    · exact h
  | departure j =>
    rw [on, depart] at h
    split at h
    · rw [pending_complete] at h
      exact herase j h
    · exact h
  | cancellation sender cause =>
    rw [on, cancel] at h
    split at h <;> exact h

/-- Whoever has departed is not awaited. -/
theorem not_contains_pending_depart {p : Processor} (h : p.isDone = false) (m : Member) :
    (p.depart m).pending.contains m = false := by
  rw [depart, awaits, h, Bool.not_false, Bool.true_and]
  split
  · rw [pending_complete, OrdSet.contains_erase]
    simp
  · next hm => exact Bool.eq_false_iff.2 hm

/-- From the start on, only members are awaited. -/
theorem isMember_of_pending_await {recipients : List Member} {isMember : Member → Bool}
    {m : Member} (h : (await recipients isMember).pending.contains m) : isMember m := by
  rw [(follows_await recipients isMember).records.pending, Bool.and_eq_true,
    decide_eq_true_iff] at h
  by_contra hm
  rw [fate, if_pos h.1, if_neg hm] at h
  cases h.2

end Processor

namespace Enrolment

variable {x : Enrolment} {m : Member} {e : ProcessorEvent}

theorem waits_of_note (h : (x.note e).waits) : x.waits := by
  by_contra hnot
  rw [waits_note_of_not (Bool.eq_false_iff.2 hnot)] at h
  cases h

theorem not_isDone_of_waits (h : x.waits) : x.processor.isDone = false := by
  rw [waits, Bool.and_eq_true, Bool.not_eq_true'] at h
  exact h.2

theorem contains_pending_of_note (h : (x.note e).processor.pending.contains m) :
    x.processor.pending.contains m := by
  by_cases hkept : x.isKept
  · rw [processor_note hkept] at h
    exact Processor.contains_pending_on h
  · rw [note, if_neg hkept] at h
    exact h

/-- A processor that has not ended awaits a recipient of which nothing is known since it was
registered. -/
theorem exists_pending (h : x.processor.isDone = false) :
    ∃ m ∈ x.recipients, x.processor.pending.contains m ∧ ∀ r, .reply m r ∉ x.events := by
  have hfollows := Processor.follows_run_await x.recipients x.isMember x.events
  have hopen : ¬ (AllResolved x.recipients x.isMember x.events
      ∨ ∃ e ∈ x.events, e.isCancellation) := by
    rw [← hfollows.isDone_iff]
    exact Bool.eq_false_iff.1 h
  rw [not_or] at hopen
  have hearly : early x.events = x.events := early_eq_self fun e he =>
    Bool.eq_false_iff.2 fun hc => hopen.2 ⟨e, he, hc⟩
  obtain ⟨m, hm, hsilent⟩ : ∃ m ∈ x.recipients,
      ¬ (x.isMember m = false ∨ ∃ e ∈ x.events, e.about? = some m) := by
    by_contra hall
    exact hopen.1 fun m hm => not_not.1 fun hnot => hall ⟨m, hm, hnot⟩
  rw [not_or, Bool.not_eq_false] at hsilent
  refine ⟨m, hm, ?_, fun r hr => hsilent.2 ⟨_, hr, rfl⟩⟩
  have hfate : fate x.recipients x.isMember (early x.events) m = none := by
    rw [hearly, fate, if_pos hm, if_pos hsilent.1, List.find?_eq_none]
    intro e he habout
    exact hsilent.2 ⟨e, he, of_decide_eq_true habout⟩
  have hpending := hfollows.records.pending m
  rw [hfate, decide_eq_true hm] at hpending
  exact hpending

end Enrolment

namespace Roll

variable {l : Roll} {here : Member → Bool}

/-- Whether the processors that wait await nobody who is not here. -/
def AwaitsOnly (here : Member → Bool) (l : Roll) : Prop :=
  ∀ x ∈ l, x.waits → ∀ m, x.processor.pending.contains m → here m

theorem awaitsOnly_nil (here : Member → Bool) : AwaitsOnly here [] := nofun

theorem AwaitsOnly.mono (h : AwaitsOnly here l) {here' : Member → Bool}
    (hmore : ∀ m, here m → here' m) : AwaitsOnly here' l :=
  fun x hx hw m hm => hmore m (h x hx hw m hm)

/-- A change that neither makes a processor wait nor adds to the awaited. -/
theorem AwaitsOnly.modify (h : AwaitsOnly here l) (t : Nat) {f : Enrolment → Enrolment}
    (hwaits : ∀ x, (f x).waits → x.waits)
    (hpending : ∀ x m, (f x).waits → (f x).processor.pending.contains m →
      x.processor.pending.contains m) : AwaitsOnly here (l.modify t f) := by
  intro y hy hw m hm
  obtain ⟨j, hj⟩ := List.getElem?_of_mem hy
  rw [List.getElem?_modify] at hj
  obtain ⟨x, hx, hxy⟩ := Option.map_eq_some_iff.1 hj
  have hxl := List.mem_of_getElem? hx
  split at hxy
  · subst hxy
    exact h x hxl (hwaits x hw) m (hpending x m hw hm)
  · subst hxy
    exact h x hxl hw m hm

theorem AwaitsOnly.note (h : AwaitsOnly here l) (t : Nat) (e : ProcessorEvent) :
    AwaitsOnly here (l.modify t (·.note e)) :=
  h.modify t (fun _ hw => Enrolment.waits_of_note hw)
    fun _ _ _ hm => Enrolment.contains_pending_of_note hm

/-- **Who leaves is awaited no longer**, once everybody who waits has heard of it. -/
theorem AwaitsOnly.memberDeparted (h : AwaitsOnly here l) (m : Member) (id : Int32) :
    AwaitsOnly (fun j => j ≠ m && here j) (l.call id (.memberDeparted m)) := by
  intro y hy hw j hj
  obtain ⟨x, hx, rfl⟩ := List.mem_map.1 hy
  have hxw : x.waits := by
    split at hw
    · next hxw => exact hxw
    · exact hw
  rw [if_pos hxw] at hj
  rw [Bool.and_eq_true, decide_eq_true_iff]
  refine ⟨?_, h x hx hxw j (Enrolment.contains_pending_of_note hj)⟩
  rintro rfl
  have hgone : ((x.note (.departure j)).processor).pending.contains j = false := by
    rw [Enrolment.processor_note (Enrolment.isKept_of_waits hxw)]
    exact Processor.not_contains_pending_depart (Enrolment.not_isDone_of_waits hxw) j
  rw [hgone] at hj
  cases hj

/-- **Calls add nobody who is not here to the awaited.** -/
theorem AwaitsOnly.call (h : AwaitsOnly here l) (id : Int32) (c : KeeperCall)
    (hc : ∀ recipients isMember, c = .register recipients isMember →
      ∀ m, isMember m → here m) : AwaitsOnly here (l.call id c) := by
  cases c with
  | register recipients isMember =>
    intro x hx hw m hm
    rcases List.mem_append.1 hx with hx | hx
    · exact h x hx hw m hm
    · obtain rfl := List.mem_singleton.1 hx
      exact hc recipients isMember rfl m (Processor.isMember_of_pending_await hm)
  | processReply sender r =>
    rw [Roll.call]
    split
    · exact h.note _ _
    · exact h
  | memberDeparted m =>
    refine (h.memberDeparted m id).mono fun j hj => ?_
    exact (Bool.and_eq_true _ _ ▸ hj).2
  | event t e => exact h.note t e
  | drop t =>
    refine h.modify t (fun x hw => ?_) fun _ _ _ hm => hm
    rw [Enrolment.waits, Bool.false_and] at hw
    cases hw
  | hold t =>
    refine h.modify t (fun x hw => ?_) fun x m _ hm => ?_
    · split at hw <;> exact hw
    · split at hm <;> exact hm
  | release t => exact h.modify t (fun _ hw => hw) fun _ _ _ hm => hm

/-- **A processor has ended when no member among its recipients is silent**, if those that wait
await members only. -/
theorem AwaitsOnly.isDone (h : AwaitsOnly here l) {x : Enrolment} (hx : x ∈ l) (howned : x.owned)
    (hreplied : ∀ m ∈ x.recipients, here m → ∃ r, .reply m r ∈ x.events) :
    x.processor.isDone := by
  by_contra hopen
  have hopen : x.processor.isDone = false := Bool.eq_false_iff.2 hopen
  obtain ⟨m, hm, hpending, hsilent⟩ := Enrolment.exists_pending hopen
  have hwaits : x.waits := by rw [Enrolment.waits, howned, hopen, Bool.true_and, Bool.not_false]
  obtain ⟨r, hr⟩ := hreplied m hm (h x hx hwaits m hpending)
  exact hsilent r hr

end Roll

end DataGrid
