import DataGrid.Proofs.Reply.Fate

/-!
# Records — a processor holds the fates of its recipients

A processor takes in one event at a time. An event about an awaited recipient decides that
recipient's fate and is filed under it, and every other event leaves the collections alone. So a
run from registration records exactly the fates that its events decide before a cancellation ends
it (`run_await_follows`).
-/

namespace DataGrid

open ProcessorEvent

namespace Processor

variable {p : Processor} {recipients : List Member} {isMember : Member → Bool}
variable {fates : Member → Option ProcessorEvent} {events : List ProcessorEvent}

/-! ## One step -/

theorem complete_eq (p : Processor) :
    p.complete = { p with ending := p.complete.ending } := by
  unfold complete
  split <;> rfl

theorem complete_ending (p : Processor) :
    p.complete.ending = p.ending.or (if p.pending.isEmpty then some .completed else none) := by
  unfold complete isDone
  cases h : p.ending <;> cases p.pending.isEmpty <;> simp [h]

/-- Completing touches no collection. -/
theorem Records.complete (h : p.Records recipients fates) :
    p.complete.Records recipients fates := by
  rw [complete_eq]
  exact ⟨h.pending, h.replies, h.exceptions, h.ignored, h.closed, h.departed⟩

/-- A recipient is awaited when nothing has ended the processor and its fate is open. -/
theorem Records.awaits_iff (h : p.Records recipients fates) {m : Member} :
    p.awaits m ↔ p.ending = none ∧ m ∈ recipients ∧ fates m = none := by
  unfold awaits isDone
  rw [h.pending]
  cases p.ending <;> simp

/-- Whom a processor awaits is resolved by a departure. -/
theorem Records.depart (h : p.Records recipients fates) {m : Member} (hm : p.awaits m) :
    (p.depart m).Records recipients (Function.update fates m (some (.departure m))) := by
  have hopen : fates m = none := (h.awaits_iff.1 hm).2.2
  rw [Processor.depart, if_pos hm]
  refine Records.complete ⟨fun j => ?_, fun j => ?_, fun j => ?_, fun j => ?_, fun j => ?_,
    fun j => ?_⟩
  all_goals
    by_cases hj : j = m
    · subst hj
      simp [h.replies, h.exceptions, h.ignored, h.closed, hopen, answered, failed, declined, isLast,
        isDeparture]
    · simp [hj, h.pending, h.replies, h.exceptions, h.ignored, h.closed, h.departed]

/-! Where a reply is filed, collection by collection. -/

theorem file_pending (p : Processor) (m : Member) (r : Reply) :
    (p.file m r).pending = p.pending := by
  unfold file
  split <;> split <;> [rfl; split <;> rfl; rfl; split <;> rfl]

theorem file_departed (p : Processor) (m : Member) (r : Reply) :
    (p.file m r).departed = p.departed := by
  unfold file
  split <;> split <;> [rfl; split <;> rfl; rfl; split <;> rfl]

theorem file_ending (p : Processor) (m : Member) (r : Reply) :
    (p.file m r).ending = p.ending := by
  unfold file
  split <;> split <;> [rfl; split <;> rfl; rfl; split <;> rfl]

theorem file_closed (p : Processor) (m : Member) (r : Reply) :
    (p.file m r).closed = if r.closed then p.closed.insert m else p.closed := by
  unfold file
  split <;> split <;> [rfl; split <;> rfl; rfl; split <;> rfl]

theorem file_ignored (p : Processor) (m : Member) (r : Reply) :
    (p.file m r).ignored = (declined (.reply m r)).elim p.ignored (p.ignored.insert m) := by
  cases hi : r.ignored <;> cases he : r.exception? <;> cases hc : r.closed <;>
    simp [file, declined, hi, he, hc]

theorem file_exceptions (p : Processor) (m : Member) (r : Reply) :
    (p.file m r).exceptions = (failed (.reply m r)).elim p.exceptions (p.exceptions.insert m) := by
  cases hi : r.ignored <;> cases he : r.exception? <;> cases hc : r.closed <;>
    simp [file, failed, hi, he, hc]

theorem file_replies (p : Processor) (m : Member) (r : Reply) :
    (p.file m r).replies = (answered (.reply m r)).elim p.replies (p.replies.insert m) := by
  cases hi : r.ignored <;> cases he : r.exception? <;> cases hc : r.closed <;>
    simp [file, answered, Reply.isException, hi, he, hc]

/-- Whom a processor awaits is resolved by a reply. -/
theorem Records.reply (h : p.Records recipients fates) {m : Member} (hm : p.awaits m) (r : Reply) :
    (p.reply m r).Records recipients (Function.update fates m (some (.reply m r))) := by
  have hopen : fates m = none := (h.awaits_iff.1 hm).2.2
  rw [Processor.reply, if_pos hm]
  refine Records.complete ⟨fun j => ?_, fun j => ?_, fun j => ?_, fun j => ?_, fun j => ?_,
    fun j => ?_⟩
  · rw [file_pending]
    by_cases hj : j = m <;> simp [hj, h.pending]
  · rw [file_replies, OrdMap.get?_elim_insert, h.replies]
    by_cases hj : j = m <;> simp [hj, hopen, h.replies]
  · rw [file_exceptions, OrdMap.get?_elim_insert, h.exceptions]
    by_cases hj : j = m <;> simp [hj, hopen, h.exceptions]
  · rw [file_ignored, OrdMap.get?_elim_insert, h.ignored]
    by_cases hj : j = m <;> simp [hj, hopen, h.ignored]
  · rw [file_closed]
    by_cases hj : j = m
    · subst hj
      cases hr : r.closed <;> simp [h.closed, hopen, isLast, hr]
    · cases r.closed <;> simp [hj, h.closed]
  · rw [file_departed]
    by_cases hj : j = m <;> simp [hj, hopen, h.departed, isDeparture]

theorem Records.pending_isEmpty_iff (h : p.Records recipients fates) :
    p.pending.isEmpty ↔ ∀ m ∈ recipients, (fates m).isSome := by
  simp only [OrdSet.isEmpty_iff, h.pending, Bool.and_eq_false_iff, decide_eq_false_iff_not,
    Option.isNone_eq_false_iff, imp_iff_not_or]

/-- What an event other than a cancellation makes of the fates. -/
theorem Records.on (h : p.Records recipients (fate recipients isMember events))
    (hp : p.ending = none) {e : ProcessorEvent} (he : e.isCancellation = false) :
    (p.on e).Records recipients (fate recipients isMember (events ++ [e])) := by
  -- An event about somebody who is not awaited decides nothing.
  have hskip : ∀ m, e.about? = some m → p.awaits m = false →
      fate recipients isMember (events ++ [e]) = fate recipients isMember events := by
    intro m hem hm
    funext j
    rw [fate_concat]
    by_cases hj : j ∈ recipients ∧ e.about? = some j
    · have hjm : j = m := Option.some.inj (hj.2.symm.trans hem)
      subst hjm
      have hsome : (fate recipients isMember events j).isSome := by
        rw [Option.isSome_iff_ne_none]
        intro hn
        rw [h.awaits_iff.2 ⟨hp, hj.1, hn⟩] at hm
        cases hm
      exact Option.or_of_isSome hsome
    · rw [if_neg hj, Option.or_none]
  -- An event about somebody who is awaited is the first one about them.
  have htake : ∀ m, e.about? = some m → p.awaits m →
      Function.update (fate recipients isMember events) m (some e)
        = fate recipients isMember (events ++ [e]) := by
    intro m hem hm
    obtain ⟨-, hmem, hopen⟩ := h.awaits_iff.1 hm
    funext j
    rw [fate_concat, hem]
    by_cases hj : j = m
    · subst hj
      simp [hopen, hmem]
    · simp [hj, Ne.symm hj]
  cases e with
  | reply m r =>
    by_cases hm : p.awaits m
    · exact htake m rfl hm ▸ h.reply hm r
    · rw [Processor.on, Processor.reply, if_neg hm, hskip m rfl (Bool.eq_false_iff.2 hm)]
      exact h
  | departure m =>
    by_cases hm : p.awaits m
    · exact htake m rfl hm ▸ h.depart hm
    · rw [Processor.on, Processor.depart, if_neg hm, hskip m rfl (Bool.eq_false_iff.2 hm)]
      exact h
  | cancellation sender cause => cases he

end Processor

end DataGrid
