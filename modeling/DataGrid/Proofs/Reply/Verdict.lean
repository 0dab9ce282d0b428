import DataGrid.Proofs.Reply.Run

/-!
# Verdicts — what a wait gives depends on first events only

A processor is done as soon as every recipient has met its fate or a cancellation came, whichever
is first, and nothing changes it from then on. What a wait gives is the verdict on the events
(`verdict`), which reads nothing but the first event about each recipient and the first
cancellation. So replies and departures may come in any order, and repeat, as long as the first
about each recipient stays the same.
-/

namespace DataGrid

open ProcessorEvent

/-- The outcome of fates that are all decided: the failures if there are any, and otherwise what
the recipients replied. -/
def tally (recipients : List Member) (fates : Member → Option ProcessorEvent) :
    Except ReplyError Outcome :=
  let failures := OrdMap.collect recipients fun m => (fates m).bind failed
  if failures.isEmpty then
    .ok {
      replies := .collect recipients fun m => (fates m).bind answered
      ignored := .collect recipients fun m => (fates m).bind declined
      closed := (OrdSet.ofList recipients).filter fun m => (fates m).any isLast
      departed := (OrdSet.ofList recipients).filter fun m => (fates m).any isDeparture }
  else .error (.remote failures)

/-- The recipients without a fate, in the order of members. -/
def outstanding (recipients : List Member) (fates : Member → Option ProcessorEvent) :
    List Member :=
  ((OrdSet.ofList recipients).filter fun m => (fates m).isNone).toList

/-- **What a wait gives after events**, read off the first event about each recipient and the first
cancellation. -/
def verdict (id : Int32) (recipients : List Member) (isMember : Member → Bool)
    (events : List ProcessorEvent) : Except ReplyError Outcome :=
  if AllResolved recipients isMember (early events) then
    tally recipients (fate recipients isMember events)
  else
    match events.findSome? ending? with
    | some (.cancelled sender cause) => .error (.cancelled sender cause)
    | _ => .error (.timeout id (outstanding recipients (fate recipients isMember events)))

variable {recipients : List Member} {isMember : Member → Bool} {events others : List ProcessorEvent}
variable {fates : Member → Option ProcessorEvent}

theorem mem_outstanding {m : Member} :
    m ∈ outstanding recipients fates ↔ m ∈ recipients ∧ fates m = none := by
  rw [outstanding, OrdSet.mem_toList, OrdSet.contains_filter, OrdSet.contains_ofList]
  simp

/-- If a wait succeeds, every recipient has met its fate, and nobody has failed. -/
theorem fate_of_verdict_ok {id : Int32} {o : Outcome}
    (h : verdict id recipients isMember events = .ok o) {m : Member} (hm : m ∈ recipients) :
    ∃ e, fate recipients isMember events m = some e ∧ failed e = none := by
  rw [verdict] at h
  split at h
  · next hall =>
    obtain ⟨rest, hrest⟩ : ∃ rest, events = early events ++ rest :=
      ⟨_, (List.takeWhile_append_dropWhile (l := events)).symm⟩
    have hmet : (fate recipients isMember events m).isSome := by
      rw [hrest, hall.fate_append rest]
      exact allResolved_iff.1 hall m hm
    obtain ⟨e, he⟩ := Option.isSome_iff_exists.1 hmet
    refine ⟨e, he, ?_⟩
    dsimp only [tally] at h
    split at h
    · next hempty =>
      have hnone := OrdMap.isEmpty_iff.1 hempty m
      rwa [OrdMap.get?_collect, if_pos hm, he, Option.bind_some] at hnone
    · cases h
  · split at h <;> cases h

theorem outstanding_ascending :
    (outstanding recipients fates).Pairwise fun a b => compare a b = .lt :=
  OrdSet.toList_ascending _

namespace Processor

variable {p q : Processor}

/-! ## Collections by fates -/

theorem Records.collect_eq {ν : Type} {m : OrdMap Member ν} {f : ProcessorEvent → Option ν}
    (hfates : ∀ m, m ∉ recipients → fates m = none) (h : ∀ j, m.get? j = (fates j).bind f) :
    m = .collect recipients fun j => (fates j).bind f := by
  refine OrdMap.ext_get? fun j => ?_
  rw [OrdMap.get?_collect, h]
  split
  · rfl
  · next hj => rw [hfates j hj]; rfl

theorem Records.filter_eq {s : OrdSet Member} {f : ProcessorEvent → Bool}
    (hfates : ∀ m, m ∉ recipients → fates m = none) (h : ∀ j, s.contains j = (fates j).any f) :
    s = (OrdSet.ofList recipients).filter fun j => (fates j).any f := by
  refine OrdSet.ext_contains fun j => ?_
  rw [OrdSet.contains_filter, OrdSet.contains_ofList, h]
  by_cases hj : j ∈ recipients
  · simp [hj]
  · simp [hj, hfates j hj]

/-- The outcome of a processor that was not cancelled is the tally of what it records. -/
theorem Records.outcome (h : p.Records recipients fates)
    (hfates : ∀ m, m ∉ recipients → fates m = none) (hp : p.ending = some .completed) :
    p.outcome = tally recipients fates := by
  rw [Processor.outcome, hp, tally, ← collect_eq hfates h.exceptions, ← collect_eq hfates h.replies,
    ← collect_eq hfates h.ignored, ← filter_eq hfates h.closed, ← filter_eq hfates h.departed]

/-- A processor awaits exactly the recipients whose fate is open. -/
theorem Records.pending_toList (h : p.Records recipients fates) :
    p.pending.toList = outstanding recipients fates := by
  have hset : p.pending = (OrdSet.ofList recipients).filter fun m => (fates m).isNone :=
    OrdSet.ext_contains fun m => by
      rw [h.pending, OrdSet.contains_filter, OrdSet.contains_ofList, Bool.and_comm]
  rw [hset, outstanding]

/-- Processors that record the same and ended alike are the same. -/
theorem Records.unique (h : p.Records recipients fates) (hq : q.Records recipients fates)
    (hend : p.ending = q.ending) : p = q := by
  obtain ⟨pending, replies, exceptions, ignored, closed, departed, ending⟩ := p
  obtain ⟨pending', replies', exceptions', ignored', closed', departed', ending'⟩ := q
  obtain rfl : pending = pending' :=
    OrdSet.ext_contains fun m => (h.pending m).trans (hq.pending m).symm
  obtain rfl : replies = replies' :=
    OrdMap.ext_get? fun m => (h.replies m).trans (hq.replies m).symm
  obtain rfl : exceptions = exceptions' :=
    OrdMap.ext_get? fun m => (h.exceptions m).trans (hq.exceptions m).symm
  obtain rfl : ignored = ignored' :=
    OrdMap.ext_get? fun m => (h.ignored m).trans (hq.ignored m).symm
  obtain rfl : closed = closed' :=
    OrdSet.ext_contains fun m => (h.closed m).trans (hq.closed m).symm
  obtain rfl : departed = departed' :=
    OrdSet.ext_contains fun m => (h.departed m).trans (hq.departed m).symm
  obtain rfl : ending = ending' := hend
  rfl

/-! ## Waiting -/

theorem Follows.isDone_iff (h : p.Follows recipients isMember events) :
    p.isDone ↔ AllResolved recipients isMember events ∨ ∃ e ∈ events, e.isCancellation := by
  have hopen : p.isDone = false ↔ endingAfter recipients isMember events = none := by
    rw [isDone, h.ending, Option.isSome_eq_false_iff, Option.isNone_iff_eq_none]
  rw [← Bool.not_eq_false, hopen, endingAfter_eq_none_iff]
  simp only [not_and_or, not_not, not_forall, Bool.not_eq_false, exists_prop]

/-- **What a wait gives is the verdict on the events.** -/
theorem Follows.wait (h : p.Follows recipients isMember events) (id : Int32) :
    p.wait id = verdict id recipients isMember events := by
  have hending := h.ending
  rw [endingAfter] at hending
  rw [verdict]
  by_cases hall : AllResolved recipients isMember (early events)
  · rw [if_pos hall] at hending ⊢
    obtain ⟨rest, hrest⟩ : ∃ rest, events = early events ++ rest :=
      ⟨_, (List.takeWhile_append_dropWhile (l := events)).symm⟩
    have hfate := hall.fate_append rest
    rw [← hrest] at hfate
    have hdone : p.isDone := by rw [isDone, hending]; rfl
    rw [Processor.wait, if_pos hdone, hfate]
    exact h.records.outcome (fun m => fate_of_not_mem) hending
  · rw [if_neg hall] at hending ⊢
    rcases hfirst : events.findSome? ending? with _ | ⟨_ | ⟨sender, cause⟩⟩
    · -- Nothing ended the wait in time.
      rw [hfirst] at hending
      have hfree : ∀ e ∈ events, e.isCancellation = false := by
        simpa [isCancellation] using hfirst
      have hrec := h.records
      rw [early_eq_self hfree] at hrec
      have hdone : ¬p.isDone := by simp [isDone, hending]
      rw [Processor.wait, if_neg hdone, hrec.pending_toList]
    · obtain ⟨e, -, he⟩ := List.exists_of_findSome?_eq_some hfirst
      cases e <;> cases he
    · rw [hfirst] at hending
      have hdone : p.isDone := by rw [isDone, hending]; rfl
      rw [Processor.wait, if_pos hdone, Processor.outcome, hending]

/-- Without cancellations the fates alone say how a processor ended. -/
theorem endingAfter_congr (hevents : ∀ e ∈ events, e.isCancellation = false)
    (hothers : ∀ e ∈ others, e.isCancellation = false)
    (hfate : fate recipients isMember events = fate recipients isMember others) :
    endingAfter recipients isMember events = endingAfter recipients isMember others := by
  have hnone : ∀ l : List ProcessorEvent, (∀ e ∈ l, e.isCancellation = false) →
      l.findSome? ending? = none := fun l hl => by
    simpa [isCancellation] using hl
  simp only [endingAfter, early_eq_self hevents, early_eq_self hothers, allResolved_iff, hfate,
    hnone events hevents, hnone others hothers]

/-- Nothing changes a processor that is done. -/
theorem run_of_isDone (h : p.isDone) (later : List ProcessorEvent) : p.run later = p := by
  induction later with
  | nil => rfl
  | cons e later ih => rw [run, List.foldl_cons, on_of_isDone h]; exact ih

end Processor

/-! ## Every run -/

/-- **A processor's outcome is a function of first events.** After any events a registered
processor is done exactly when its recipients are resolved or a cancellation came, what a wait
gives is the verdict, and once it is done no later event changes anything. Events without a
cancellation that agree on the first event about each recipient leave the same processor, and a
wait that is too short reports the recipients that nothing resolved, in the order of members. -/
theorem Keeper.observe_verdict (k : Keeper) (recipients : List Member) (isMember : Member → Bool)
    (events : List ProcessorEvent) :
    ∃ r, k.observe recipients isMember events = some r
      ∧ (r.processor.isDone
          ↔ AllResolved recipients isMember events ∨ ∃ e ∈ events, e.isCancellation)
      ∧ r.processor.wait r.id = verdict r.id recipients isMember events
      ∧ (r.processor.isDone → ∀ later, k.observe recipients isMember (events ++ later) = some r)
      ∧ (∀ others, (∀ e ∈ events ++ others, e.isCancellation = false) →
          (∀ m ∈ recipients,
            fate recipients isMember events m = fate recipients isMember others m) →
          k.observe recipients isMember others = some r)
      ∧ (∀ m, m ∈ outstanding recipients (fate recipients isMember events)
          ↔ m ∈ recipients ∧ fate recipients isMember events m = none)
      ∧ (outstanding recipients (fate recipients isMember events)).Pairwise
          fun a b => compare a b = .lt := by
  have hfollows := Processor.follows_run_await recipients isMember
  refine ⟨_, k.observe_eq _ _ _, (hfollows events).isDone_iff, (hfollows events).wait _,
    fun hdone later => ?_, fun others hfree hagree => ?_,
    fun _ => mem_outstanding, outstanding_ascending⟩
  · have hrun : (Processor.await recipients isMember).run (events ++ later)
        = ((Processor.await recipients isMember).run events).run later := List.foldl_append
    rw [k.observe_eq, hrun, Processor.run_of_isDone hdone later]
  · have hevents : ∀ e ∈ events, e.isCancellation = false := fun e he =>
      hfree e (List.mem_append_left _ he)
    have hothers : ∀ e ∈ others, e.isCancellation = false := fun e he =>
      hfree e (List.mem_append_right _ he)
    have hfate : fate recipients isMember others = fate recipients isMember events := by
      funext m
      by_cases hm : m ∈ recipients
      · exact (hagree m hm).symm
      · rw [fate_of_not_mem hm, fate_of_not_mem hm]
    have hsame : (Processor.await recipients isMember).run others
        = (Processor.await recipients isMember).run events := by
      have hrec := (hfollows others).records
      rw [early_eq_self hothers, hfate, ← early_eq_self hevents] at hrec
      refine hrec.unique (hfollows events).records ?_
      rw [(hfollows others).ending, (hfollows events).ending,
        Processor.endingAfter_congr hothers hevents hfate]
    rw [k.observe_eq, hsame]

end DataGrid
