import DataGrid.Proofs.Reply.Records

/-!
# Runs — a processor from its registration on

A processor follows the events since its registration: it records the fates that they decide
before a cancellation, and it has ended as soon as nobody is left to await or a cancellation came
(`Processor.Follows`). Registration establishes that, every event keeps it up, and the keeper that
holds the processor changes it by these events alone (`Keeper.get?_run`).
-/

namespace DataGrid

open ProcessorEvent

variable {recipients : List Member} {isMember : Member → Bool} {events : List ProcessorEvent}

instance : Decidable (AllResolved recipients isMember events) :=
  inferInstanceAs (Decidable (∀ m ∈ recipients, _ ∨ ∃ e ∈ events, _))

theorem early_append (events later : List ProcessorEvent) :
    ∃ rest, early (events ++ later) = early events ++ rest := by
  by_cases h : ∃ e ∈ events, e.isCancellation
  · exact ⟨[], by rw [early_append_of_cancelled h, List.append_nil]⟩
  · have hnone : ∀ e ∈ events, e.isCancellation = false := fun e he =>
      Bool.eq_false_iff.2 fun hc => h ⟨e, he, hc⟩
    refine ⟨early later, ?_⟩
    rw [early_eq_self hnone, early, List.takeWhile_append_of_pos fun e he => by simp [hnone e he]]
    rfl

/-- The first cancellation, if there is one, says how a processor ends that still awaits. -/
theorem exists_cancellation_iff :
    (∃ e ∈ events, e.isCancellation) ↔ (events.findSome? ending?).isSome := by
  rw [List.findSome?_isSome_iff]
  rfl

namespace Processor

variable {p : Processor}

/-- How a processor ends that was registered before the given events. -/
def endingAfter (recipients : List Member) (isMember : Member → Bool)
    (events : List ProcessorEvent) : Option Ending :=
  if AllResolved recipients isMember (early events) then some .completed
  else events.findSome? ending?

/-- **What a processor is after the events since its registration.** -/
structure Follows (p : Processor) (recipients : List Member) (isMember : Member → Bool)
    (events : List ProcessorEvent) : Prop where
  records : p.Records recipients (fate recipients isMember (early events))
  ending : p.ending = endingAfter recipients isMember events

/-! ## Registration -/

/-- Departures of recipients that are still open, each once. -/
theorem Records.foldl_depart {fates : Member → Option ProcessorEvent} (l : List Member)
    (h : p.Records recipients fates) (hp : p.ending = none) (hl : l.Nodup)
    (hopen : ∀ m ∈ l, m ∈ recipients ∧ fates m = none) :
    (l.foldl Processor.depart p).Records recipients
        (fun m => if m ∈ l then some (.departure m) else fates m)
      ∧ (l.foldl Processor.depart p).complete.ending
        = if (l.foldl Processor.depart p).pending.isEmpty then some .completed else none := by
  induction l generalizing p fates with
  | nil =>
    refine ⟨by simpa using h, ?_⟩
    rw [List.foldl_nil, complete_ending, hp, Option.none_or]
  | cons m l ih =>
    obtain ⟨hml, hl⟩ := List.nodup_cons.1 hl
    have haw : p.awaits m := h.awaits_iff.2 ⟨hp, hopen m List.mem_cons_self⟩
    have hnext := h.depart haw
    have hending : (p.depart m).ending
        = if (p.depart m).pending.isEmpty then some .completed else none := by
      rw [Processor.depart, if_pos haw, complete_ending, complete_eq, hp, Option.none_or]
    have hopen' : ∀ j ∈ l, j ∈ recipients
        ∧ Function.update fates m (some (.departure m)) j = none := by
      intro j hj
      obtain ⟨hjr, hjn⟩ := hopen j (List.mem_cons_of_mem _ hj)
      have hjm : j ≠ m := fun hjm => hml (hjm ▸ hj)
      exact ⟨hjr, by rw [Function.update_of_ne hjm, hjn]⟩
    have hfates : (fun j => if j ∈ l then some (ProcessorEvent.departure j)
          else Function.update fates m (some (.departure m)) j)
        = fun j => if j ∈ m :: l then some (.departure j) else fates j := by
      funext j
      by_cases hj : j = m
      · subst hj
        simp
      · simp [hj]
    rw [List.foldl_cons]
    rcases hlast : l with _ | ⟨j, rest⟩
    · subst hlast
      rw [← hfates, List.foldl_nil, complete_ending, hending]
      refine ⟨by simpa using hnext, ?_⟩
      split <;> rfl
    · -- Somebody is still open, so the processor goes on.
      have hgo : (p.depart m).ending = none := by
        rw [hending, if_neg]
        intro hempty
        obtain ⟨hjr, hjn⟩ := hopen' j (hlast ▸ List.mem_cons_self)
        have := hnext.pending_isEmpty_iff.1 hempty j hjr
        rw [hjn] at this
        cases this
      rw [← hlast, ← hfates]
      exact ih hnext hgo hl hopen'

/-- A processor follows from its registration on. -/
theorem follows_await (recipients : List Member) (isMember : Member → Bool) :
    (await recipients isMember).Follows recipients isMember [] := by
  have hstart : ({ pending := OrdSet.ofList recipients } : Processor).Records recipients
      fun _ => none :=
    ⟨fun m => by simp, fun _ => rfl, fun _ => rfl, fun _ => rfl, fun _ => rfl, fun _ => rfl⟩
  have hmem : ∀ m, m ∈ (OrdSet.ofList recipients).toList ↔ m ∈ recipients := fun m => by
    rw [OrdSet.mem_toList, OrdSet.contains_ofList, decide_eq_true_iff]
  have hnodup : ((OrdSet.ofList recipients).toList.filter fun m => !isMember m).Nodup :=
    (OrdSet.toList_nodup _).sublist List.filter_sublist
  obtain ⟨hrec, hend⟩ := hstart.foldl_depart _ rfl hnodup fun m hm =>
    ⟨(hmem m).1 (List.mem_filter.1 hm).1, rfl⟩
  have hfate : (fun m => if m ∈ (OrdSet.ofList recipients).toList.filter fun m => !isMember m
        then some (ProcessorEvent.departure m) else none)
      = fate recipients isMember (early []) := by
    funext m
    simp only [List.mem_filter, hmem]
    unfold fate
    by_cases hm : m ∈ recipients <;> cases isMember m <;> simp [hm, early]
  rw [hfate] at hrec
  refine ⟨hrec.complete, hend.trans ?_⟩
  simp only [hrec.pending_isEmpty_iff, ← allResolved_iff]
  rfl

/-! ## Events -/

theorem on_of_isDone (h : p.isDone) (e : ProcessorEvent) : p.on e = p := by
  cases e with
  | reply m r => exact if_neg (by simp [awaits, h])
  | departure m => exact if_neg (by simp [awaits, h])
  | cancellation sender cause => exact if_pos h

/-- An event other than a cancellation ends a processor exactly when it resolves the last. -/
theorem ending_on (hp : p.ending = none) (hpending : p.pending.isEmpty = false)
    {e : ProcessorEvent} (he : e.isCancellation = false) :
    (p.on e).ending = if (p.on e).pending.isEmpty then some .completed else none := by
  cases e with
  | reply m r =>
    simp only [Processor.on, Processor.reply]
    split
    · rw [complete_ending, complete_eq, file_ending, hp, Option.none_or]
    · simp [hp, hpending]
  | departure m =>
    simp only [Processor.on, Processor.depart]
    split
    · rw [complete_ending, complete_eq, hp, Option.none_or]
    · simp [hp, hpending]
  | cancellation sender cause => cases he

/-- Once a processor has ended, later events change neither a fate nor the ending. -/
theorem endingAfter_append (h : (endingAfter recipients isMember events).isSome)
    (later : List ProcessorEvent) :
    fate recipients isMember (early (events ++ later)) = fate recipients isMember (early events)
      ∧ endingAfter recipients isMember (events ++ later)
        = endingAfter recipients isMember events := by
  unfold endingAfter at h ⊢
  by_cases hall : AllResolved recipients isMember (early events)
  · obtain ⟨rest, hrest⟩ := early_append events later
    rw [hrest, if_pos (hall.append rest), if_pos hall]
    exact ⟨hall.fate_append rest, rfl⟩
  · rw [if_neg hall] at h
    rw [early_append_of_cancelled (exists_cancellation_iff.2 h), if_neg hall, if_neg hall,
      List.findSome?_append, Option.or_of_isSome h]
    exact ⟨rfl, rfl⟩

theorem endingAfter_eq_none_iff :
    endingAfter recipients isMember events = none
      ↔ ¬ AllResolved recipients isMember events ∧ ∀ e ∈ events, e.isCancellation = false := by
  have hnone : events.findSome? ending? = none ↔ ∀ e ∈ events, e.isCancellation = false := by
    simp [isCancellation]
  unfold endingAfter
  constructor
  · intro h
    split at h
    · cases h
    · next hall =>
      have hfree := hnone.1 h
      exact ⟨early_eq_self hfree ▸ hall, hfree⟩
  · rintro ⟨hall, hfree⟩
    rw [early_eq_self hfree, if_neg hall, hnone.2 hfree]

/-- **Every event is followed.** -/
theorem Follows.on (h : p.Follows recipients isMember events) (e : ProcessorEvent) :
    (p.on e).Follows recipients isMember (events ++ [e]) := by
  by_cases hdone : p.isDone
  · -- The events so far settle the fates and the ending.
    have hended : (endingAfter recipients isMember events).isSome := by rw [← h.ending]; exact hdone
    obtain ⟨hfate, hend⟩ := endingAfter_append hended [e]
    rw [on_of_isDone hdone]
    exact ⟨by rw [hfate]; exact h.records, by rw [hend]; exact h.ending⟩
  -- The processor is open, so no event so far was a cancellation.
  have hopen : p.ending = none := by simpa [isDone] using hdone
  obtain ⟨hwait, hnone⟩ := endingAfter_eq_none_iff.1 (h.ending.symm.trans hopen)
  have hearly : early events = events := early_eq_self hnone
  have hrec := hearly ▸ h.records
  cases he : e.isCancellation with
  | true =>
    obtain ⟨sender, cause, rfl⟩ : ∃ sender cause, e = .cancellation sender cause := by
      cases e with
      | cancellation sender cause => exact ⟨sender, cause, rfl⟩
      | reply | departure => cases he
    have hstop : early (events ++ [.cancellation sender cause]) = events := by
      rw [early, List.takeWhile_append_of_pos fun e he => by simp [hnone e he]]
      exact List.append_nil events
    have hcancel : p.on (.cancellation sender cause)
        = { p with ending := some (.cancelled sender cause) } := if_neg hdone
    refine ⟨?_, ?_⟩
    · rw [hcancel, hstop]
      exact ⟨hrec.pending, hrec.replies, hrec.exceptions, hrec.ignored, hrec.closed,
        hrec.departed⟩
    · rw [hcancel, endingAfter, hstop, if_neg hwait, List.findSome?_append,
        List.findSome?_eq_none_iff.2 fun e he => by simpa [isCancellation] using hnone e he]
      rfl
  | false =>
    have hgo : ∀ j ∈ events ++ [e], j.isCancellation = false := by
      intro j hj
      rcases List.mem_append.1 hj with hj | hj
      · exact hnone j hj
      · rw [List.mem_singleton.1 hj, he]
    have hnext := hrec.on hopen he
    refine ⟨by rwa [early_eq_self hgo], ?_⟩
    have hpending : p.pending.isEmpty = false := by
      rwa [Bool.eq_false_iff, Ne, hrec.pending_isEmpty_iff, ← allResolved_iff]
    rw [ending_on hopen hpending he, endingAfter, early_eq_self hgo,
      List.findSome?_eq_none_iff.2 fun j hj => by simpa [isCancellation] using hgo j hj]
    simp only [hnext.pending_isEmpty_iff, ← allResolved_iff]

theorem Follows.run (h : p.Follows recipients isMember events) (later : List ProcessorEvent) :
    (p.run later).Follows recipients isMember (events ++ later) := by
  induction later generalizing p events with
  | nil => simpa [Processor.run] using h
  | cons e later ih =>
    rw [List.append_cons]
    exact ih (h.on e)

/-- A registered processor follows every run. -/
theorem follows_run_await (recipients : List Member) (isMember : Member → Bool)
    (events : List ProcessorEvent) :
    ((await recipients isMember).run events).Follows recipients isMember events := by
  simpa using (follows_await recipients isMember).run events

end Processor

/-! ## The keeper -/

namespace Keeper

variable {k : Keeper} {ticket : Nat}

/-- Lets an event happen to the processor of a ticket. -/
def on (k : Keeper) (ticket : Nat) : ProcessorEvent → Keeper
  | .reply sender r => k.reply ticket sender r
  | .departure m => k.depart ticket m
  | .cancellation sender cause => k.cancel ticket sender cause

/-- Lets events happen in turn to the processor of a ticket. -/
def run (k : Keeper) (ticket : Nat) (events : List ProcessorEvent) : Keeper :=
  events.foldl (fun k e => k.on ticket e) k

/-- Registers a processor for the answers of recipients and lets events happen to it. What becomes
of the processor is the result. -/
def observe (k : Keeper) (recipients : List Member) (isMember : Member → Bool)
    (events : List ProcessorEvent) : Option Registration :=
  let (ticket, k) := k.register (.await recipients isMember)
  (k.run ticket events).get? ticket

@[simp] theorem live_unregister (k : Keeper) (ticket : Nat) :
    (k.unregister ticket).live = k.live := by
  unfold unregister
  split
  · split <;> rfl
  · rfl

/-- A ticket finds the processor that it was given for. -/
theorem get?_register (k : Keeper) (p : Processor) :
    (k.register p).2.get? (k.register p).1 = some { id := k.freshId.1, processor := p } := by
  unfold register get?
  dsimp only
  split <;> simp

theorem get?_update (k : Keeper) (ticket : Nat) (f : Processor → Processor) :
    (k.update ticket f).get? ticket
      = (k.get? ticket).map fun r => { r with processor := f r.processor } := by
  unfold update
  split
  · next r h =>
    rw [h]
    unfold get?
    dsimp only
    split <;> simp
  · next h => rw [h]; rfl

theorem get?_on (k : Keeper) (ticket : Nat) (e : ProcessorEvent) :
    (k.on ticket e).get? ticket
      = (k.get? ticket).map fun r => { r with processor := r.processor.on e } := by
  cases e <;> exact get?_update k ticket _

/-- **Events change the processor of their ticket and nothing else about it.** -/
theorem get?_run (k : Keeper) (ticket : Nat) (events : List ProcessorEvent) :
    (k.run ticket events).get? ticket
      = (k.get? ticket).map fun r => { r with processor := r.processor.run events } := by
  induction events generalizing k with
  | nil => exact Option.map_id'.symm
  | cons e events ih =>
    refine (ih (k.on ticket e)).trans ?_
    rw [get?_on, Option.map_map]
    rfl

theorem observe_eq (k : Keeper) (recipients : List Member) (isMember : Member → Bool)
    (events : List ProcessorEvent) :
    k.observe recipients isMember events
      = some {
          id := k.freshId.1, processor := (Processor.await recipients isMember).run events } := by
  unfold observe
  dsimp only
  rw [get?_run, get?_register]
  rfl

end Keeper

end DataGrid
