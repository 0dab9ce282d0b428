import DataGrid.Proofs.Reply.Verdict

/-!
# Tenure — a keeper while one processor waits

A member that waits for one round of answers at a time has a keeper with an empty table between
rounds, and with the one entry of the processor during a round. An answer that names the processor
reaches it through that entry, until it has ended and its entry goes by itself. When everybody
has answered plainly, the wait has an outcome and nobody asks for the whole value.
-/

namespace DataGrid

open ProcessorEvent

namespace Keeper

/-- Whether nothing waits at a keeper. Its next number is positive. -/
structure Idle (k : Keeper) : Prop where
  table : k.table = .empty
  next : 0 < k.next.toInt

/-- Whether one processor waits at a keeper, under a ticket and a number. -/
structure Awaits (k : Keeper) (ticket : Nat) (id : Int32) (p : Processor) : Prop where
  live : k.get? ticket = some { id, processor := p }
  table : k.table = if p.isDone then .empty else OrdMap.empty.insert id ticket
  id : 0 < id.toInt
  next : 0 < k.next.toInt

variable {k : Keeper} {ticket : Nat} {id : Int32} {p : Processor}

theorem ne_zero_of_pos {id : Int32} (h : 0 < id.toInt) : id ≠ 0 := by
  rintro rfl
  exact absurd h (by decide)

theorem idle_empty : Idle {} := ⟨rfl, by decide⟩

/-- The number that an idle keeper gives out. -/
theorem Idle.freshId (h : k.Idle) :
    k.freshId = (k.next, { k with next := if k.next = maxId then 1 else k.next + 1 }) := by
  have hfree : ∀ next, isFree { k with next } k.next = true := fun next => by
    rw [isFree, h.table]
    rfl
  have hsize : k.table.size = 0 := by
    rw [h.table]
    rfl
  rw [Keeper.freshId, hsize, searchId]
  simp only [candidate, hfree, if_true, Option.getD_some]

theorem next_pos (h : 0 < k.next.toInt) :
    0 < (if k.next = maxId then 1 else k.next + 1).toInt := by
  split
  · decide
  · next hmax =>
    have hlt := k.next.toInt_lt
    have hne : k.next.toInt ≠ 2147483647 := fun heq => hmax (Int32.toInt.inj (by rw [heq]; rfl))
    have hone : (1 : Int32).toInt = 1 := rfl
    rw [Int32.toInt_add, hone]
    simp only [Int.bmod]
    omega

/-- An entry goes when its processor has ended. -/
theorem table_unregister (hlive : k.get? ticket = some { id, processor := p })
    (htable : k.table = OrdMap.empty.insert id ticket) :
    (k.unregister ticket).table = .empty := by
  have hentry : k.table.get? id = some ticket := by rw [htable, OrdMap.get?_insert_self]
  rw [unregister, hlive]
  simp only [if_pos hentry]
  rw [htable, OrdMap.erase_insert_of_get?_eq_none ticket rfl]

theorem next_unregister (k : Keeper) (ticket : Nat) : (k.unregister ticket).next = k.next := by
  unfold unregister
  split
  · split <;> rfl
  · rfl

theorem get?_unregister (k : Keeper) (ticket t : Nat) :
    (k.unregister ticket).get? t = k.get? t := by
  rw [get?, get?, live_unregister]

/-- A processor that waits, or has just ended, behind the entry that was made for it. -/
theorem awaits_of_entry (hlive : k.get? ticket = some { id, processor := p })
    (htable : k.table = OrdMap.empty.insert id ticket) (hid : 0 < id.toInt)
    (hnext : 0 < k.next.toInt) :
    (if p.isDone then k.unregister ticket else k).Awaits ticket id p := by
  split
  · next hdone =>
    refine ⟨by rw [get?_unregister, hlive], ?_, hid, by rw [next_unregister]; exact hnext⟩
    rw [table_unregister hlive htable, if_pos hdone]
  · next hdone => exact ⟨hlive, by rw [htable, if_neg hdone], hid, hnext⟩

/-- A processor that is registered at an idle keeper waits there. -/
theorem Idle.register (h : k.Idle) (p : Processor) :
    (k.register p).2.Awaits (k.register p).1 k.next p := by
  unfold Keeper.register
  rw [h.freshId]
  dsimp only
  refine awaits_of_entry (OrdMap.get?_insert_self _ _ _) ?_ h.next (next_pos h.next)
  exact congrArg (fun table : OrdMap Int32 Nat => table.insert k.next k.tickets) h.table

/-- What happens to the processor is all that happens. -/
theorem Awaits.update (h : k.Awaits ticket id p) {f : Processor → Processor}
    (hf : p.isDone → f p = p) : (k.update ticket f).Awaits ticket id (f p) := by
  by_cases hdone : p.isDone
  · have htable : k.table = .empty := by rw [h.table, if_pos hdone]
    simp only [Keeper.update, h.live, hf hdone, hdone, Bool.not_true, Bool.and_false,
      Bool.false_eq_true, if_false]
    exact ⟨OrdMap.get?_insert_self _ _ _, by rw [if_pos hdone]; exact htable, h.id, h.next⟩
  · have htable : k.table = OrdMap.empty.insert id ticket := by rw [h.table, if_neg hdone]
    have hopen : p.isDone = false := Bool.eq_false_iff.2 hdone
    simp only [Keeper.update, h.live, hopen, Bool.not_false, Bool.and_true]
    exact awaits_of_entry (OrdMap.get?_insert_self _ _ _) htable h.id h.next

/-- **An answer reaches the processor that it names.** -/
theorem Awaits.processReply (h : k.Awaits ticket id p) (sender : Member) {r : Reply}
    (hr : r.processor = id) : (k.processReply sender r).2.Awaits ticket id (p.reply sender r) := by
  have hsame : p.isDone → p.reply sender r = p := fun hdone =>
    Processor.on_of_isDone hdone (.reply sender r)
  by_cases hdone : p.isDone
  · have htable : k.table = .empty := by rw [h.table, if_pos hdone]
    have hnone : k.find? r.processor = none := by
      rw [find?, htable]
      rfl
    rw [Keeper.processReply, hnone, hsame hdone]
    exact h
  · have htable : k.table = OrdMap.empty.insert id ticket := by rw [h.table, if_neg hdone]
    have hcontains : k.live.contains ticket = true := by
      rw [OrdMap.contains_eq]
      exact congrArg Option.isSome h.live
    have hfind : k.find? r.processor = some ticket := by
      rw [find?, htable, hr, OrdMap.get?_insert_self, Option.filter_some, hcontains]
      rfl
    rw [Keeper.processReply, hfind]
    exact h.update (f := (·.reply sender r)) hsame

/-- Members that leave are missed by the processor, one behind the other. -/
theorem Awaits.foldl_depart (h : k.Awaits ticket id p) (ms : List Member) :
    (ms.foldl (·.depart ticket ·) k).Awaits ticket id
      (p.run (ms.map ProcessorEvent.departure)) := by
  induction ms generalizing k p with
  | nil => exact h
  | cons m ms ih =>
    exact ih (h.update (f := (·.depart m)) fun hdone =>
      Processor.on_of_isDone hdone (.departure m))

/-- The keeper after answers have come in. -/
def takeIn (k : Keeper) (answers : List (Member × Reply)) : Keeper :=
  answers.foldl (fun k answer => (k.processReply answer.1 answer.2).2) k

/-- Answers that come in, as they happen to the processor that they name. -/
def eventsOf (answers : List (Member × Reply)) : List ProcessorEvent :=
  answers.map fun answer => .reply answer.1 answer.2

/-- Answers reach the processor that they name, one behind the other. -/
theorem Awaits.takeIn (h : k.Awaits ticket id p) (answers : List (Member × Reply))
    (hanswers : ∀ answer ∈ answers, answer.2.processor = id) :
    (k.takeIn answers).Awaits ticket id (p.run (eventsOf answers)) := by
  induction answers generalizing k p with
  | nil => exact h
  | cons answer answers ih =>
    exact ih (h.processReply answer.1 (hanswers _ List.mem_cons_self))
      fun a ha => hanswers a (List.mem_cons_of_mem _ ha)

/-- A keeper lets go of its processor. -/
theorem Awaits.drop (h : k.Awaits ticket id p) : (k.drop ticket).Idle := by
  have htable : (k.unregister ticket).table = .empty := by
    by_cases hdone : p.isDone
    · have hempty : k.table = .empty := by rw [h.table, if_pos hdone]
      have hnone : k.table.get? id ≠ some ticket := by
        rw [hempty]
        nofun
      rw [unregister, h.live]
      simp only [if_neg hnone]
      exact hempty
    · exact table_unregister h.live (by rw [h.table, if_neg hdone])
  have hlive : (k.unregister ticket).get? ticket = some { id, processor := p } := by
    rw [get?_unregister, h.live]
  have hnext : (k.unregister ticket).next = k.next := next_unregister k ticket
  rw [Keeper.drop, reown, hlive]
  exact ⟨htable, hnext ▸ h.next⟩

/-- At an idle keeper nobody is missed. -/
theorem Idle.memberDeparted (h : k.Idle) (m : Member) : k.memberDeparted m = k := by
  rw [Keeper.memberDeparted, h.table]
  rfl

end Keeper

/-! ## Plain answers -/

namespace Processor

variable {recipients : List Member} {isMember : Member → Bool} {events : List ProcessorEvent}
variable {processor : Int32}

theorem run_reply (p : Processor) (events : List ProcessorEvent) (m : Member) (r : Reply) :
    p.run (events ++ [.reply m r]) = (p.run events).reply m r :=
  p.run_append events [.reply m r]

/-- Whether events are plain answers to a processor. -/
def Plain (processor : Int32) (events : List ProcessorEvent) : Prop :=
  ∀ e ∈ events, ∃ m, e = .reply m { processor }

theorem Plain.isCancellation (h : Plain processor events) :
    ∀ e ∈ events, e.isCancellation = false := by
  intro e he
  obtain ⟨m, rfl⟩ := h e he
  rfl

/-- A processor whose recipients are members and answer plainly is done when all of them have. -/
theorem isDone_run_iff (h : Plain processor events) (hmember : ∀ m ∈ recipients, isMember m) :
    ((await recipients isMember).run events).isDone
      ↔ ∀ m ∈ recipients, .reply m { processor } ∈ events := by
  have hnone : ¬∃ e ∈ events, e.isCancellation := by
    rintro ⟨e, he, hc⟩
    rw [h.isCancellation e he] at hc
    cases hc
  rw [(follows_run_await recipients isMember events).isDone_iff, or_iff_left hnone]
  refine forall₂_congr fun m hm => ?_
  rw [hmember m hm, or_iff_right (by nofun)]
  constructor
  · rintro ⟨e, he, habout⟩
    obtain ⟨j, rfl⟩ := h e he
    obtain rfl := Option.some.inj habout
    exact he
  · exact fun he => ⟨_, he, rfl⟩

/-- **When everybody has answered plainly, the wait has an outcome**, and nobody asks for the whole
value. -/
theorem wait_run_of_plain (h : Plain processor events) (hmember : ∀ m ∈ recipients, isMember m)
    (hall : ∀ m ∈ recipients, .reply m { processor } ∈ events) (id : Int32) :
    ∃ o, ((await recipients isMember).run events).wait id = .ok o ∧ o.needsFullValue = [] := by
  have hearly : early events = events := early_eq_self h.isCancellation
  have hresolved : AllResolved recipients isMember (early events) := fun m hm =>
    .inr ⟨_, hearly.symm ▸ hall m hm, rfl⟩
  -- What is collected from fates that are plain answers is empty, but for the answers.
  have hcollect : ∀ {ν : Type} (f : ProcessorEvent → Option ν),
      (∀ j, f (.reply j { processor }) = none) →
      (OrdMap.collect recipients fun m => (fate recipients isMember events m).bind f) = .empty := by
    intro ν f hf
    refine OrdMap.ext_get? fun m => ?_
    rw [OrdMap.get?_collect, OrdMap.get?_empty]
    split
    · next hm =>
      rw [Option.bind_eq_none_iff]
      intro e he
      rw [fate, if_pos hm, if_pos (hmember m hm)] at he
      obtain ⟨j, rfl⟩ := h e (List.mem_of_find?_eq_some he)
      exact hf j
    · rfl
  have hfailed := hcollect failed fun _ => rfl
  have hdeclined := hcollect declined fun _ => rfl
  rw [(follows_run_await recipients isMember events).wait, verdict, if_pos hresolved, tally,
    hfailed]
  refine ⟨_, if_pos rfl, ?_⟩
  rw [Outcome.needsFullValue, hdeclined]
  rfl

end Processor

end DataGrid
