import DataGrid.Proofs.Reply.Numbers

/-!
# Holding — one processor of a keeper, whatever else the keeper does

A keeper holds a processor under a ticket and a number (`Keeper.Holds`). As long as the processor
waits, the number finds it, and answers that name the number reach it. Nothing is asked of the
other processors of the keeper: an answer that comes after the processor has ended may reach a
newer one under the number, and the one that has ended stays as it is.
-/

namespace DataGrid

namespace Keeper

/-- **Whether a keeper holds a processor** under a ticket and a number. -/
structure Holds (k : Keeper) (ticket : Nat) (id : Int32) (p : Processor) : Prop where
  live : k.get? ticket = some { id, processor := p }
  /-- While the processor waits, its number names it. -/
  entry : p.isDone = false → k.table.get? id = some ticket
  id : 0 < id.toInt
  next : 0 < k.next.toInt

variable {k : Keeper} {ticket t : Nat} {id : Int32} {p : Processor}

theorem freshId_pos (hnext : 0 < k.next.toInt) :
    0 < k.freshId.1.toInt ∧ 0 < k.freshId.2.next.toInt := by
  rw [freshId]
  cases hfound : k.searchId (k.table.size + 1) with
  | none => exact ⟨hnext, next_pos hnext⟩
  | some found =>
    obtain ⟨id, k'⟩ := found
    obtain ⟨-, hid, rfl⟩ := searchId_eq_some hfound hnext
    exact ⟨hid, next_pos (k := { k with next := id }) hid⟩

/-- **A processor that is registered is held.** -/
theorem register_holds (hnext : 0 < k.next.toInt) (p : Processor) :
    (k.register p).2.Holds (k.register p).1 k.freshId.1 p := by
  obtain ⟨hid, hnext'⟩ := freshId_pos hnext
  refine ⟨get?_register k p, fun hwaits => ?_, hid, ?_⟩
  · unfold register
    dsimp only
    rw [if_neg (by rw [hwaits]; exact Bool.false_ne_true)]
    exact OrdMap.get?_insert_self _ _ _
  · unfold register
    dsimp only
    split
    · rw [next_unregister]
      exact hnext'
    · exact hnext'

theorem next_update (k : Keeper) (t : Nat) (f : Processor → Processor) :
    (k.update t f).next = k.next := by
  unfold update
  split
  · dsimp only
    split
    · rw [next_unregister]
    · rfl
  · rfl

theorem get?_update_of_ne (k : Keeper) (f : Processor → Processor) (hne : ticket ≠ t) :
    (k.update t f).get? ticket = k.get? ticket := by
  unfold update
  split
  · dsimp only
    split
    · rw [get?_unregister]
      exact OrdMap.get?_insert_of_ne _ _ hne
    · exact OrdMap.get?_insert_of_ne _ _ hne
  · rfl

/-- The one processor of a keeper is held. -/
theorem Awaits.holds (h : k.Awaits ticket id p) : k.Holds ticket id p where
  live := h.live
  entry hopen := by
    rw [h.table, if_neg (by rw [hopen]; exact Bool.false_ne_true)]
    exact OrdMap.get?_insert_self _ _ _
  id := h.id
  next := h.next

/-- What happens to the processor keeps it held. -/
theorem Holds.update (h : k.Holds ticket id p) {f : Processor → Processor}
    (hf : p.isDone → (f p).isDone) : (k.update ticket f).Holds ticket id (f p) := by
  refine ⟨by rw [get?_update, h.live]; rfl, fun hwaits => ?_, h.id, ?_⟩
  · have hbefore : p.isDone = false := Bool.eq_false_iff.2 fun hdone => by
      rw [hf hdone] at hwaits
      cases hwaits
    rw [Keeper.update, h.live]
    dsimp only
    rw [hwaits, Bool.false_and, if_neg Bool.false_ne_true]
    exact h.entry hbefore
  · rw [next_update]
    exact h.next

/-- What happens to another processor does not touch one that has ended. -/
theorem Holds.update_other (h : k.Holds ticket id p) (hdone : p.isDone) (hne : ticket ≠ t)
    (f : Processor → Processor) : (k.update t f).Holds ticket id p := by
  refine ⟨by rw [get?_update_of_ne _ _ hne, h.live], fun hwaits => ?_, h.id, ?_⟩
  · rw [hdone] at hwaits
    cases hwaits
  · rw [next_update]
    exact h.next

/-- **An answer reaches the processor that it names**, if that one still waits. -/
theorem Holds.processReply (h : k.Holds ticket id p) (sender : Member) {r : Reply}
    (hr : r.processor = id) : (k.processReply sender r).2.Holds ticket id (p.reply sender r) := by
  have hreply : p.isDone → p.reply sender r = p := fun hdone =>
    Processor.on_of_isDone hdone (.reply sender r)
  have hupdate := h.update (f := (·.reply sender r)) fun hdone => by rw [hreply hdone]; exact hdone
  by_cases hdone : p.isDone
  · rw [Keeper.processReply]
    split
    · next t _ =>
      by_cases ht : ticket = t
      · subst ht
        exact hupdate
      · rw [hreply hdone]
        exact h.update_other hdone ht (·.reply sender r)
    · rw [hreply hdone]
      exact h
  · have hcontains : k.live.contains ticket = true := by
      rw [OrdMap.contains_eq]
      exact congrArg Option.isSome h.live
    have hfind : k.find? r.processor = some ticket := by
      rw [find?, hr, h.entry (Bool.eq_false_iff.2 hdone), Option.filter_some, hcontains]
      rfl
    rw [Keeper.processReply, hfind]
    exact hupdate

/-- Answers reach the processor that they name, one behind the other. -/
theorem Holds.takeIn (h : k.Holds ticket id p) (answers : List (Member × Reply))
    (hanswers : ∀ answer ∈ answers, answer.2.processor = id) :
    (k.takeIn answers).Holds ticket id (p.run (eventsOf answers)) := by
  induction answers generalizing k p with
  | nil => exact h
  | cons answer answers ih =>
    exact ih (h.processReply answer.1 (hanswers _ List.mem_cons_self))
      fun a ha => hanswers a (List.mem_cons_of_mem _ ha)

/-- A recipient is taken to have left. -/
theorem Holds.depart (h : k.Holds ticket id p) (m : Member) :
    (k.depart ticket m).Holds ticket id (p.depart m) :=
  h.update fun hdone => by
    rw [show p.depart m = p from Processor.on_of_isDone hdone (.departure m)]
    exact hdone

/-- Recipients are taken to have left, one behind the other. -/
theorem Holds.foldl_depart (h : k.Holds ticket id p) (ms : List Member) :
    (ms.foldl (·.depart ticket ·) k).Holds ticket id
      (p.run (ms.map ProcessorEvent.departure)) := by
  induction ms generalizing k p with
  | nil => exact h
  | cons m ms ih => exact ih (h.depart m)

end Keeper

end DataGrid
