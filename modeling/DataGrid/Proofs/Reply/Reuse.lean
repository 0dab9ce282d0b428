import DataGrid.Proofs.Reply.Calls

/-!
# Reuse — numbers that come round again

Numbers begin at one again behind the greatest, so in a long run a number names many processors,
one after the other. A keeper that has served any calls finds under a number the last processor
that was registered under it, as long as that one waits (`Keeper.serve_reachesLatest`). A number
that it hands out names nobody who waits. Whoever still has an older processor of a number may end
it or let go of it, and the newer one's entry stays.
-/

namespace DataGrid

namespace KeeperCall

/-- The ticket of the processor through which a call is made, if it is made through one. -/
def handle? : KeeperCall → Option Nat
  | .event ticket _ | .drop ticket | .hold ticket | .release ticket => some ticket
  | _ => none

end KeeperCall

namespace Keeper

variable {k k' : Keeper} {l l' : Roll} {t : Nat}

/-- A keeper and its roll after calls, of which a registration is given the keeper's number. There
is nothing after a call without a result. -/
def serve? (k : Keeper) (l : Roll) : List KeeperCall → Option (Keeper × Roll)
  | [] => some (k, l)
  | c :: calls => (k.call? c).bind fun k' => serve? k' (l.call k.freshId.1 c) calls

/-- **What the numbers of a keeper name**, by the processors that were registered. -/
structure ReachesLatest (k : Keeper) (l : Roll) : Prop where
  /-- A processor is what it was registered as and what happened to it, as long as it has an
  owner. -/
  processors : ∀ t, k.get? t = (l[t]?.filter Enrolment.isKept).map Enrolment.registration
  finds : ∀ id, k.find? id = l.reached? id
  answers : ∀ sender r, k.processReply sender r
    = match l.reached? r.processor with
      | some t => (true, k.on t (.reply sender r))
      | none => (false, k)
  /-- A registration has a result if there is a number under which nobody waits. -/
  registers : ∀ recipients isMember, (k.call? (.register recipients isMember)).isSome
    ↔ ∃ id : Int32, 0 < id.toInt ∧ ∀ x ∈ l, x.waits → x.id ≠ id
  /-- The number of a registration is positive, and nobody waits under it. -/
  fresh : ∀ recipients isMember k', k.call? (.register recipients isMember) = some k' →
    ∃ id : Int32, k'.get? l.length = some { id, processor := .await recipients isMember }
      ∧ 1 ≤ id.toInt ∧ id.toInt ≤ 2147483647 ∧ ∀ x ∈ l, x.waits → x.id ≠ id
  /-- What is done with an older processor leaves a newer one of its number alone. -/
  older : ∀ (t t' : Nat) (x x' : Enrolment), l[t]? = some x → l[t']? = some x' → x.id = x'.id →
    t < t' → ∀ c k', c.handle? = some t → k.call? c = some k' →
      k'.table.get? x'.id = k.table.get? x'.id ∧ k'.get? t' = k.get? t'

/-! ## Every call -/

/-- **A keeper follows its roll through all calls.** -/
theorem Lists.serve (h : k.Lists l) {calls : List KeeperCall}
    (hcalls : k.serve? l calls = some (k', l')) : k'.Lists l' := by
  induction calls generalizing k l with
  | nil =>
    obtain ⟨rfl, rfl⟩ := Prod.mk.inj (Option.some.inj hcalls)
    exact h
  | cons c calls ih =>
    obtain ⟨k₁, hk₁, hrest⟩ := Option.bind_eq_some_iff.1 hcalls
    exact ih (h.call hk₁) hrest

/-! ## What a keeper that follows a roll does -/

theorem Lists.hasNumber_iff (h : k.Lists l) :
    k.hasNumber ↔ ∃ id : Int32, 0 < id.toInt ∧ ∀ x ∈ l, x.waits → x.id ≠ id := by
  rw [hasNumber, searchId_isSome_iff h.next]
  exact exists_congr fun id => and_congr_right fun _ => h.isFree_iff

/-- A call through a processor changes at most that one, and does not make it wait. -/
theorem Roll.call_of_handle {c : KeeperCall} (hc : c.handle? = some t) (l : Roll) (id : Int32) :
    ∃ f : Enrolment → Enrolment, l.call id c = l.modify t f
      ∧ ∀ x, x.waits = false → (f x).waits = false := by
  cases c with
  | event t' e =>
    obtain rfl := Option.some.inj hc
    exact ⟨_, rfl, fun x hx => Enrolment.waits_note_of_not hx e⟩
  | drop t' =>
    obtain rfl := Option.some.inj hc
    exact ⟨_, rfl, fun _ _ => rfl⟩
  | hold t' =>
    obtain rfl := Option.some.inj hc
    exact ⟨_, rfl, fun x hx => by split <;> exact hx⟩
  | release t' =>
    obtain rfl := Option.some.inj hc
    exact ⟨_, rfl, fun _ hx => hx⟩
  | register recipients isMember => cases hc
  | processReply sender r => cases hc
  | memberDeparted m => cases hc

/-- **What is done with an older processor of a number leaves the newer one alone.** The older one
does not wait, so it has no entry to lose. -/
theorem Lists.older_leaves (h : k.Lists l) {t' : Nat} {x x' : Enrolment} (hx : l[t]? = some x)
    (hx' : l[t']? = some x') (hid : x.id = x'.id) (hlt : t < t') {c : KeeperCall}
    (hc : c.handle? = some t) (hk' : k.call? c = some k') :
    k'.table.get? x'.id = k.table.get? x'.id ∧ k'.get? t' = k.get? t' := by
  have hidle := h.older t t' x x' hx hx' hid hlt
  obtain ⟨f, hroll, hf⟩ := Roll.call_of_handle hc l k.freshId.1
  have h' : k'.Lists (l.modify t f) := hroll ▸ h.call hk'
  have hget : ∀ j, (l.modify t f)[j]? = if j = t then some (f x) else l[j]? :=
    Roll.getElem?_modify hx f
  refine ⟨Option.ext fun j => ?_, ?_⟩
  · rw [h'.table, h.table, hget]
    split
    · next hj =>
      subst hj
      rw [hx]
      simp [hidle, hf x hidle]
    · rfl
  · rw [h'.live, h.live, hget, if_neg (Nat.ne_of_gt hlt)]

theorem Lists.reachesLatest (h : k.Lists l) : k.ReachesLatest l := by
  refine ⟨h.live, h.find?_eq, fun sender r => ?_, fun recipients isMember => ?_,
    fun recipients isMember k' hk' => ?_, fun t t' x x' hx hx' hid hlt c k' hc hk' =>
      h.older_leaves hx hx' hid hlt hc hk'⟩
  · rw [Keeper.processReply, h.find?_eq]
    rfl
  · rw [← h.hasNumber_iff, call?]
    by_cases hfound : k.hasNumber
    · rw [if_pos hfound]
      exact ⟨fun _ => hfound, fun _ => rfl⟩
    · rw [if_neg hfound]
      exact ⟨fun hcall => absurd hcall Bool.false_ne_true, fun hsome => absurd hsome hfound⟩
  · have hfound : k.hasNumber := by
      by_contra hnone
      rw [call?, if_neg hnone] at hk'
      cases hk'
    obtain ⟨-, hpos, hfree⟩ := h.freshId hfound
    have hlt := k.freshId.1.toInt_lt
    have h' : k'.Lists (l.call k.freshId.1 (.register recipients isMember)) := h.call hk'
    refine ⟨k.freshId.1, ?_, by omega, by omega, hfree⟩
    exact h'.get?_of_isKept List.getElem?_concat_length rfl

/-! ## Every run -/

/-- **A number names the last processor that was registered under it.** Whatever is asked of a
keeper from its start on, however often its numbers come round again, a number that it hands out is
positive and names nobody who waits; a number reaches the last processor that was registered under
it if that one waits, and nobody otherwise; and an older processor of the number does nothing to
the newer one. -/
theorem serve_reachesLatest {start : Int32} (hstart : 0 < start.toInt) {calls : List KeeperCall}
    (h : serve? { next := start } [] calls = some (k, l)) : k.ReachesLatest l :=
  ((lists_nil hstart).serve h).reachesLatest

/-- The numbers begin at one again behind the greatest. The processor of the first of them was
cancelled and is let go of, and an answer still finds the one of the next. -/
theorem serve_reachesLatest_past_greatest : ∃ k l calls,
    serve? { next := maxId } [] calls = some (k, l) ∧ k.ReachesLatest l
      ∧ l.map (·.id) = [maxId, 1] ∧ k.find? maxId = none ∧ k.find? 1 = some 1 := by
  let a : Member := { host := "a", port := 0 }
  let calls : List KeeperCall := [.register [a] (fun _ => true), .event 0 (.cancellation a ""),
    .register [a] (fun _ => true), .drop 0]
  have hrun : (serve? { next := maxId } [] calls).any (fun s => s.2.map (·.id) = [maxId, 1]
      ∧ s.1.find? maxId = none ∧ s.1.find? 1 = some 1) = true := by decide +kernel
  obtain ⟨⟨k, l⟩, hs, hstate⟩ := (Option.any_eq_true _ _).1 hrun
  exact ⟨k, l, calls, hs, serve_reachesLatest (by decide) hs, of_decide_eq_true hstate⟩

end Keeper

end DataGrid
