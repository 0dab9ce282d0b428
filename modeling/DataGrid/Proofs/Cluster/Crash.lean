import DataGrid.Proofs.Cluster.Rounds

/-!
# Crash — a member is gone

A member that crashes is cut off the network, leaves the membership and stops. While nobody waits
for answers, that changes nothing for the members that stay, but that they reach one fewer
(`Fabric.Shows.crash`). Who has stopped has stopped for good (`Fabric.Stopped`).
-/

namespace DataGrid

open Network (localMember)

/-- Whether the node at a place has stopped, if there is one. -/
def Fabric.Stopped (w : RegionFabric) (i : Nat) : Prop :=
  ∀ n, w.node? i = some n → n.isShutdown = true

namespace Fabric

variable {w : RegionFabric} {config : Config} {live : Nat → Prop} {sites : Nat → Site}
variable {i j : Nat} {n : Node Update RegionState} {p q : Port}

theorem get?_isolate {network : Network} (hp : network.get? i = some p)
    (hq : network.get? j = some q) (hne : j ≠ i) :
    (network.isolate i).get? j = some { q with links := q.links.erase p.member } := by
  rw [Network.isolate, hp]
  change Network.get? (Network.modify _ _ _) j = _
  rw [get?_modify, if_neg hne, Network.get?, List.getElem?_map]
  exact congrArg (Option.map _) hq

/-- A node at which nobody waits does not mind who leaves. -/
theorem tell_of_idle (hidle : n.keeper.Idle) (notice : Notice) :
    announce.tell notice n = n := by
  obtain ⟨token, change⟩ := notice
  cases change with
  | joined m => rfl
  | departed m crashed =>
    simp only [announce.tell, hidle.memberDeparted, ite_self]

theorem node?_announce (hn : w.node? j = some n) (hidle : n.keeper.Idle)
    (notices : List Notice) : (w.announce notices).node? j = some n := by
  have hfold : ∀ nodes : OrdMap Nat (Node Update RegionState), nodes.get? j = some n →
      (notices.foldl (fun nodes notice => nodes.mapValues (announce.tell notice)) nodes).get? j
        = some n := by
    induction notices with
    | nil => exact fun _ h => h
    | cons notice notices ih =>
      intro nodes h
      refine ih _ ?_
      rw [OrdMap.get?_mapValues, h, Option.map_some, tell_of_idle hidle]
  exact hfold w.nodes hn

/-- Notices stop nobody and start nobody. -/
theorem Stopped.announce (h : w.Stopped j) (notices : List Notice) :
    (w.announce notices).Stopped j := by
  have hfold : ∀ nodes : OrdMap Nat (Node Update RegionState),
      (∀ n, nodes.get? j = some n → n.isShutdown = true) →
      ∀ n, (notices.foldl (fun nodes notice => nodes.mapValues (announce.tell notice)) nodes).get? j
        = some n → n.isShutdown = true := by
    induction notices with
    | nil => exact fun _ hstopped => hstopped
    | cons notice notices ih =>
      intro nodes hstopped
      refine ih _ fun n hn => ?_
      rw [OrdMap.get?_mapValues, Option.map_eq_some_iff] at hn
      obtain ⟨n, hn, rfl⟩ := hn
      have hsame : (announce.tell notice n).isShutdown = n.isShutdown := by
        unfold announce.tell
        split
        · split <;> rfl
        · rfl
      rw [hsame]
      exact hstopped n hn
  exact hfold w.nodes h

/-- A member is cut off and leaves. -/
theorem Shows.depart (h : w.Shows config live sites) (hi : live i)
    (hidle : ∀ j, live j → (sites j).keeper.Idle) :
    ∃ w', ((w.modifyNetwork (·.isolate i)).depart (localMember i) true).2 = w'
      ∧ w'.Shows config (fun j => live j ∧ j ≠ i) sites ∧ w'.due = w.due
      ∧ w'.node? i = w.node? i := by
  obtain ⟨p, hp, hpat⟩ := h.port i hi
  have hhere : w.membership.contains (localMember i) = true := (h.membership _).2 ⟨i, hi, rfl⟩
  -- Nobody waits, so the notice of the departure changes no node.
  have hnode : ∀ j, live j → ∀ notices membership,
      (announce { w with network := w.network.isolate i, membership } notices).node? j
        = w.node? j := by
    intro j hj notices membership
    obtain ⟨n, hn, hat⟩ := h.node j hj
    rw [hn]
    exact node?_announce (w := { w with network := w.network.isolate i, membership }) hn
      (hat.keeper ▸ hidle j hj) notices
  refine ⟨_, rfl, ?_, ?_, ?_⟩
  · rw [Fabric.depart, modifyNetwork, Membership.depart, if_pos hhere]
    refine ⟨fun j ⟨hj, hne⟩ => ?_, fun j ⟨hj, hne⟩ => ?_, fun m => ?_, fun a b ha hb =>
      h.distinct a b ha.1 hb.1⟩
    · obtain ⟨q, hq, hat⟩ := h.port j hj
      refine ⟨_, get?_isolate hp hq hne, hat.member, hat.inbox, hat.inlet, fun k hk hkj => ?_⟩
      have hmember : localMember k ≠ p.member := fun heq =>
        hk.2 (h.distinct k i hk.1 hi (heq.trans hpat.member))
      rw [OrdMap.get?_erase_of_ne _ hmember]
      exact hat.links k hk.1 hkj
    · obtain ⟨n, hn, hat⟩ := h.node j hj
      exact ⟨n, (hnode j hj _ _).trans hn, hat⟩
    · change ({ w.membership with members := w.membership.members.erase (localMember i) } :
        Membership).contains m ↔ _
      rw [Membership.contains, OrdSet.contains_erase, Bool.and_eq_true, decide_eq_true_iff]
      constructor
      · rintro ⟨hne, hm⟩
        obtain ⟨j, hj, rfl⟩ := (h.membership m).1 hm
        exact ⟨j, ⟨hj, fun heq => hne (heq ▸ rfl)⟩, rfl⟩
      · rintro ⟨j, ⟨hj, hne⟩, rfl⟩
        exact ⟨fun heq => hne (h.distinct j i hj hi heq), (h.membership _).2 ⟨j, hj, rfl⟩⟩
  · rw [Fabric.depart, modifyNetwork, Membership.depart, if_pos hhere]
    rfl
  · rw [Fabric.depart, modifyNetwork, Membership.depart, if_pos hhere]
    exact hnode i hi _ _

/-- A node that has nothing queued stops, and only its own place changes. -/
theorem shutdown_spec (hn : w.node? i = some n) (hqueue : n.queue.toList = []) :
    ∃ w', w.shutdown i = w' ∧ w'.membership = w.membership ∧ w'.due = w.due ∧ w'.Stopped i
      ∧ ∀ j, j ≠ i → w'.network.get? j = w.network.get? j ∧ w'.node? j = w.node? j := by
  by_cases hstopped : n.isShutdown
  · refine ⟨w, ?_, rfl, rfl, fun n' hn' => ?_, fun _ _ => ⟨rfl, rfl⟩⟩
    · rw [Fabric.shutdown, hn]
      simp only [hstopped, if_true]
    · obtain rfl := Option.some.inj (hn.symm.trans hn')
      exact hstopped
  · refine ⟨_, rfl, ?_⟩
    rw [Fabric.shutdown, hn]
    simp only [if_neg hstopped, disconnect, modify, work, node?_setNode, if_true, TaskQueue.drain,
      TaskQueue.close, TaskQueue.toList] at hqueue ⊢
    rw [hqueue]
    refine ⟨rfl, rfl, fun n' hn' => ?_, fun j hj => ⟨?_, ?_⟩⟩
    · rw [List.foldl_nil, node?_setNode, if_pos rfl] at hn'
      obtain rfl := Option.some.inj hn'
      rfl
    · change Network.get? (if n.started then w.network.unsubscribe i else w.network) j = _
      split
      · rw [Network.unsubscribe, get?_modify, if_neg hj]
      · rfl
    · rw [List.foldl_nil, node?_setNode, if_neg hj, node?_setNode, if_neg hj, node?_setNode,
        if_neg hj]
      rfl

/-- **A member crashes**, and the others show what they showed. It has stopped, as those have that
crashed before. -/
theorem Shows.crash (h : w.Shows config live sites) (hi : live i)
    (hidle : ∀ j, live j → (sites j).keeper.Idle) (hqueue : (sites i).queue = []) :
    ∃ w', ((w.modifyNetwork (·.isolate i)).depart (localMember i) true).2.shutdown i = w'
      ∧ w'.Shows config (fun j => live j ∧ j ≠ i) sites ∧ w'.due = w.due
      ∧ w'.Stopped i ∧ ∀ j, w.Stopped j → w'.Stopped j := by
  obtain ⟨w₁, hw₁, hshow, hdue, hnode⟩ := h.depart hi hidle
  obtain ⟨n, hn, hat⟩ := h.node i hi
  obtain ⟨w₂, hw₂, hmembership, hdue₂, hstopped, hothers⟩ := shutdown_spec (w := w₁)
    (hnode.trans hn) (by rw [hat.queue, hqueue]; rfl)
  have hreplaced := hshow.replace (i := i) (s := sites i) hmembership
    (fun j hj => (hothers j hj).1) (fun j hj => (hothers j hj).2)
    (fun hlive => absurd rfl hlive.2) fun hlive => absurd rfl hlive.2
  rw [Function.update_eq_self] at hreplaced
  rw [hw₁]
  refine ⟨w₂, hw₂, hreplaced, hdue₂.trans hdue, hstopped, fun j hj n hn => ?_⟩
  by_cases hji : j = i
  · exact hstopped n (hji ▸ hn)
  · have hleft : w₁.Stopped j := by
      rw [← hw₁]
      exact Stopped.announce hj _
    rw [(hothers j hji).2] at hn
    exact hleft n hn

end Fabric

end DataGrid
