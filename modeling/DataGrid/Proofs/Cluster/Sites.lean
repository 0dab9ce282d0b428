import DataGrid.Proofs.Ordered.Lookup
import DataGrid.Proofs.Region.Wire
import DataGrid.Region.Cluster
import Mathlib.Logic.Function.Basic

/-!
# Sites — a cluster by what its places keep

While members write, four things change at a place: the frames that have arrived, the updates that
are queued, the member's copy, and who awaits answers. Everything else is set up once and stays.
A fabric shows sites at its live places (`Fabric.Shows`) when all of that is in order: ports are
linked, nodes take part under their own names, and the membership is who is live. What an
operation does is then said by the sites that it changes.
-/

namespace DataGrid

open Network (localMember)

/-- What a place keeps that changes while members write. -/
structure Site where
  inbox : List Arrival := []
  queue : List (Inbound Update) := []
  state : RegionState := {}
  keeper : Keeper := {}

/-- The site with one more arrival. -/
def Site.arrive (s : Site) (arrival : Arrival) : Site := { s with inbox := s.inbox ++ [arrival] }

/-- Makes an activity due in a list of them, unless it is. -/
def Activity.enqueue (a : Activity) (due : List Activity) : List Activity :=
  if a ∈ due then due else due ++ [a]

/-- Whether a port is that of a live place and reaches the others. -/
structure Port.IsAt (p : Port) (live : Nat → Prop) (i : Nat) (s : Site) : Prop where
  member : p.member = localMember i
  inbox : p.inbox = s.inbox
  inlet : p.inlet = .taken
  links : ∀ j, live j → j ≠ i → p.links.get? (localMember j) = some j

/-- Whether a node is that of a live place. It can always tell under which identity it names
events. -/
structure Node.IsAt (n : Node Update RegionState) (config : Config) (i : Nat) (s : Site) :
    Prop where
  member : n.member = localMember i
  config : n.config = config
  registry : n.registry = Update.registry
  keeper : n.keeper = s.keeper
  queue : n.queue = { normal := s.queue }
  identity : ∃ id, (localMember i).essentialBytes .current = .ok id
    ∧ n.identity.membershipId n.connection = (.ok id, n.identity)
  attached : n.attached = some s.state
  started : n.started = true
  running : n.isShutdown = false

namespace Fabric

/-- **Whether a fabric shows sites at its live places.** -/
structure Shows (w : RegionFabric) (config : Config) (live : Nat → Prop) (sites : Nat → Site) :
    Prop where
  port : ∀ i, live i → ∃ p, w.network.get? i = some p ∧ p.IsAt live i (sites i)
  node : ∀ i, live i → ∃ n, w.node? i = some n ∧ n.IsAt config i (sites i)
  membership : ∀ m, w.membership.contains m ↔ ∃ i, live i ∧ localMember i = m
  distinct : ∀ i j, live i → live j → localMember i = localMember j → i = j

/-! ## One place changes -/

theorem node?_setNode (w : RegionFabric) (i j : Nat) (n : Node Update RegionState) :
    (w.setNode i n).node? j = if j = i then some n else w.node? j :=
  OrdMap.get?_insert _ i j n

theorem get?_modify (n : Network) (i j : Nat) (f : Port → Port) :
    (n.modify i f).get? j = if j = i then (n.get? j).map f else n.get? j := by
  rw [Network.modify, Network.get?, Network.get?, List.getElem?_modify]
  by_cases h : i = j
  · subst h
    simp
  · simp [h, Ne.symm h]

theorem call_eq (w : RegionFabric) (a : Activity) :
    w.call a = { w with due := a.enqueue w.due } := by
  unfold call Activity.enqueue
  split <;> rfl

theorem due_call (w : RegionFabric) (a : Activity) : (w.call a).due = a.enqueue w.due := by
  rw [call_eq]

/-- Receivers that are due one behind the other. -/
theorem foldl_enqueue_receive (js : List Nat) {due : List Activity} (hjs : js.Nodup)
    (hnew : ∀ j ∈ js, .receive j ∉ due) :
    js.foldl (fun due j => (Activity.receive j).enqueue due) due = due ++ js.map .receive := by
  induction js generalizing due with
  | nil => exact (List.append_nil due).symm
  | cons j js ih =>
    obtain ⟨hj, hjs⟩ := List.nodup_cons.1 hjs
    rw [List.foldl_cons, Activity.enqueue, if_neg (hnew j List.mem_cons_self), ih hjs,
      List.append_assoc]
    · rfl
    · intro k hk hmem
      rcases List.mem_append.1 hmem with hmem | hmem
      · exact hnew k (List.mem_cons_of_mem j hk) hmem
      · obtain rfl : k = j := by simpa using hmem
        exact hj hk

variable {w w' : RegionFabric} {config : Config} {live : Nat → Prop} {sites : Nat → Site}
variable {i j : Nat} {s : Site}

/-- A fabric that differs at one place shows another site there. -/
theorem Shows.replace (h : w.Shows config live sites)
    (hmembership : w'.membership = w.membership)
    (hports : ∀ j, j ≠ i → w'.network.get? j = w.network.get? j)
    (hnodes : ∀ j, j ≠ i → w'.node? j = w.node? j)
    (hport : live i → ∃ p, w'.network.get? i = some p ∧ p.IsAt live i s)
    (hnode : live i → ∃ n, w'.node? i = some n ∧ n.IsAt config i s) :
    w'.Shows config live (Function.update sites i s) where
  port := by
    intro j hj
    by_cases hji : j = i
    · subst hji
      rw [Function.update_self]
      exact hport hj
    · rw [Function.update_of_ne hji, hports j hji]
      exact h.port j hj
  node := by
    intro j hj
    by_cases hji : j = i
    · subst hji
      rw [Function.update_self]
      exact hnode hj
    · rw [Function.update_of_ne hji, hnodes j hji]
      exact h.node j hj
  membership := by rw [hmembership]; exact h.membership
  distinct := h.distinct

/-- A node is put in its place, with the arrivals of before. -/
theorem Shows.setNode (h : w.Shows config live sites) {n : Node Update RegionState}
    (hn : n.IsAt config i s) (hinbox : s.inbox = (sites i).inbox) :
    (w.setNode i n).Shows config live (Function.update sites i s) := by
  refine h.replace rfl (fun _ _ => rfl) (fun j hj => ?_) (fun hi => ?_) fun _ => ?_
  · rw [node?_setNode, if_neg hj]
  · obtain ⟨p, hp, hat⟩ := h.port i hi
    exact ⟨p, hp, hat.member, hat.inbox.trans hinbox.symm, hat.inlet, hat.links⟩
  · exact ⟨n, by rw [node?_setNode, if_pos rfl], hn⟩

/-- The arrivals of a place change. -/
theorem Shows.setInbox (h : w.Shows config live sites) (i : Nat) (inbox : List Arrival)
    {f : Port → Port} (hf : ∀ p, w.network.get? i = some p → f p = { p with inbox }) :
    (w.modifyNetwork (·.modify i f)).Shows config live
      (Function.update sites i { sites i with inbox }) := by
  refine h.replace rfl (fun j hj => ?_) (fun _ _ => rfl) (fun hi => ?_) fun hi => ?_
  · change (w.network.modify i f).get? j = _
    rw [get?_modify, if_neg hj]
  · obtain ⟨p, hp, hat⟩ := h.port i hi
    refine ⟨{ p with inbox }, ?_, hat.member, rfl, hat.inlet, hat.links⟩
    change (w.network.modify i f).get? i = _
    rw [get?_modify, if_pos rfl, hp, Option.map_some, hf p hp]
  · obtain ⟨n, hn, hat⟩ := h.node i hi
    exact ⟨n, hn, hat.member, hat.config, hat.registry, hat.keeper, hat.queue, hat.identity,
      hat.attached, hat.started, hat.running⟩

/-- The same sites in another form. -/
theorem Shows.of_forall_eq {sites' : Nat → Site} (h : w.Shows config live sites)
    (heq : ∀ j, sites j = sites' j) : w.Shows config live sites' :=
  funext heq ▸ h

end Fabric

end DataGrid
