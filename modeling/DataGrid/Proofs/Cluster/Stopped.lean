import DataGrid.Proofs.Cluster.Crash
import DataGrid.Proofs.Cluster.Distributing

/-!
# Stopped — what a member does that has crashed

A member that has crashed still has its copy and its producer, but its node has stopped and sends
nothing. Whatever it writes changes its own node and nothing else (`Fabric.Stopped.write`).
-/

namespace DataGrid

/-- Whether two fabrics differ at the node of one place at most, and that one has not come back. -/
structure Fabric.Aside (i : Nat) (w w' : RegionFabric) : Prop where
  network : w'.network = w.network
  membership : w'.membership = w.membership
  due : w'.due = w.due
  node : ∀ j, j ≠ i → w'.node? j = w.node? j
  stopped : w.Stopped i → w'.Stopped i

/-- A producer keeps its thread. -/
theorem thread_generate (cache : IdentityCache) (connection : Option Connection) (p : Producer) :
    (EventId.generate cache connection p).2.2.thread = p.thread := by
  unfold EventId.generate
  split <;> rfl

namespace Fabric

variable {w w' w'' : RegionFabric} {i : Nat} {r : Region}

theorem Aside.refl (i : Nat) (w : RegionFabric) : Aside i w w :=
  ⟨rfl, rfl, rfl, fun _ _ => rfl, id⟩

theorem Aside.trans (h : Aside i w w') (h' : Aside i w' w'') : Aside i w w'' where
  network := h'.network.trans h.network
  membership := h'.membership.trans h.membership
  due := h'.due.trans h.due
  node j hj := (h'.node j hj).trans (h.node j hj)
  stopped hw := h'.stopped (h.stopped hw)

/-- Whoever had stopped has not come back. -/
theorem Aside.stopped_of (h : Aside i w w') {j : Nat} (hj : w.Stopped j) : w'.Stopped j := by
  by_cases hji : j = i
  · rw [hji] at hj ⊢
    exact h.stopped hj
  · intro n hn
    rw [h.node j hji] at hn
    exact hj n hn

/-- A node is put in place of one that has stopped as well. -/
theorem aside_setNode {n n' : Node Update RegionState} (hn : w.node? i = some n)
    (hsame : n'.isShutdown = n.isShutdown) : Aside i w (w.setNode i n') where
  network := rfl
  membership := rfl
  due := rfl
  node j hj := by rw [node?_setNode, if_neg hj]
  stopped hw m hm := by
    rw [node?_setNode, if_pos rfl] at hm
    obtain rfl := Option.some.inj hm
    rw [hsame]
    exact hw n hn

/-- A node is changed, but not whether it has stopped. -/
theorem aside_modify (w : RegionFabric) (i : Nat)
    {f : Node Update RegionState → Node Update RegionState}
    (hf : ∀ n, (f n).isShutdown = n.isShutdown) : Aside i w (w.modify i f) := by
  unfold modify
  split
  · next n hn => exact aside_setNode hn (hf n)
  · exact .refl i w

theorem aside_await (w : RegionFabric) (i : Nat) (recipients : List Member) :
    Aside i w (w.await i recipients).2 := by
  unfold await
  split
  · exact .refl i w
  · next n hn => exact aside_setNode hn rfl

theorem aside_newEvent (w : RegionFabric) (i : Nat) (p : Producer) :
    Aside i w (w.newEvent i p).2.2 ∧ (w.newEvent i p).2.1.thread = p.thread := by
  unfold newEvent
  split
  · exact ⟨.refl i w, rfl⟩
  · next n hn => exact ⟨aside_setNode hn rfl, thread_generate n.identity n.connection p⟩

/-- A node that has stopped sends nothing. -/
theorem Stopped.send (h : w.Stopped i) (msg : Message Update) (recipients : Recipients) :
    w.send i msg recipients = (.error .shutdown, w) := by
  unfold Fabric.send
  split
  · rfl
  · next n hn =>
    have hprepare : w.prepare n msg recipients = .error .shutdown := by
      rw [prepare, h n hn]
      rfl
    rw [hprepare]

/-- A round of a member that has stopped is not begun. -/
theorem Stopped.begin (h : w.Stopped r.place) (recipients : List Member) (key : Bytes)
    (payload : Payload) :
    ∃ e r' w', r.begin w recipients key payload = (.error e, r', w') ∧ r'.place = r.place
      ∧ r'.producer.thread = r.producer.thread ∧ Aside r.place w w' := by
  obtain ⟨hnamed, hthread⟩ := aside_newEvent w r.place r.producer
  rcases hevent : w.newEvent r.place r.producer with ⟨e | event, p, w₁⟩
  · rw [hevent] at hnamed hthread
    refine ⟨.event e, { r with producer := p }, w₁, ?_, rfl, hthread, hnamed⟩
    rw [Region.begin, hevent]
  · rw [hevent] at hnamed hthread
    have hawaits := aside_await w₁ r.place recipients
    rcases hawait : w₁.await r.place recipients with ⟨ticket, w₂⟩
    rw [hawait] at hawaits
    have hstopped : w₂.Stopped r.place := hawaits.stopped (hnamed.stopped h)
    refine ⟨.shutdown, { r with producer := p }, w₂.drop r.place ticket, ?_, rfl, hthread,
      (hnamed.trans hawaits).trans (aside_modify w₂ r.place fun _ => rfl)⟩
    rw [Region.begin, hevent]
    simp only [Region.push, hawait, hstopped.send]

/-- A payload of a member that has stopped is told to nobody. -/
theorem Stopped.distribute (h : w.Stopped r.place) (key : Bytes) (payload : Payload) :
    ∃ result r' w', r.distribute w key payload = (result, r', w') ∧ r'.place = r.place
      ∧ r'.producer.thread = r.producer.thread ∧ Aside r.place w w' := by
  by_cases hpeers : r.peers w = []
  · refine ⟨.ok (), r, w, ?_, rfl, rfl, .refl _ w⟩
    rw [Region.distribute, hpeers]
  · obtain ⟨e, r', w', hbegin, hplace, hthread, haside⟩ := h.begin (r.peers w) key payload
    refine ⟨.error (.fabric e), r', w', ?_, hplace, hthread, haside⟩
    rw [Region.distribute_of_peers hpeers, Region.replicate, hbegin]

/-- **A member that has stopped writes to its own copy alone.** -/
theorem Stopped.write (h : w.Stopped r.place) (key : Bytes) (c : Command) :
    ∃ result r' w', r.write w key c = (result, r', w') ∧ r'.place = r.place
      ∧ r'.producer.thread = r.producer.thread ∧ Aside r.place w w' := by
  have hset : ∀ entries, Aside r.place w (r.setEntries w entries) := fun entries =>
    aside_modify w r.place fun _ => rfl
  rcases Region.write_cases r w key c with ⟨result, entries, hwrite, -, -⟩ |
    ⟨answer, payload, entries, -, hwrite⟩
  · exact ⟨result, r, r.setEntries w entries, hwrite, rfl, rfl, hset entries⟩
  · obtain ⟨result, r', w', hdistribute, hplace, hthread, haside⟩ :=
      ((hset entries).stopped h).distribute key payload
    exact ⟨result.map fun () => answer, r', w', hwrite result r' w' hdistribute, hplace, hthread,
      (hset entries).trans haside⟩

end Fabric

end DataGrid
