import DataGrid.Proofs.Cluster.Rounds
import DataGrid.Proofs.Cluster.Turns

/-!
# Settling — an update that applies everywhere

What settles among any parties settles among the live places of a cluster. Where an update applies
to every copy that it is sent to, every answer is plain (`Fabric.Shows.settle`).
-/

namespace DataGrid

open Network (localMember)

namespace Fabric

variable {w : RegionFabric} {config : Config} {live : Nat → Prop} {sites : Nat → Site}
variable {i : Nat} {js : List Nat}

/-- A live place where nothing has arrived takes nothing in. -/
theorem Shows.takeIn_nil (h : w.Shows config live sites) (hi : live i)
    (hinbox : (sites i).inbox = []) :
    (w.takeIn i).Shows config live sites ∧ (w.takeIn i).due = w.due := by
  obtain ⟨hhosts, hdue⟩ := h.hosts.takeIn_nil hi hinbox
  exact ⟨hhosts.shows h, hdue⟩

/-- An activity that was due first is due no longer. -/
theorem Shows.act {a : Activity} {w' : RegionFabric} {due : List Activity}
    (hact : (match a with | .receive i => w.receive i | .work i => w.work i) = w')
    (hshow : w'.Shows config live sites) (hdue : w'.due = a :: due) :
    (w.act a).Shows config live sites ∧ (w.act a).due = due := by
  obtain ⟨hhosts, hrest⟩ := Hosts.act hact hshow.hosts hdue
  exact ⟨hhosts.shows hshow, hrest⟩

/-- The answers of places to a processor, as they arrive. -/
def answers (config : Config) (processor : Int32) (js : List Nat) : List Arrival :=
  js.map fun j => (localMember j, answerFrame config processor)

/-- The answers of places to a processor, as they happen to it. -/
def answerEvents (processor : Int32) (js : List Nat) : List ProcessorEvent :=
  js.map fun j => .reply (localMember j) { processor }

/-- **An update settles.** Every recipient has applied it, and the sender has every answer. -/
theorem Shows.settle (h : w.Shows config live sites) (hi : live i) (hmax : 9 ≤ config.maxFrame)
    {frame : Bytes} {u : Update} (states : Nat → RegionState)
    (hdecode : Frame.decode Update.registry frame = .ok (.app u))
    (hfits : frame.length ≤ config.maxFrame) (hprocessor : u.processor ≠ 0) (hnodup : js.Nodup)
    (hlive : ∀ j ∈ js, live j ∧ j ≠ i)
    (hsites : ∀ j ∈ js, (sites j).inbox = [(localMember i, frame)] ∧ (sites j).queue = []
      ∧ (sites j).state.applyUpdate u = (.ok .applied, states j))
    (hinbox : (sites i).inbox = []) {ticket : Nat} {p : Processor}
    (hwaits : (sites i).keeper.Awaits ticket u.processor p) (hdue : w.due = js.map .receive) :
    ∃ keeper, keeper.Awaits ticket u.processor (p.run (answerEvents u.processor js))
      ∧ w.settle.Shows config live (fun j =>
          if j ∈ js then { sites j with inbox := [], queue := [], state := states j }
          else Function.update sites i { sites i with keeper } j)
      ∧ w.settle.due = [] := by
  have hself : i ∉ js := fun hmem => (hlive i hmem).2 rfl
  let x : Shipment := { sender := i, places := js, frame, update := u }
  have hvoice : ∀ j ∈ x.places, x.voice (w.parties config live) sites j
      = some { processor := u.processor } := fun j hj =>
    voice_of_applied hmax (hsites j hj).2.2 (localMember j)
  obtain ⟨-, hlength, -⟩ := answerFrame_spec config u.processor
  have hlimits : x.Fits (w.parties config live) sites := by
    refine ⟨hdecode, hprocessor, fun _ _ => hfits, fun j hj r hr => ?_⟩
    obtain rfl := Option.some.inj ((hvoice j hj).symm.trans hr)
    have hframe : (Reply.frame { processor := u.processor } config.version).length ≤ 9 := hlength
    exact ⟨Nat.le_trans hframe hmax, Nat.lt_of_le_of_lt hframe (by decide)⟩
  have htravels : x.Travels (w.parties config live) := {
    here := hi
    nodup := hnodup
    linked := fun j hj => by
      obtain ⟨hlj, hne⟩ := hlive j hj
      exact ⟨hlj, fun heq => hne (h.distinct j i hlj hi heq), h.target?_eq hlj hi hne.symm⟩ }
  obtain ⟨-, -, hsettled, hdue'⟩ := h.hosts.settle hlimits htravels
    (fun j hj => ⟨(hsites j hj).1, (hsites j hj).2.1⟩) hinbox hdue
  have hevents : Keeper.eventsOf (x.answers (w.parties config live) sites js)
      = answerEvents u.processor js := by
    rw [Keeper.eventsOf, Shipment.answers_eq_map hvoice, List.map_map]
    rfl
  have hprocessors : ∀ answer ∈ x.answers (w.parties config live) sites x.places,
      answer.2.processor = x.update.processor := Shipment.answers_processor
  have hwaits' := hwaits.takeIn _ hprocessors
  rw [hevents] at hwaits'
  refine ⟨_, hwaits', (hsettled.shows h).of_forall_eq fun j => ?_, hdue'⟩
  by_cases hj : j ∈ js
  · simp only [Shipment.settled, Shipment.served, x, if_pos hj, (hsites j hj).2.2]
  · simp only [Shipment.settled, x, if_neg hj]

end Fabric

end DataGrid
