import DataGrid.Proofs.Fabric.Departures

/-!
# Attached — the fabric keeps what the handlers keep

The states that are attached to nodes are changed by handlers, and by nothing else that a node
does: who sends, registers, names events, hears of departures or shuts down leaves them
(`Fabric.attached?_send` and the like). So what is true of every attached state, and is kept by the
handlers, remains true however long the nodes take turns (`Fabric.AllAttached.settle`).
-/

namespace DataGrid

variable {μ σ : Type}

/-- **Whether the handlers keep a property** of the states that are attached to their nodes. -/
def HandlersKeep (μ : Type) [Service μ σ] (P : σ → Prop) : Prop :=
  ∀ (m : μ) (here sender : Member) (attached : Option σ), (∀ s ∈ attached, P s) →
    ∀ s ∈ (Service.handle m here sender attached).2, P s

namespace Fabric

/-- Whether every attached state has a property. -/
def AllAttached (w : Fabric μ σ) (P : σ → Prop) : Prop := ∀ i, ∀ s ∈ w.attached? i, P s

variable {w w' : Fabric μ σ} {P : σ → Prop} {i : Nat} {n n' : Node μ σ}

/-! ## What leaves the attached states -/

theorem attached?_of_node (hn : w.node? i = some n) : w.attached? i = n.attached := by
  rw [attached?, hn]
  rfl

theorem attached?_setNode (w : Fabric μ σ) (i : Nat) (n : Node μ σ) (j : Nat) :
    (w.setNode i n).attached? j = if j = i then n.attached else w.attached? j := by
  unfold attached? node? setNode
  rw [OrdMap.get?_insert]
  split <;> rfl

/-- A node that is put back with its state leaves every state. -/
theorem attached?_putBack (hn : w.node? i = some n) (hsame : n'.attached = n.attached) :
    (w.setNode i n').attached? = w.attached? := by
  funext j
  rw [attached?_setNode, hsame]
  split
  · next hj => rw [hj, attached?_of_node hn]
  · rfl

theorem attached?_modify (w : Fabric μ σ) (i : Nat) {f : Node μ σ → Node μ σ}
    (h : ∀ n, (f n).attached = n.attached) : (w.modify i f).attached? = w.attached? := by
  unfold modify
  split
  · next n hn => exact attached?_putBack hn (h n)
  · rfl

theorem attached?_modifyKeeper (w : Fabric μ σ) (i : Nat) (f : Keeper → Keeper) :
    (w.modifyKeeper i f).attached? = w.attached? :=
  w.attached?_modify i fun _ => rfl

theorem attached?_call (w : Fabric μ σ) (a : Activity) : (w.call a).attached? = w.attached? := by
  unfold call
  split <;> rfl

theorem attached?_notify (w : Fabric μ σ) (i : Nat) : (w.notify i).attached? = w.attached? := by
  unfold notify
  split
  · exact attached?_call w _
  · rfl

theorem attached?_announce (w : Fabric μ σ) (notices : List Notice) :
    (w.announce notices).attached? = w.attached? := by
  funext i
  unfold attached?
  rw [node?_announce_eq]
  cases w.node? i with
  | none => rfl
  | some n =>
    obtain ⟨keeper, htold⟩ := exists_foldl_tell notices n
    rw [Option.map_some, htold]
    rfl

theorem attached?_depart (w : Fabric μ σ) (m : Member) (crashed : Bool) :
    (w.depart m crashed).2.attached? = w.attached? := attached?_announce _ _

theorem attached?_join (w : Fabric μ σ) (m : Member) : (w.join m).attached? = w.attached? :=
  attached?_announce _ _

theorem attached?_await (w : Fabric μ σ) (i : Nat) (recipients : List Member) :
    (w.await i recipients).2.attached? = w.attached? := by
  unfold await
  split
  · rfl
  · next n hn => exact attached?_putBack hn rfl

theorem attached?_newEvent (w : Fabric μ σ) (i : Nat) (p : Producer) :
    (w.newEvent i p).2.2.attached? = w.attached? := by
  unfold newEvent
  split
  · rfl
  · next n hn => exact attached?_putBack hn rfl

theorem attached?_start (w : Fabric μ σ) (i : Nat) : (w.start i).2.attached? = w.attached? := by
  unfold start
  split
  · rfl
  · next n hn =>
    split
    · rfl
    · split
      · rfl
      · rw [attached?_call, attached?_call]
        exact attached?_putBack hn rfl

theorem AllAttached.congr (h : w.AllAttached P) (hsame : w'.attached? = w.attached?) :
    w'.AllAttached P := by
  unfold AllAttached
  rw [hsame]
  exact h

/-- What one keeps at a time, many keep one after another. -/
theorem AllAttached.foldl {α : Type} {f : Fabric μ σ → α → Fabric μ σ} (h : w.AllAttached P)
    (hf : ∀ w, w.AllAttached P → ∀ a, (f w a).AllAttached P) (l : List α) :
    (l.foldl f w).AllAttached P := by
  induction l generalizing w with
  | nil => exact h
  | cons a rest ih => exact ih (hf w h a)

/-- A node that takes part anew has no state yet. -/
theorem AllAttached.addNode (h : w.AllAttached P) (i : Nat) (config : Config) :
    (w.addNode i config).2.AllAttached P := by
  unfold Fabric.addNode
  split
  · exact h
  · dsimp only
    split
    · exact h
    · intro j s hs
      rw [attached?_setNode] at hs
      split at hs
      · cases hs
      · exact h j s hs

theorem AllAttached.attach (h : w.AllAttached P) (i : Nat) {s : σ} (hs : P s) :
    (w.attach i s).AllAttached P := by
  unfold Fabric.attach modify
  split
  · intro j t ht
    rw [attached?_setNode] at ht
    split at ht
    · cases ht
      exact hs
    · exact h j t ht
  · exact h

/-! ### Sending -/

theorem attached?_sendFrame (w : Fabric μ σ) (i : Nat) (peer : Member) (frame : Bytes) :
    (w.sendFrame i peer frame).2.attached? = w.attached? := by
  unfold sendFrame
  split
  · exact attached?_notify _ _
  · rfl

theorem attached?_deliver (w : Fabric μ σ) (i : Nat) (here : Member) (frame : Bytes) (m : Member) :
    (w.deliver i here frame m).2.attached? = w.attached? := by
  unfold deliver
  split
  · exact attached?_notify _ _
  · have hsent := w.attached?_sendFrame i m frame
    split <;> next heq => rwa [heq] at hsent

theorem attached?_deliverAll (w : Fabric μ σ) (i : Nat) (here : Member) (frame : Bytes)
    (members : List Member) :
    (w.deliverAll i here frame members).2.attached? = w.attached? := by
  induction members generalizing w with
  | nil => rfl
  | cons m rest ih =>
    show ((w.deliver i here frame m).2.deliverAll i here frame rest).2.attached? = _
    rw [ih, attached?_deliver]

section Sending

variable [AppMessage μ]

theorem attached?_send (w : Fabric μ σ) (i : Nat) (m : Message μ) (recipients : Recipients) :
    (w.send i m recipients).2.attached? = w.attached? := by
  unfold send
  split
  · rfl
  · split
    · rfl
    · exact attached?_deliverAll _ _ _ _ _

theorem attached?_sendReply (w : Fabric μ σ) (i : Nat) (m : Member) (r : Reply) :
    (w.sendReply i m r).2.attached? = w.attached? := attached?_send w i _ _

theorem attached?_sendException (w : Fabric μ σ) (i : Nat) (m : Member) (processor : Int32)
    (e : ReplyException) : (w.sendException i m processor e).2.attached? = w.attached? := by
  unfold sendException
  split
  · rfl
  · exact attached?_sendReply w i m _

theorem attached?_handleFailure (w : Fabric μ σ) (i : Nat) (sender : Member) (m : μ)
    (e : FabricError) : (w.handleFailure i sender m e).attached? = w.attached? := by
  unfold handleFailure
  dsimp only
  split
  · rfl
  · split
    · exact attached?_modifyKeeper w i _
    · exact attached?_sendException w i sender _ _

end Sending

/-! ## What the handlers keep -/

section Handling

variable [AppMessage μ] [Service μ σ]

theorem AllAttached.serve (h : w.AllAttached P) (hkeep : HandlersKeep μ P)
    (hn : w.node? i = some n) (sender : Member) (m : μ) :
    (w.serve i n sender m).2.AllAttached P := by
  have hput : (w.setNode i
      { n with attached := (Service.handle m n.member sender n.attached).2 }).AllAttached P := by
    intro j s hs
    rw [attached?_setNode] at hs
    split at hs
    · refine hkeep m n.member sender n.attached (fun t ht => h i t ?_) s hs
      rwa [attached?_of_node hn]
    · exact h j s hs
  unfold Fabric.serve
  dsimp only
  split
  · exact hput
  · exact hput
  · exact hput.congr (attached?_sendReply _ _ _ _)

/-- **Handling a message keeps what the handlers keep.** -/
theorem AllAttached.handle (h : w.AllAttached P) (hkeep : HandlersKeep μ P) (i : Nat)
    (x : Inbound μ) : (w.handle i x).AllAttached P := by
  unfold Fabric.handle
  split
  · exact h
  · next n hn =>
    split
    · exact h.congr (attached?_putBack hn rfl)
    · next m hm =>
      have hserved := h.serve hkeep hn x.sender m
      split
      · next heq => rwa [heq] at hserved
      · next heq =>
        rw [heq] at hserved
        exact hserved.congr (attached?_handleFailure _ _ _ _ _)

theorem AllAttached.dispatch (h : w.AllAttached P) (hkeep : HandlersKeep μ P) (i : Nat)
    (arrival : Arrival) : (w.dispatch i arrival).AllAttached P := by
  unfold Fabric.dispatch
  split
  · exact h
  · next n hn =>
    split
    · exact h
    · split
      · exact h
      · dsimp only
        split
        · exact h.handle hkeep i _
        · exact h.congr ((attached?_call _ _).trans (attached?_putBack hn rfl))

theorem AllAttached.takeIn (h : w.AllAttached P) (hkeep : HandlersKeep μ P) (i : Nat) :
    (w.takeIn i).AllAttached P := by
  have hnetwork : ({ w with network := (w.network.takeAll i).2 } : Fabric μ σ).AllAttached P := h
  exact hnetwork.foldl (fun _ h arrival => h.dispatch hkeep i arrival) _

theorem AllAttached.receive (h : w.AllAttached P) (hkeep : HandlersKeep μ P) (i : Nat) :
    (w.receive i).AllAttached P := by
  unfold Fabric.receive
  split
  · exact (h.takeIn hkeep i).takeIn hkeep i
  · exact h

theorem AllAttached.work (h : w.AllAttached P) (hkeep : HandlersKeep μ P) (i : Nat) :
    (w.work i).AllAttached P := by
  unfold Fabric.work
  split
  · exact h
  · next n hn =>
    have hdrained : (w.setNode i { n with queue := n.queue.drain.2 }).AllAttached P :=
      h.congr (attached?_putBack hn rfl)
    exact hdrained.foldl (fun _ h x => h.handle hkeep i x) _

theorem AllAttached.act (h : w.AllAttached P) (hkeep : HandlersKeep μ P) (a : Activity) :
    (w.act a).AllAttached P := by
  cases a with
  | receive i => exact (h.receive hkeep i).congr rfl
  | work i => exact (h.work hkeep i).congr rfl

theorem AllAttached.round (h : w.AllAttached P) (hkeep : HandlersKeep μ P) :
    w.round.AllAttached P := h.foldl (fun _ h a => h.act hkeep a) _

/-- **However long the nodes take turns, they keep what the handlers keep.** -/
theorem AllAttached.settle (h : w.AllAttached P) (hkeep : HandlersKeep μ P) :
    w.settle.AllAttached P :=
  ((h.round hkeep).round hkeep).round hkeep

/-- A node that shuts down works off what is queued. -/
theorem AllAttached.shutdown (h : w.AllAttached P) (hkeep : HandlersKeep μ P) (i : Nat) :
    (w.shutdown i).AllAttached P := by
  unfold Fabric.shutdown
  split
  · exact h
  · next n hn =>
    split
    · exact h
    · refine AllAttached.work (h.congr ?_) hkeep i
      unfold Fabric.disconnect
      rw [attached?_modify]
      · exact attached?_putBack hn rfl
      · exact fun _ => rfl

end Handling

end Fabric

end DataGrid
