import DataGrid.Proofs.Cluster.Sites
import DataGrid.Proofs.Fabric.Departures

/-!
# Wiring — links lead to whom they name

A link under a member's name leads to a port of that member, and a node speaks under the name of its
port (`Fabric.Wired`). Ports, links and nodes come and go in few ways. Everything else that a fabric
does leaves the wiring as it is (`Fabric.wiring_send` and the like), so a fabric is wired whatever
was done with it (`Fabric.run_wired`).
-/

namespace DataGrid

/-! ## Ports and links -/

namespace Network

/-- Whose port is at a place, and which links lead away from it. -/
def wiring (n : Network) (i : Nat) : Option (Member × OrdMap Member Nat) :=
  (n.get? i).map fun p => (p.member, p.links)

/-- Whether every link leads to a port of the member under whose name it is. -/
def Wired (n : Network) : Prop :=
  ∀ i p m j, n.get? i = some p → p.links.get? m = some j → n.member? j = some m

variable {n n' : Network} {i : Nat}

theorem member?_eq_wiring (n : Network) (i : Nat) : n.member? i = (n.wiring i).map (·.1) := by
  rw [wiring, Option.map_map]
  rfl

theorem member?_congr (h : n'.wiring = n.wiring) : n'.member? = n.member? := by
  funext i
  rw [member?_eq_wiring, member?_eq_wiring, h]

theorem member?_modify (n : Network) (i : Nat) {f : Port → Port}
    (hf : ∀ p, (f p).member = p.member) : (n.modify i f).member? = n.member? := by
  funext j
  rw [member?, member?, Fabric.get?_modify]
  split
  · rw [Option.map_map, show Port.member ∘ f = Port.member from funext hf]
  · rfl

theorem wiring_modify (n : Network) (i : Nat) {f : Port → Port}
    (hf : ∀ p, (f p).member = p.member ∧ (f p).links = p.links) :
    (n.modify i f).wiring = n.wiring := by
  funext j
  rw [wiring, wiring, Fabric.get?_modify]
  split
  · rw [Option.map_map]
    exact congrArg (Option.map · _) (funext fun p => Prod.ext (hf p).1 (hf p).2)
  · rfl

theorem wiring_send (n : Network) (i : Nat) (peer : Member) (frame : Bytes) :
    (n.send i peer frame).2.wiring = n.wiring := by
  unfold send
  split
  · rfl
  · split
    · rfl
    · split
      · rfl
      · exact wiring_modify n _ fun _ => ⟨rfl, rfl⟩

theorem wiring_subscribe (n : Network) (i : Nat) : (n.subscribe i).2.wiring = n.wiring := by
  unfold subscribe
  split
  · exact wiring_modify n i fun _ => ⟨rfl, rfl⟩
  · rfl

theorem wiring_takeAll (n : Network) (i : Nat) : (n.takeAll i).2.wiring = n.wiring := by
  unfold takeAll
  split
  · exact wiring_modify n i fun _ => ⟨rfl, rfl⟩
  · rfl

theorem wiring_unsubscribe (n : Network) (i : Nat) : (n.unsubscribe i).wiring = n.wiring :=
  wiring_modify n i fun _ => ⟨rfl, rfl⟩

/-! ### What lays and cuts links -/

theorem Wired.congr (h : n.Wired) (hsame : n'.wiring = n.wiring) : n'.Wired := by
  intro i p m j hp hlink
  have hwiring : (n.get? i).map (fun p => (p.member, p.links)) = some (p.member, p.links) := by
    have hi : n'.wiring i = n.wiring i := by rw [hsame]
    rw [wiring, hp] at hi
    exact hi.symm
  obtain ⟨q, hq, heq⟩ := Option.map_eq_some_iff.1 hwiring
  have hlinks : q.links = p.links := congrArg Prod.snd heq
  rw [member?_congr hsame]
  exact h i q m j hq (by rwa [hlinks])

/-- Ports that change and keep their members stay wired if every new link is. -/
theorem Wired.modify (h : n.Wired) {f : Port → Port} (hmember : ∀ p, (f p).member = p.member)
    (hlinks : ∀ p m j, n.get? i = some p → (f p).links.get? m = some j →
      p.links.get? m = some j ∨ n.member? j = some m) : (n.modify i f).Wired := by
  intro k p m j hp hlink
  rw [member?_modify n i hmember]
  rw [Fabric.get?_modify] at hp
  split at hp
  · next hk =>
    subst hk
    obtain ⟨q, hq, rfl⟩ := Option.map_eq_some_iff.1 hp
    rcases hlinks q m j hq hlink with hold | hnew
    · exact h k q m j hq hold
    · exact hnew
  · exact h k p m j hp hlink

/-- A link that is left after one was cut was there before. -/
theorem get?_of_get?_erase {links : OrdMap Member Nat} {peer m : Member} {j : Nat}
    (h : (links.erase peer).get? m = some j) : links.get? m = some j := by
  rw [OrdMap.get?_erase] at h
  split at h
  · cases h
  · exact h

theorem member?_disconnect (n : Network) (i : Nat) (peer : Member) :
    (n.disconnect i peer).member? = n.member? := member?_modify n i fun _ => rfl

theorem Wired.disconnect (h : n.Wired) (i : Nat) (peer : Member) :
    (n.disconnect i peer).Wired :=
  h.modify (fun _ => rfl) fun _ _ _ _ hlink => .inl (get?_of_get?_erase hlink)

theorem member?_link (n : Network) (i j : Nat) : (n.link i j).member? = n.member? := by
  unfold link
  split
  · exact member?_modify n i fun _ => rfl
  · rfl

theorem Wired.link (h : n.Wired) (i j : Nat) : (n.link i j).Wired := by
  unfold Network.link
  split
  · next peer hpeer =>
    refine h.modify (fun _ => rfl) fun p m k _ hlink => ?_
    rw [OrdMap.get?_insert] at hlink
    split at hlink
    · next hm =>
      cases hlink
      exact .inr (by rw [member?, hpeer, hm]; rfl)
    · exact .inl hlink
  · exact h

theorem member?_connect (n : Network) (i j : Nat) : (n.connect i j).member? = n.member? :=
  (member?_link _ j i).trans (member?_link n i j)

theorem Wired.connect (h : n.Wired) (i j : Nat) : (n.connect i j).Wired := (h.link i j).link j i

/-- Every port without its link to a member. -/
theorem get?_map_erase (n : Network) (peer : Member) (i : Nat) :
    (⟨n.ports.map fun p => { p with links := p.links.erase peer }⟩ : Network).get? i
      = (n.get? i).map fun p => { p with links := p.links.erase peer } :=
  List.getElem?_map ..

theorem member?_isolate (n : Network) (i : Nat) : (n.isolate i).member? = n.member? := by
  unfold isolate
  split
  · next port _ =>
    rw [member?_modify]
    · funext j
      rw [member?, member?, get?_map_erase, Option.map_map]
      rfl
    · exact fun _ => rfl
  · rfl

theorem Wired.isolate (h : n.Wired) (i : Nat) : (n.isolate i).Wired := by
  unfold Network.isolate
  split
  · next port _ =>
    have hcut : (⟨n.ports.map fun p => { p with links := p.links.erase port.member }⟩
        : Network).Wired := by
      intro k p m j hp hlink
      rw [get?_map_erase] at hp
      obtain ⟨q, hq, rfl⟩ := Option.map_eq_some_iff.1 hp
      have hmember := h k q m j hq (get?_of_get?_erase hlink)
      rw [member?, get?_map_erase, Option.map_map]
      exact hmember
    exact hcut.modify (fun _ => rfl) fun _ _ _ _ hlink => by cases hlink
  · exact h

theorem get?_addPort (n : Network) (m : Member) (i : Nat) :
    (n.addPort m).get? i = if i = n.ports.length then some { member := m } else n.get? i := by
  rw [addPort, get?, get?]
  rcases Nat.lt_trichotomy i n.ports.length with hlt | rfl | hgt
  · rw [List.getElem?_append_left hlt, if_neg (Nat.ne_of_lt hlt)]
  · rw [List.getElem?_concat_length, if_pos rfl]
  · rw [if_neg (Nat.ne_of_gt hgt), List.getElem?_eq_none (Nat.le_of_lt hgt),
      List.getElem?_eq_none (by rw [List.length_append]; exact hgt)]

/-- A port that is added changes nobody's place. -/
theorem member?_addPort {m : Member} (h : n.member? i = some m) (m' : Member) :
    (n.addPort m').member? i = some m := by
  rw [member?, get?_addPort]
  split
  · next hi =>
    rw [member?, get?, hi, List.getElem?_eq_none (Nat.le_refl _)] at h
    cases h
  · exact h

theorem Wired.addPort (h : n.Wired) (m' : Member) : (n.addPort m').Wired := by
  intro k p m j hp hlink
  rw [get?_addPort] at hp
  split at hp
  · cases hp
    cases hlink
  · exact member?_addPort (h k p m j hp hlink) m'

end Network

/-! ## Fabrics -/

/-- What can be done with the members of one process. -/
inductive Deed (μ σ : Type) where
  | addPort (m : Member)
  | connect (i j : Nat)
  /-- The link from a port to a peer is cut. -/
  | cut (i : Nat) (peer : Member)
  | isolate (i : Nat)
  | subscribe (i : Nat)
  | unsubscribe (i : Nat)
  | takeAll (i : Nat)
  | sendFrame (i : Nat) (peer : Member) (frame : Bytes)
  /-- The member of a port takes part from now on. -/
  | enter (i : Nat) (config : Config)
  | start (i : Nat)
  | shutdown (i : Nat)
  | disconnect (i : Nat)
  | reconnect (i : Nat)
  | learn (i : Nat) (kind : UInt16) (reader : Reader μ)
  | attach (i : Nat) (attached : Option σ)
  | newEvent (i : Nat) (p : Producer)
  | newProducer
  | listen (owner : Nat)
  | unlisten (owner : Nat)
  | join (m : Member)
  | depart (m : Member) (crashed : Bool)
  | await (i : Nat) (recipients : List Member)
  /-- Something is done with a keeper, such as a cancellation. -/
  | keep (i : Nat) (f : Keeper → Keeper)
  | send (i : Nat) (m : Message μ) (recipients : Recipients)
  | handle (i : Nat) (x : Inbound μ)
  | dispatch (i : Nat) (arrival : Arrival)
  | act (a : Activity)

namespace Fabric

variable {μ σ : Type}

section Deeds

variable [AppMessage μ] [Service μ σ]

/-- The fabric after a deed. -/
def perform (w : Fabric μ σ) : Deed μ σ → Fabric μ σ
  | .addPort m => w.modifyNetwork (·.addPort m)
  | .connect i j => w.modifyNetwork (·.connect i j)
  | .cut i peer => w.modifyNetwork (·.disconnect i peer)
  | .isolate i => w.modifyNetwork (·.isolate i)
  | .subscribe i => w.modifyNetwork fun n => (n.subscribe i).2
  | .unsubscribe i => w.modifyNetwork (·.unsubscribe i)
  | .takeAll i => w.modifyNetwork fun n => (n.takeAll i).2
  | .sendFrame i peer frame => (w.sendFrame i peer frame).2
  | .enter i config => (w.addNode i config).2
  | .start i => (w.start i).2
  | .shutdown i => w.shutdown i
  | .disconnect i => w.disconnect i
  | .reconnect i => (w.reconnect i).2
  | .learn i kind reader => w.learn i kind reader
  | .attach i attached => w.modify i fun n => { n with attached }
  | .newEvent i p => (w.newEvent i p).2.2
  | .newProducer => w.newProducer.2
  | .listen owner => { w with membership := (w.membership.listen owner).2 }
  | .unlisten owner => { w with membership := w.membership.unlisten owner }
  | .join m => w.join m
  | .depart m crashed => (w.depart m crashed).2
  | .await i recipients => (w.await i recipients).2
  | .keep i f => w.modifyKeeper i f
  | .send i m recipients => (w.send i m recipients).2
  | .handle i x => w.handle i x
  | .dispatch i arrival => w.dispatch i arrival
  | .act a => w.act a

/-- The fabric after deeds, from nothing. -/
def run (deeds : List (Deed μ σ)) : Fabric μ σ := deeds.foldl perform {}

end Deeds

/-- How the ports are linked, and under which names nodes take part. -/
def wiring (w : Fabric μ σ) :
    (Nat → Option (Member × OrdMap Member Nat)) × (Nat → Option Member) :=
  (w.network.wiring, fun i => (w.node? i).map (·.member))

/-- **Links lead to whom they name**, and nodes speak under the names of their ports. -/
structure Wired (w : Fabric μ σ) : Prop where
  links : w.network.Wired
  named : ∀ i n, w.node? i = some n → w.network.member? i = some n.member

variable {w w' : Fabric μ σ} {i : Nat} {n n' : Node μ σ}

theorem Wired.congr (h : w.Wired) (hsame : w'.wiring = w.wiring) : w'.Wired where
  links := h.links.congr (congrArg Prod.fst hsame)
  named i n hn := by
    have hnames : (w'.node? i).map (·.member) = (w.node? i).map (·.member) :=
      congrFun (congrArg Prod.snd hsame) i
    rw [hn] at hnames
    obtain ⟨q, hq, heq⟩ := Option.map_eq_some_iff.1 hnames.symm
    have hmember : q.member = n.member := heq
    rw [Network.member?_congr (congrArg Prod.fst hsame), ← hmember]
    exact h.named i q hq

/-- Links are laid or cut, and every port keeps its member. -/
theorem Wired.setNetwork (h : w.Wired) {network : Network} (hlinks : network.Wired)
    (hmembers : ∀ i m, w.network.member? i = some m → network.member? i = some m) :
    ({ w with network } : Fabric μ σ).Wired where
  links := hlinks
  named i n hn := hmembers i n.member (h.named i n hn)

/-- A node that takes part anew speaks under the name of its port. -/
theorem Wired.addNode (h : w.Wired) (i : Nat) (config : Config) : (w.addNode i config).2.Wired := by
  unfold Fabric.addNode
  split
  · exact h
  · next member hmember =>
    dsimp only
    split
    · exact h.congr rfl
    · refine ⟨h.links, fun j n hn => ?_⟩
      rw [setNode, node?, OrdMap.get?_insert] at hn
      split at hn
      · next hj =>
        cases hn
        exact hj ▸ hmember
      · exact h.named j n hn

/-! ### What leaves the wiring -/

/-- A node that is put back under its name leaves the wiring. -/
theorem wiring_putBack (hn : w.node? i = some n) (hsame : n'.member = n.member) :
    (w.setNode i n').wiring = w.wiring := by
  refine Prod.ext rfl (funext fun j => ?_)
  show ((w.setNode i n').node? j).map (·.member) = (w.node? j).map (·.member)
  rw [setNode, node?, OrdMap.get?_insert]
  split
  · next hj => rw [hj, hn, Option.map_some, Option.map_some, hsame]
  · rfl

theorem wiring_modify (w : Fabric μ σ) (i : Nat) {f : Node μ σ → Node μ σ}
    (h : ∀ n, (f n).member = n.member) : (w.modify i f).wiring = w.wiring := by
  unfold modify
  split
  · next n hn => exact wiring_putBack hn (h n)
  · rfl

theorem wiring_disconnect (w : Fabric μ σ) (i : Nat) : (w.disconnect i).wiring = w.wiring :=
  wiring_modify w i fun _ => rfl

theorem wiring_setNetwork {network : Network} (h : network.wiring = w.network.wiring) :
    ({ w with network } : Fabric μ σ).wiring = w.wiring := Prod.ext h rfl

theorem wiring_call (w : Fabric μ σ) (a : Activity) : (w.call a).wiring = w.wiring := by
  unfold call
  split <;> rfl

theorem wiring_notify (w : Fabric μ σ) (i : Nat) : (w.notify i).wiring = w.wiring := by
  unfold notify
  split
  · exact wiring_call w _
  · rfl

theorem wiring_announce (w : Fabric μ σ) (notices : List Notice) :
    (w.announce notices).wiring = w.wiring := by
  refine Prod.ext rfl (funext fun i => ?_)
  show ((w.announce notices).node? i).map (·.member) = (w.node? i).map (·.member)
  rw [node?_announce_eq]
  cases w.node? i with
  | none => rfl
  | some n =>
    obtain ⟨keeper, htold⟩ := exists_foldl_tell notices n
    rw [Option.map_some, htold]
    rfl

theorem wiring_depart (w : Fabric μ σ) (m : Member) (crashed : Bool) :
    (w.depart m crashed).2.wiring = w.wiring := wiring_announce _ _

theorem wiring_join (w : Fabric μ σ) (m : Member) : (w.join m).wiring = w.wiring :=
  wiring_announce _ _

theorem wiring_await (w : Fabric μ σ) (i : Nat) (recipients : List Member) :
    (w.await i recipients).2.wiring = w.wiring := by
  unfold await
  split
  · rfl
  · next n hn => exact wiring_putBack hn rfl

theorem wiring_newEvent (w : Fabric μ σ) (i : Nat) (p : Producer) :
    (w.newEvent i p).2.2.wiring = w.wiring := by
  unfold newEvent
  split
  · rfl
  · next n hn => exact wiring_putBack hn rfl

theorem wiring_reconnect (w : Fabric μ σ) (i : Nat) : (w.reconnect i).2.wiring = w.wiring := by
  unfold reconnect
  split
  · rfl
  · next n hn =>
    dsimp only
    split
    · rfl
    · exact wiring_putBack (w := (w.newConnection n.member).2) hn rfl

theorem wiring_start (w : Fabric μ σ) (i : Nat) : (w.start i).2.wiring = w.wiring := by
  unfold start
  split
  · rfl
  · next n hn =>
    split
    · rfl
    · have hsubscribed := w.network.wiring_subscribe i
      split
      · rfl
      · next network heq =>
        rw [heq] at hsubscribed
        rw [wiring_call, wiring_call]
        have hnetwork : ({ w with network } : Fabric μ σ).wiring = w.wiring :=
          wiring_setNetwork hsubscribed
        rw [← hnetwork]
        exact wiring_putBack hn rfl

theorem wiring_sendFrame (w : Fabric μ σ) (i : Nat) (peer : Member) (frame : Bytes) :
    (w.sendFrame i peer frame).2.wiring = w.wiring := by
  have hsent := w.network.wiring_send i peer frame
  unfold sendFrame
  split
  · next heq =>
    rw [heq] at hsent
    exact (wiring_notify _ _).trans (wiring_setNetwork hsent)
  · next heq =>
    rw [heq] at hsent
    exact wiring_setNetwork hsent

theorem wiring_deliver (w : Fabric μ σ) (i : Nat) (here : Member) (frame : Bytes) (m : Member) :
    (w.deliver i here frame m).2.wiring = w.wiring := by
  unfold deliver
  split
  · exact (wiring_notify _ _).trans
      (wiring_setNetwork (w.network.wiring_modify i fun _ => ⟨rfl, rfl⟩))
  · have hsent := w.wiring_sendFrame i m frame
    split <;> next heq => rwa [heq] at hsent

theorem wiring_deliverAll (w : Fabric μ σ) (i : Nat) (here : Member) (frame : Bytes)
    (members : List Member) : (w.deliverAll i here frame members).2.wiring = w.wiring := by
  induction members generalizing w with
  | nil => rfl
  | cons m rest ih =>
    show ((w.deliver i here frame m).2.deliverAll i here frame rest).2.wiring = _
    rw [ih, wiring_deliver]

/-- What one leaves at a time, many leave one after another. -/
theorem wiring_foldl {α : Type} {f : Fabric μ σ → α → Fabric μ σ}
    (hf : ∀ w a, (f w a).wiring = w.wiring) (l : List α) (w : Fabric μ σ) :
    (l.foldl f w).wiring = w.wiring := by
  induction l generalizing w with
  | nil => rfl
  | cons a rest ih => exact (ih (f w a)).trans (hf w a)

section Sending

variable [AppMessage μ]

theorem wiring_send (w : Fabric μ σ) (i : Nat) (m : Message μ) (recipients : Recipients) :
    (w.send i m recipients).2.wiring = w.wiring := by
  unfold send
  split
  · rfl
  · split
    · rfl
    · exact wiring_deliverAll _ _ _ _ _

theorem wiring_sendReply (w : Fabric μ σ) (i : Nat) (m : Member) (r : Reply) :
    (w.sendReply i m r).2.wiring = w.wiring := wiring_send w i _ _

theorem wiring_handleFailure (w : Fabric μ σ) (i : Nat) (sender : Member) (m : μ)
    (e : FabricError) : (w.handleFailure i sender m e).wiring = w.wiring := by
  unfold handleFailure
  dsimp only
  split
  · rfl
  · split
    · exact wiring_modify w i fun _ => rfl
    · unfold sendException
      split
      · rfl
      · exact wiring_sendReply w i sender _

end Sending

section Handling

variable [AppMessage μ] [Service μ σ]

theorem wiring_serve (hn : w.node? i = some n) (sender : Member) (m : μ) :
    (w.serve i n sender m).2.wiring = w.wiring := by
  unfold serve
  dsimp only
  split
  · exact wiring_putBack hn rfl
  · exact wiring_putBack hn rfl
  · exact (wiring_sendReply _ _ _ _).trans (wiring_putBack hn rfl)

theorem wiring_handle (w : Fabric μ σ) (i : Nat) (x : Inbound μ) :
    (w.handle i x).wiring = w.wiring := by
  unfold handle
  split
  · rfl
  · next n hn =>
    split
    · exact wiring_putBack hn rfl
    · next m hm =>
      have hserved := wiring_serve hn x.sender m
      split
      · next heq => rwa [heq] at hserved
      · next heq =>
        rw [heq] at hserved
        exact (wiring_handleFailure _ _ _ _ _).trans hserved

theorem wiring_dispatch (w : Fabric μ σ) (i : Nat) (arrival : Arrival) :
    (w.dispatch i arrival).wiring = w.wiring := by
  unfold dispatch
  split
  · rfl
  · next n hn =>
    split
    · rfl
    · split
      · rfl
      · dsimp only
        split
        · exact wiring_handle w i _
        · exact (wiring_call _ _).trans (wiring_putBack hn rfl)

theorem wiring_takeIn (w : Fabric μ σ) (i : Nat) : (w.takeIn i).wiring = w.wiring :=
  (wiring_foldl (fun w arrival => w.wiring_dispatch i arrival) _ _).trans
    (wiring_setNetwork (w.network.wiring_takeAll i))

theorem wiring_receive (w : Fabric μ σ) (i : Nat) : (w.receive i).wiring = w.wiring := by
  unfold receive
  split
  · rw [wiring_takeIn, wiring_takeIn]
  · rfl

theorem wiring_work (w : Fabric μ σ) (i : Nat) : (w.work i).wiring = w.wiring := by
  unfold work
  split
  · rfl
  · next n hn =>
    exact (wiring_foldl (fun w x => w.wiring_handle i x) _ _).trans (wiring_putBack hn rfl)

theorem wiring_act (w : Fabric μ σ) (a : Activity) : (w.act a).wiring = w.wiring := by
  cases a with
  | receive i => exact w.wiring_receive i
  | work i => exact w.wiring_work i

theorem wiring_shutdown (w : Fabric μ σ) (i : Nat) : (w.shutdown i).wiring = w.wiring := by
  unfold shutdown
  split
  · rfl
  · next n hn =>
    split
    · rfl
    · have hclosed : (if n.started then w.network.unsubscribe i else w.network).wiring
          = w.network.wiring := by
        split
        · exact w.network.wiring_unsubscribe i
        · rfl
      dsimp only
      -- The node is put back into a fabric whose network has changed already.
      rw [wiring_work, wiring_disconnect, ← wiring_setNetwork hclosed]
      exact wiring_putBack hn rfl

/-! ### Whatever is done -/

/-- **A deed leaves the fabric wired.** -/
theorem Wired.perform (h : w.Wired) (d : Deed μ σ) : (w.perform d).Wired := by
  cases d with
  | addPort m =>
    exact h.setNetwork (h.links.addPort m) fun _ _ hm => Network.member?_addPort hm m
  | connect i j =>
    exact h.setNetwork (h.links.connect i j) fun _ _ hm => by rwa [Network.member?_connect]
  | cut i peer =>
    exact h.setNetwork (h.links.disconnect i peer) fun _ _ hm => by rwa [Network.member?_disconnect]
  | isolate i =>
    exact h.setNetwork (h.links.isolate i) fun _ _ hm => by rwa [Network.member?_isolate]
  | subscribe i => exact h.congr (wiring_setNetwork (w.network.wiring_subscribe i))
  | unsubscribe i => exact h.congr (wiring_setNetwork (w.network.wiring_unsubscribe i))
  | takeAll i => exact h.congr (wiring_setNetwork (w.network.wiring_takeAll i))
  | sendFrame i peer frame => exact h.congr (w.wiring_sendFrame i peer frame)
  | enter i config => exact h.addNode i config
  | start i => exact h.congr (w.wiring_start i)
  | shutdown i => exact h.congr (w.wiring_shutdown i)
  | disconnect i => exact h.congr (w.wiring_disconnect i)
  | reconnect i => exact h.congr (w.wiring_reconnect i)
  | learn i kind reader => exact h.congr (w.wiring_modify i fun _ => rfl)
  | attach i attached => exact h.congr (w.wiring_modify i fun _ => rfl)
  | newEvent i p => exact h.congr (w.wiring_newEvent i p)
  | newProducer => exact h.congr rfl
  | listen owner => exact h.congr rfl
  | unlisten owner => exact h.congr rfl
  | join m => exact h.congr (w.wiring_join m)
  | depart m crashed => exact h.congr (w.wiring_depart m crashed)
  | await i recipients => exact h.congr (w.wiring_await i recipients)
  | keep i f => exact h.congr (w.wiring_modify i fun _ => rfl)
  | send i m recipients => exact h.congr (w.wiring_send i m recipients)
  | handle i x => exact h.congr (w.wiring_handle i x)
  | dispatch i arrival => exact h.congr (w.wiring_dispatch i arrival)
  | act a => exact h.congr (w.wiring_act a)

/-- **Whatever is done, a fabric is wired.** -/
theorem run_wired (deeds : List (Deed μ σ)) : (run deeds).Wired := by
  have hfold : ∀ w : Fabric μ σ, w.Wired → (deeds.foldl Fabric.perform w).Wired := by
    induction deeds with
    | nil => exact fun _ h => h
    | cons d rest ih => exact fun w h => ih (w.perform d) (h.perform d)
  refine hfold {} ⟨fun i p m j hp => ?_, fun i n hn => ?_⟩
  · cases hp
  · cases hn

end Handling

end Fabric

end DataGrid
