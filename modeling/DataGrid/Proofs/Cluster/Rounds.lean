import DataGrid.Proofs.Cluster.Replicating
import DataGrid.Proofs.Cluster.Traffic

/-!
# Rounds — beginning and ending a round of answers

A member whose keeper is idle begins a round by naming the event, registering for the answers and
sending the update. If the frame of the update is short, it arrives at every other live place and
is read there as the update of that event. When the answers are in, the round ends and the keeper
is idle again.
-/

namespace DataGrid

open Network (localMember)

namespace Fabric

variable {w : RegionFabric} {config : Config} {live : Nat → Prop} {sites : Nat → Site}
variable {i : Nat}

/-! ## The other members -/

theorem exists_map_eq {α β : Type} {f : α → β} {P : α → Prop} (l : List β)
    (h : ∀ b ∈ l, ∃ a, P a ∧ f a = b) : ∃ as : List α, l = as.map f ∧ ∀ a ∈ as, P a := by
  induction l with
  | nil => exact ⟨[], rfl, nofun⟩
  | cons b l ih =>
    obtain ⟨a, ha, rfl⟩ := h b List.mem_cons_self
    obtain ⟨as, rfl, has⟩ := ih fun b hb => h b (List.mem_cons_of_mem _ hb)
    refine ⟨a :: as, rfl, fun x hx => ?_⟩
    rcases List.mem_cons.1 hx with rfl | hx
    · exact ha
    · exact has x hx

theorem Shows.peers_eq (h : w.Shows config live sites) (r : Region) (hi : live r.place) :
    r.peers w = w.membership.others (localMember r.place) := by
  obtain ⟨n, hn, hat⟩ := h.node r.place hi
  rw [Region.peers, hn]
  simp only [hat.member]

/-- A member writes to every other live place, each once. -/
theorem Shows.exists_peers (h : w.Shows config live sites) (r : Region) (hi : live r.place) :
    ∃ js : List Nat, r.peers w = js.map localMember ∧ js.Nodup
      ∧ ∀ j, j ∈ js ↔ live j ∧ j ≠ r.place := by
  have hpeers : r.peers w = w.membership.toList.filter (· ≠ localMember r.place) :=
    h.peers_eq r hi
  have hmem : ∀ m, m ∈ r.peers w ↔ (∃ j, live j ∧ localMember j = m) ∧ m ≠ localMember r.place := by
    intro m
    rw [hpeers, List.mem_filter, decide_eq_true_iff]
    exact and_congr_left fun _ => OrdSet.mem_toList.trans (h.membership m)
  obtain ⟨js, hjs, hlive⟩ := exists_map_eq (f := localMember) (P := fun j => live j ∧ j ≠ r.place)
    (r.peers w) fun m hm => by
      obtain ⟨⟨j, hj, rfl⟩, hne⟩ := (hmem m).1 hm
      exact ⟨j, ⟨hj, fun heq => hne (heq ▸ rfl)⟩, rfl⟩
  refine ⟨js, hjs, ?_, fun j => ⟨hlive j, fun ⟨hj, hne⟩ => ?_⟩⟩
  · have hnodup : (js.map localMember).Nodup := by
      rw [← hjs, hpeers]
      exact (OrdSet.toList_nodup _).sublist List.filter_sublist
    exact (List.pairwise_map.1 hnodup).imp fun {a b} hab heq => hab (congrArg localMember heq)
  · have hm : localMember j ∈ r.peers w := (hmem _).2
      ⟨⟨j, hj, rfl⟩, fun heq => hne (h.distinct j r.place hj hi heq)⟩
    rw [hjs] at hm
    obtain ⟨k, hk, heq⟩ := List.mem_map.1 hm
    exact h.distinct k j (hlive k hk).1 hj heq ▸ hk

/-! ## Beginning -/

theorem Shows.processor?_eq (h : w.Shows config live sites) (hi : live i) (ticket : Nat) :
    w.processor? i ticket = (sites i).keeper.get? ticket :=
  h.hosts.processor?_eq hi ticket

/-- The frame of the update that a round at an idle place announces. A short one is read as the
update, but for the form of the producer's membership id. -/
theorem Shows.exists_frame (h : w.Shows config live sites) (r : Region) (hi : live r.place)
    (hidle : (sites r.place).keeper.Idle) (key : Bytes) (recipients : List Member)
    (payload : Payload) :
    ∃ u frame, r.announcement w key recipients payload = some u
      ∧ Frame.encode (.app u) config.version = .ok frame
      ∧ u.processor = (sites r.place).keeper.next ∧ u.event.thread = r.producer.thread
      ∧ u.event.sequence = r.producer.next ∧ u.key = key ∧ u.payload = payload
      ∧ 9 ≤ frame.length ∧ payload.octets.length < frame.length
      ∧ (frame.length < 2147483648 → ∃ membership, Frame.decode Update.registry frame
          = .ok (.app { u with event := { u.event with membership } })) := by
  have hexists := h.hosts.exists_frame hi (m := localMember r.place) rfl hidle.next recipients key
    payload
  rwa [hidle.freshId] at hexists

/-- **A round begins.** The update arrives at every recipient, the sender awaits them all, and its
producer has moved on. -/
theorem Shows.begin (h : w.Shows config live sites) (r : Region) (hi : live r.place)
    (hidle : (sites r.place).keeper.Idle) {js : List Nat} (hnonempty : js ≠ []) (hjs : js.Nodup)
    (hlive : ∀ j ∈ js, live j ∧ j ≠ r.place) (key : Bytes) (payload : Payload) {u : Update}
    {frame : Bytes} (hu : r.announcement w key (js.map localMember) payload = some u)
    (hframe : Frame.encode (.app u) config.version = .ok frame)
    (hfits : frame.length ≤ config.maxFrame) :
    ∃ ticket keeper w',
      r.begin w (js.map localMember) key payload
        = (.ok ticket, { r with producer := r.producer.reserve.2 }, w')
      ∧ keeper.Awaits ticket (sites r.place).keeper.next
          (.await (js.map localMember) w.membership.contains)
      ∧ w'.Shows config live (fun j =>
          if j ∈ js then (sites j).arrive (localMember r.place, frame)
          else Function.update sites r.place { sites r.place with keeper } j)
      ∧ w'.due = js.foldl (fun due j => (Activity.receive j).enqueue due) w.due := by
  have hwaits := hidle.register (.await (js.map localMember) w.membership.contains)
  rcases hregister : (sites r.place).keeper.register
    (.await (js.map localMember) w.membership.contains) with ⟨ticket, keeper⟩
  rw [hregister] at hwaits
  obtain ⟨w', hbegin, hhosts, hdue⟩ := h.hosts.begin (h.sends hi hjs hlive)
    (fun hnil => hnonempty (List.map_eq_nil_iff.1 hnil)) (m := localMember r.place) rfl hregister
    key payload hu hframe hfits
  -- Everybody was reached, so nobody is taken to have left.
  rw [departed, h.missed_eq hi hlive, List.foldl_nil] at hhosts
  unfold begun at hhosts
  rw [h.reached_eq hi hlive] at hhosts hdue
  exact ⟨ticket, keeper, w', hbegin, hwaits, hhosts.shows h, hdue⟩

/-! ## The end of a round -/

/-- **A round ends when everybody has answered plainly.** The wait has an outcome, nobody asks for
the whole value, and the keeper is idle. -/
theorem Shows.finish (h : w.Shows config live sites) (hi : live i) {ticket : Nat} {id : Int32}
    {recipients : List Member} {isMember : Member → Bool} {events : List ProcessorEvent}
    (hwaits : (sites i).keeper.Awaits ticket id ((Processor.await recipients isMember).run events))
    (hplain : Processor.Plain id events) (hmember : ∀ m ∈ recipients, isMember m)
    (hall : ∀ m ∈ recipients, .reply m { processor := id } ∈ events) :
    ∃ o keeper w', Region.finish w i ticket = (.ok o, w') ∧ o.needsFullValue = [] ∧ keeper.Idle
      ∧ w'.Shows config live (Function.update sites i { sites i with keeper })
      ∧ w'.due = w.due := by
  obtain ⟨o, ho, hstale⟩ := Processor.wait_run_of_plain hplain hmember hall id
  obtain ⟨w', hfinish, hhosts, hdue⟩ := h.hosts.finish hi hwaits.holds
  rw [ho] at hfinish
  exact ⟨o, _, w', hfinish, hstale, hwaits.drop, hhosts.shows h, hdue⟩

end Fabric

end DataGrid
