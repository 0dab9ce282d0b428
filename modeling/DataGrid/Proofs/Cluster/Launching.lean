import DataGrid.Proofs.Cluster.Rounds
import DataGrid.Proofs.Region.Replicas

/-!
# Launching — how a write begins

A live member with an idle keeper carries a command out on its copy. Either that is all
(`Fabric.Kept`): the command was refused, or there is nothing to tell, or nobody to tell it to. Or
a round begins (`Fabric.Sent`): the frame of the update has arrived at every other live place, and
its payload carries the change to every copy that is alike to the writer's copy of before.
-/

namespace DataGrid

open Network (localMember)

/-- Whether a frame is read as an update of a producer's next event that awaits answers under a
number, and is short enough for everybody. -/
structure Announces (config : Config) (frame : Bytes) (u : Update) (id : Int32) (p : Producer) :
    Prop where
  decode : Frame.decode Update.registry frame = .ok (.app u)
  fits : frame.length ≤ config.maxFrame
  long : 9 ≤ frame.length
  processor : u.processor = id
  thread : u.event.thread = p.thread
  sequence : u.event.sequence = p.next

/-- Whether the frame of a write, if it sends one, is within the limits of everybody who writes or
reads it. -/
def Region.fits (r : Region) (w : RegionFabric) (config : Config) (key : Bytes) (c : Command) :
    Bool :=
  (r.frame? w key config.version c).all fun frame =>
    frame.length ≤ config.maxFrame && frame.length < 2147483648

namespace Fabric

variable {w : RegionFabric} {config : Config} {live : Nat → Prop} {sites : Nat → Site}
variable {r : Region}

theorem Shows.entries (h : w.Shows config live sites) (hi : live r.place) :
    r.entries w = (sites r.place).state.entries := by
  obtain ⟨n, hn, hat⟩ := h.node r.place hi
  rw [Region.entries, Region.state, attached?, hn, Option.bind_some, hat.attached]
  rfl

theorem Shows.setEntries (h : w.Shows config live sites) (hi : live r.place) (entries : Entries) :
    ∃ w', r.setEntries w entries = w'
      ∧ w'.Shows config live (Function.update sites r.place
          { sites r.place with state := { (sites r.place).state with entries } })
      ∧ w'.due = w.due ∧ w'.membership = w.membership := by
  obtain ⟨n, hn, hat⟩ := h.node r.place hi
  have heq : r.setEntries w entries = w.setNode r.place
      { n with attached := some { (sites r.place).state with entries } } := by
    rw [Region.setEntries, modify, hn]
    simp only [hat.attached, Option.map_some]
  exact ⟨_, heq, h.setNode ⟨hat.member, hat.config, hat.registry, hat.keeper, hat.queue,
    hat.identity, rfl, hat.started, hat.running⟩ rfl, rfl, rfl⟩

/-- A write that stays at home: nothing changes but the writer's copy, and for the others that
copy is as it was. -/
structure Kept (w w' : RegionFabric) (config : Config) (live : Nat → Prop) (sites : Nat → Site)
    (r : Region) (key : Bytes) (entries : Entries) : Prop where
  shows : w'.Shows config live (Function.update sites r.place
    { sites r.place with state := { (sites r.place).state with entries } })
  due : w'.due = w.due
  alike : ∀ j, live j → j ≠ r.place → (sites r.place).state.entries.AlikeAt key entries

/-- A write that is sent: the update has arrived at every other live place, and the writer awaits
their answers. -/
structure Sent (w w' : RegionFabric) (config : Config) (live : Nat → Prop) (sites : Nat → Site)
    (r : Region) (round : Round) (entries : Entries) (js : List Nat) (frame : Bytes) (u : Update)
    (keeper : Keeper) : Prop where
  shows : w'.Shows config live fun j =>
    if j ∈ js then (sites j).arrive (localMember r.place, frame)
    else Function.update sites r.place { sites r.place with
      state := { (sites r.place).state with entries }, keeper } j
  due : w'.due = js.foldl (fun due j => (Activity.receive j).enqueue due) w.due
  nonempty : js ≠ []
  nodup : js.Nodup
  mem_iff : ∀ j, j ∈ js ↔ live j ∧ j ≠ r.place
  announces : Announces config frame u (sites r.place).keeper.next r.producer
  key : u.key = round.key
  payload : u.payload = round.payload
  carries : round.payload.Carries round.key ((sites r.place).state.entries.get? round.key)
    (entries.get? round.key)
  awaits : keeper.Awaits round.ticket (sites r.place).keeper.next
    (.await (js.map localMember) w.membership.contains)
  members : ∀ m ∈ js.map localMember, w.membership.contains m

/-- A payload goes to the other live places, if there are any. -/
theorem Shows.launch_payload (h : w.Shows config live sites) (hi : live r.place)
    (hidle : (sites r.place).keeper.Idle) {key : Bytes} {c : Command} {answer : Answer}
    {payload : Payload} {entries : Entries}
    (hrun : (r.entries w).run key c = (.ok (answer, some payload), entries))
    (htells : Payload.Tells key ((sites r.place).state.entries.get? key) (entries.get? key)
      (some payload))
    {js : List Nat} (hjs : r.peers w = js.map localMember) (hnonempty : js ≠ []) (hnodup : js.Nodup)
    (hmem : ∀ j, j ∈ js ↔ live j ∧ j ≠ r.place) (hfits : r.fits w config key c) :
    ∃ round w' frame u keeper, round.key = key
      ∧ r.launch w key c
        = (.ok (answer, some round), { r with producer := r.producer.reserve.2 }, w')
      ∧ w.Sent w' config live sites r round entries js frame u keeper := by
  obtain ⟨w₁, hw₁, hshow, hdue, hmembership⟩ := h.setEntries hi entries
  have hpeers : r.peers w₁ = js.map localMember := by
    rw [hshow.peers_eq r hi, hmembership, ← h.peers_eq r hi, hjs]
  obtain ⟨j, rest, rfl⟩ := List.exists_cons_of_ne_nil hnonempty
  generalize hall : j :: rest = js at *
  have hidle₁ : (Function.update sites r.place
      { sites r.place with state := { (sites r.place).state with entries } } r.place).keeper.Idle
      := by
    rw [Function.update_self]
    exact hidle
  obtain ⟨u, frame, hu, hframe, hprocessor, hthread, hsequence, hkey, hpayload, hnine, hlong,
    hdecode⟩ := hshow.exists_frame r hi hidle₁ key (js.map localMember) payload
  rw [Function.update_self] at hprocessor
  -- The limits were asked of the frame that this update has.
  have hsent : r.frame? w key config.version c = some frame := by
    rw [Region.frame?, hrun]
    simp only [hjs, ← hall, List.map_cons, hw₁]
    rw [← List.map_cons, hall, hu]
    exact congrArg Except.toOption hframe
  rw [Region.fits, hsent, Option.all_some, Bool.and_eq_true, decide_eq_true_iff, decide_eq_true_iff]
    at hfits
  obtain ⟨membership, hdecode⟩ := hdecode hfits.2
  obtain ⟨ticket, keeper, w₂, hbegin, hwaits, hshow₂, hdue₂⟩ := hshow.begin r hi hidle₁ hnonempty
    hnodup (fun j hj => (hmem j).1 hj) key payload hu hframe hfits.1
  rw [Function.update_self, hmembership] at hwaits
  have hlaunch : r.launch w key c = (.ok (answer, some { ticket, key, payload }),
      { r with producer := r.producer.reserve.2 }, w₂) := by
    rw [Region.launch, hrun]
    simp only [hw₁, hpeers, ← hall, List.map_cons]
    rw [← List.map_cons, hall, hbegin]
  refine ⟨{ ticket, key, payload }, w₂, frame,
    { u with event := { u.event with membership } }, keeper, rfl, hlaunch, ?_⟩
  exact {
    shows := hshow₂.of_forall_eq fun k => by
      by_cases hk : k ∈ js
      · have hne : k ≠ r.place := ((hmem k).1 hk).2
        rw [if_pos hk, if_pos hk, Function.update_of_ne hne]
      · rw [if_neg hk, if_neg hk, Function.update_idem, Function.update_self]
    due := by rw [hdue₂, hdue]
    nonempty := hnonempty
    nodup := hnodup
    mem_iff := hmem
    announces := ⟨hdecode, hfits.1, hnine, hprocessor, hthread, hsequence⟩
    key := hkey
    payload := hpayload
    carries := htells (by omega)
    awaits := hwaits
    members := fun m hm => by
      obtain ⟨j, hj, rfl⟩ := List.mem_map.1 hm
      exact (h.membership _).2 ⟨j, ((hmem j).1 hj).1, rfl⟩ }

/-- **A write stays at home or is sent.** -/
theorem Shows.launch (h : w.Shows config live sites) (hi : live r.place)
    (hidle : (sites r.place).keeper.Idle) (htidy : (sites r.place).state.entries.Tidy) (key : Bytes)
    (c : Command) (hfits : r.fits w config key c) :
    ∃ entries : Entries, entries.Tidy
      ∧ (∀ k, k ≠ key → entries.get? k = (sites r.place).state.entries.get? k)
      ∧ ((∃ (result : Except RegionError Answer) (w' : RegionFabric),
            r.launch w key c = (result.map (·, none), r, w')
            ∧ w.Kept w' config live sites r key entries)
        ∨ ∃ answer round w' js frame u keeper, round.key = key
            ∧ r.launch w key c
              = (.ok (answer, some round), { r with producer := r.producer.reserve.2 }, w')
            ∧ w.Sent w' config live sites r round entries js frame u keeper) := by
  obtain ⟨entries, hentries, htidy', hothers, htells⟩ := Entries.run_replicates htidy key c
  obtain ⟨w₁, hw₁, hshow, hdue, hmembership⟩ := h.setEntries hi entries
  refine ⟨entries, htidy', hothers, ?_⟩
  have hrun : (r.entries w).run key c = (((sites r.place).state.entries.run key c).1, entries) := by
    rw [h.entries hi, ← hentries]
  rcases hpair : (sites r.place).state.entries.run key c with ⟨result, rest⟩
  rw [hpair] at hrun htells
  have hkept : (∀ j, live j → j ≠ r.place → (sites r.place).state.entries.AlikeAt key entries) →
      w.Kept w₁ config live sites r key entries := fun halike => ⟨hshow, hdue, halike⟩
  rcases result with e | ⟨answer, _ | payload⟩
  · -- The command was refused.
    refine .inl ⟨.error (.command e), w₁, ?_, hkept fun _ _ _ => ?_⟩
    · rw [Region.launch, hrun]
      simp only [hw₁]
      rfl
    · rw [show entries = _ from htells]
      exact .refl key _
  · -- There is nothing to tell.
    refine .inl ⟨.ok answer, w₁, ?_, hkept fun _ _ _ => htells⟩
    rw [Region.launch, hrun]
    simp only [hw₁]
    rfl
  · obtain ⟨js, hjs, hnodup, hmem⟩ := hshow.exists_peers r hi
    rcases js with _ | ⟨j, js⟩
    · -- There is nobody to tell it to.
      refine .inl ⟨.ok answer, w₁, ?_, hkept fun j hj hne =>
        absurd ((hmem j).2 ⟨hj, hne⟩) List.not_mem_nil⟩
      rw [Region.launch, hrun]
      simp only [hw₁, hjs]
      rfl
    · obtain ⟨round, w', frame, u, keeper, hkey, hlaunch, hsent⟩ := h.launch_payload hi hidle hrun
        htells (by rw [← hjs, hshow.peers_eq r hi, hmembership, ← h.peers_eq r hi])
        (List.cons_ne_nil j js) hnodup hmem hfits
      exact .inr ⟨answer, round, w', _, frame, u, keeper, hkey, hlaunch, hsent⟩

end Fabric

end DataGrid
