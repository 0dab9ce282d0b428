import DataGrid.Proofs.Cluster.Exchange
import Mathlib.Data.List.Nodup

/-!
# Traffic — what sending, receiving and handling do to the sites

A frame that a live place sends to other ones arrives behind what has arrived there, and its
receivers fall due. A place that takes in an update queues it, one that takes in a reply hands it
to its keeper, and one that works off an update that applies changes its copy and answers with a
plain reply. Nothing else changes. All of this holds of any parties; here it is said of the live
places of a cluster.
-/

namespace DataGrid

open Network (localMember)

/-- The frame of a reply that says nothing but whom it answers. -/
def answerFrame (config : Config) (processor : Int32) : Bytes :=
  match Frame.encode (μ := Update) (.reply { processor }) config.version with
  | .ok frame => frame
  | .error _ => []

theorem answerFrame_spec (config : Config) (processor : Int32) :
    Frame.encode (μ := Update) (.reply { processor }) config.version
        = .ok (answerFrame config processor)
      ∧ (answerFrame config processor).length ≤ 9
      ∧ Frame.decode Update.registry (answerFrame config processor)
        = .ok (.reply { processor }) := by
  obtain ⟨frame, hframe, hlength, hdecode⟩ := Reply.exists_frame processor config.version
  have heq : answerFrame config processor = frame := by rw [answerFrame, hframe]
  rw [heq]
  exact ⟨hframe, hlength, hdecode⟩

namespace Fabric

variable {w : RegionFabric} {config : Config} {live : Nat → Prop} {sites : Nat → Site}
variable {i j : Nat}

theorem Shows.receives (h : w.Shows config live sites) (hi : live i) : w.receives i = true :=
  h.hosts.receives hi

/-! ## Sending -/

section Recipients

variable {js : List Nat}

/-- A live place can send to other live places. -/
theorem Shows.sends (h : w.Shows config live sites) (hi : live i) (hjs : js.Nodup)
    (hlive : ∀ j ∈ js, live j ∧ j ≠ i) :
    (w.parties config live).Sends i (js.map localMember) where
  here := hi
  nodup := hjs.map_on fun j hj k hk heq => h.distinct j k (hlive j hj).1 (hlive k hk).1 heq
  others hmem := by
    obtain ⟨j, hj, heq⟩ := List.mem_map.1 hmem
    exact (hlive j hj).2 (h.distinct j i (hlive j hj).1 hi heq)
  linked m hm k htarget := by
    obtain ⟨j, hj, rfl⟩ := List.mem_map.1 hm
    obtain ⟨hlj, hne⟩ := hlive j hj
    obtain rfl := Option.some.inj ((h.target?_eq hi hlj hne).symm.trans htarget)
    exact ⟨hlj, rfl, htarget, h.target?_eq hlj hi hne.symm⟩

/-- It reaches all of them. -/
theorem Shows.reached_eq (h : w.Shows config live sites) (hi : live i)
    (hlive : ∀ j ∈ js, live j ∧ j ≠ i) :
    (w.parties config live).reached i (js.map localMember) = js := by
  rw [Parties.reached, List.filterMap_map]
  refine (List.filterMap_congr fun j hj => ?_).trans List.filterMap_some
  exact h.target?_eq hi (hlive j hj).1 (hlive j hj).2

theorem Shows.missed_eq (h : w.Shows config live sites) (hi : live i)
    (hlive : ∀ j ∈ js, live j ∧ j ≠ i) :
    (w.parties config live).missed i (js.map localMember) = [] := by
  rw [Parties.missed, List.filter_eq_nil_iff]
  intro m hm
  obtain ⟨j, hj, rfl⟩ := List.mem_map.1 hm
  have htarget := h.target?_eq hi (hlive j hj).1 (hlive j hj).2
  change ¬(w.network.target? i (localMember j)).isNone = true
  rw [htarget]
  exact Bool.false_ne_true

end Recipients

/-! ## Handling -/

/-- A copy that an update applies to answers plainly. -/
theorem answer_of_applied {u : Update} {s s' : RegionState}
    (happly : s.applyUpdate u = (.ok .applied, s')) (here : Member) :
    s.answer here u = { processor := u.processor } := by
  rw [RegionState.answer, happly]

/-- It says so, since a plain answer is short. -/
theorem voice_of_applied {u : Update} {s s' : RegionState} (hmax : 9 ≤ config.maxFrame)
    (happly : s.applyUpdate u = (.ok .applied, s')) (here : Member) :
    s.voice config here u = some { processor := u.processor } := by
  obtain ⟨-, hlength, -⟩ := answerFrame_spec config u.processor
  have hanswer := answer_of_applied happly here
  rw [RegionState.voice_of_sendable, hanswer]
  rw [hanswer]
  exact decide_eq_true (Nat.le_trans hlength hmax)

/-- A reply that arrives is handed to the keeper. -/
theorem Shows.dispatch_reply (h : w.Shows config live sites) (hi : live i) (sender : Member)
    {frame : Bytes} {r : Reply} (hdecode : Frame.decode Update.registry frame = .ok (.reply r))
    (hfits : frame.length ≤ config.maxFrame) :
    (w.dispatch i (sender, frame)).Shows config live
        (Function.update sites i
          { sites i with keeper := ((sites i).keeper.processReply sender r).2 })
      ∧ (w.dispatch i (sender, frame)).due = w.due := by
  obtain ⟨hhosts, hdue⟩ := h.hosts.dispatch_reply hi sender hdecode hfits
  exact ⟨hhosts.shows h, hdue⟩

/-- An update that arrives is queued for the workers. -/
theorem Shows.dispatch_update (h : w.Shows config live sites) (hi : live i) (sender : Member)
    {frame : Bytes} {u : Update} (hdecode : Frame.decode Update.registry frame = .ok (.app u))
    (hfits : frame.length ≤ config.maxFrame) :
    (w.dispatch i (sender, frame)).Shows config live
        (Function.update sites i
          { sites i with queue := (sites i).queue ++ [{ sender, message := .app u }] })
      ∧ (w.dispatch i (sender, frame)).due = (Activity.work i).enqueue w.due := by
  obtain ⟨hhosts, hdue⟩ := h.hosts.dispatch_update hi sender hdecode hfits
  exact ⟨hhosts.shows h, hdue⟩

/-- Working off nothing. -/
theorem Shows.work_nil (h : w.Shows config live sites) (hi : live i)
    (hqueue : (sites i).queue = []) :
    (w.work i).Shows config live sites ∧ (w.work i).due = w.due := by
  obtain ⟨n, hn, hat⟩ := h.node i hi
  have hwork : w.work i = w.setNode i { n with queue := { normal := [] } } := by
    rw [work, hn]
    simp only [hat.queue, hqueue, TaskQueue.drain, TaskQueue.toList, List.nil_append]
    rfl
  have hset : (w.setNode i { n with queue := { normal := [] } }).Shows config live
      (Function.update sites i (sites i)) :=
    h.setNode ⟨hat.member, hat.config, hat.registry, hat.keeper, by rw [hqueue], hat.identity,
      hat.attached, hat.started, hat.running⟩ rfl
  rw [Function.update_eq_self] at hset
  rw [hwork]
  exact ⟨hset, rfl⟩

/-- Working off the one update that is queued, where it applies. -/
theorem Shows.work_update (h : w.Shows config live sites) (hi : live i) (hj : live j)
    (hne : j ≠ i) (hmax : 9 ≤ config.maxFrame) (u : Update) (state : RegionState)
    (hqueue : (sites i).queue = [{ sender := localMember j, message := .app u }])
    (hprocessor : u.processor ≠ 0)
    (happly : (sites i).state.applyUpdate u = (.ok .applied, state)) :
    (w.work i).Shows config live
        (Function.update (Function.update sites i { sites i with queue := [], state }) j
          ((sites j).arrive (localMember i, answerFrame config u.processor)))
      ∧ (w.work i).due = (Activity.receive j).enqueue w.due := by
  obtain ⟨hhosts, hdue⟩ := h.hosts.work_update hi hj hne
    (fun heq => hne (h.distinct j i hj hi heq)) (h.target?_eq hi hj hne) hqueue hprocessor
    (voice_of_applied hmax happly (localMember i))
  rw [happly] at hhosts
  exact ⟨hhosts.shows h, hdue⟩

end Fabric

end DataGrid
