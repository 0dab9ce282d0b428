import DataGrid.Proofs.Cluster.Parties
import DataGrid.Proofs.Region.Answers

/-!
# Exchange — what parties say to each other

A frame to several recipients arrives at those that can be reached, and the others are reported
(`Fabric.Hosts.deliverAll`). A party that takes in an update queues it, one that works it off
changes its copy and says what it has to say, whatever that is, and one that takes in a reply hands
it to its keeper. Nothing else changes.
-/

namespace DataGrid

/-- Whether two parties reach each other: the first under the name of a recipient. -/
structure Parties.Linked (ps : Parties) (i : Nat) (m : Member) (j : Nat) : Prop where
  here : ps.here j
  member : ps.member j = m
  forth : ps.target i m = some j
  back : ps.target j (ps.member i) = some i

/-- Whether a party can send to recipients: the ones that it reaches are other parties, which can
answer. -/
structure Parties.Sends (ps : Parties) (i : Nat) (recipients : List Member) : Prop where
  here : ps.here i
  nodup : recipients.Nodup
  others : ps.member i ∉ recipients
  linked : ∀ m ∈ recipients, ∀ j, ps.target i m = some j → ps.Linked i m j

/-- The places at which a frame to recipients arrives. -/
def Parties.reached (ps : Parties) (i : Nat) (recipients : List Member) : List Nat :=
  recipients.filterMap (ps.target i)

/-- The recipients that a frame does not arrive at. -/
def Parties.missed (ps : Parties) (i : Nat) (recipients : List Member) : List Member :=
  recipients.filter fun m => (ps.target i m).isNone

namespace Parties

variable {ps : Parties} {i j : Nat} {m : Member} {recipients : List Member}

theorem Sends.tail (h : ps.Sends i (m :: recipients)) : ps.Sends i recipients where
  here := h.here
  nodup := (List.nodup_cons.1 h.nodup).2
  others hm := h.others (List.mem_cons_of_mem m hm)
  linked k hk := h.linked k (List.mem_cons_of_mem m hk)

/-- A place is reached under the name of its member. -/
theorem Sends.mem_reached (h : ps.Sends i recipients) :
    j ∈ ps.reached i recipients ↔ ps.member j ∈ recipients ∧ ps.Linked i (ps.member j) j := by
  rw [reached, List.mem_filterMap]
  constructor
  · rintro ⟨m, hm, htarget⟩
    have hlinked := h.linked m hm j htarget
    obtain rfl := hlinked.member
    exact ⟨hm, hlinked⟩
  · rintro ⟨hm, hlinked⟩
    exact ⟨_, hm, hlinked.forth⟩

theorem Sends.ne_of_mem (h : ps.Sends i recipients) (hj : j ∈ ps.reached i recipients) :
    j ≠ i := by
  rintro rfl
  exact h.others (h.mem_reached.1 hj).1

/-- No place is reached twice, because no recipient is named twice. -/
theorem Sends.nodup_reached (h : ps.Sends i recipients) : (ps.reached i recipients).Nodup := by
  induction recipients with
  | nil => exact List.nodup_nil
  | cons m recipients ih =>
    rw [reached, List.filterMap_cons]
    split
    · exact ih h.tail
    · next j htarget =>
      refine List.nodup_cons.2 ⟨fun hj => ?_, ih h.tail⟩
      have hmember := (h.linked m List.mem_cons_self j htarget).member
      have hm := (h.tail.mem_reached.1 hj).1
      rw [hmember] at hm
      exact (List.nodup_cons.1 h.nodup).1 hm

end Parties

namespace Fabric

variable {w : RegionFabric} {ps : Parties} {sites : Nat → Site} {i j : Nat} {m : Member}

/-! ## Sending -/

/-- A frame arrives at another party. -/
theorem Hosts.deliver (h : w.Hosts ps sites) (hi : ps.here i) (hj : ps.here j)
    (hne : m ≠ ps.member i) (htarget : ps.target i m = some j) (frame : Bytes) :
    ∃ w', w.deliver i (ps.member i) frame m = (true, w')
      ∧ w'.Hosts ps (Function.update sites j ((sites j).arrive (ps.member i, frame)))
      ∧ w'.due = (Activity.receive j).enqueue w.due := by
  obtain ⟨p, hp, hat⟩ := h.port i hi
  have hsend := Network.send_of_target hp ((congrFun₂ h.target i m).trans htarget) frame
  rw [hat.member] at hsend
  have hhosts := h.setInbox hj ((sites j).inbox ++ [(ps.member i, frame)])
    (f := (·.receive (ps.member i, frame))) fun q hq => by
      obtain ⟨q', hq', hqat⟩ := h.port j hj
      obtain rfl := Option.some.inj (hq.symm.trans hq')
      rw [Port.receive, hqat.inbox]
  refine ⟨_, ?_, hhosts.call (.receive j), due_call _ _⟩
  rw [Fabric.deliver, if_neg hne, sendFrame, hsend]
  simp only [notify]
  rw [if_pos]
  · rfl
  · exact hhosts.receives hj

/-- A frame to a member that cannot be reached changes nothing. -/
theorem Hosts.deliver_cut (h : w.Hosts ps sites) (hne : m ≠ ps.member i)
    (htarget : ps.target i m = none) (frame : Bytes) :
    w.deliver i (ps.member i) frame m = (false, w) := by
  obtain ⟨e, hsend⟩ := Network.send_of_cut ((congrFun₂ h.target i m).trans htarget) frame
  rw [Fabric.deliver, if_neg hne, sendFrame, hsend]

/-- **A frame arrives at every recipient that can be reached**, and the others are reported. -/
theorem Hosts.deliverAll (h : w.Hosts ps sites) {recipients : List Member}
    (hsends : ps.Sends i recipients) (frame : Bytes) :
    ∃ w', w.deliverAll i (ps.member i) frame recipients = (ps.missed i recipients, w')
      ∧ w'.Hosts ps (fun j =>
          if j ∈ ps.reached i recipients then (sites j).arrive (ps.member i, frame) else sites j)
      ∧ w'.due = (ps.reached i recipients).foldl
          (fun due j => (Activity.receive j).enqueue due) w.due := by
  induction recipients generalizing w sites with
  | nil => exact ⟨w, rfl, h, rfl⟩
  | cons m recipients ih =>
    have hne : m ≠ ps.member i := fun heq => hsends.others (heq ▸ List.mem_cons_self)
    cases htarget : ps.target i m with
    | none =>
      obtain ⟨w', hw', hhosts, hdue⟩ := ih h hsends.tail
      have hreached : ps.reached i (m :: recipients) = ps.reached i recipients :=
        List.filterMap_cons_none htarget
      have hmissed : ps.missed i (m :: recipients) = m :: ps.missed i recipients :=
        List.filter_cons_of_pos (by rw [htarget]; rfl)
      refine ⟨w', ?_, hreached ▸ hhosts, hreached ▸ hdue⟩
      rw [Fabric.deliverAll, h.deliver_cut hne htarget]
      simp only [hw', hmissed, Bool.false_eq_true, if_false]
    | some j =>
      have hlinked := hsends.linked m List.mem_cons_self j htarget
      obtain ⟨w₁, hw₁, hhosts₁, hdue₁⟩ := h.deliver hsends.here hlinked.here hne htarget frame
      obtain ⟨w₂, hw₂, hhosts₂, hdue₂⟩ := ih hhosts₁ hsends.tail
      have hreached : ps.reached i (m :: recipients) = j :: ps.reached i recipients :=
        List.filterMap_cons_some htarget
      have hmissed : ps.missed i (m :: recipients) = ps.missed i recipients :=
        List.filter_cons_of_neg (by rw [htarget]; exact Bool.false_ne_true)
      have hj : j ∉ ps.reached i recipients :=
        (List.nodup_cons.1 (hreached ▸ hsends.nodup_reached)).1
      refine ⟨w₂, ?_, hhosts₂.of_forall_eq fun k => ?_, ?_⟩
      · rw [Fabric.deliverAll, hw₁]
        simp only [hw₂, hmissed, if_true]
      · rw [hreached]
        by_cases hk : k = j
        · subst hk
          simp [hj]
        · simp [hk]
      · rw [hdue₂, hdue₁, hreached, List.foldl_cons]

/-- **A message arrives at every recipient that can be reached**, if its frame is not too long. -/
theorem Hosts.send (h : w.Hosts ps sites) {msg : Message Update} {frame : Bytes}
    (hframe : Frame.encode msg (ps.config i).version = .ok frame)
    (hfits : frame.length ≤ (ps.config i).maxFrame) {recipients : List Member}
    (hnonempty : recipients ≠ []) (hsends : ps.Sends i recipients) :
    ∃ w', w.send i msg (.members recipients) = (.ok (ps.missed i recipients), w')
      ∧ w'.Hosts ps (fun j =>
          if j ∈ ps.reached i recipients then (sites j).arrive (ps.member i, frame) else sites j)
      ∧ w'.due = (ps.reached i recipients).foldl
          (fun due j => (Activity.receive j).enqueue due) w.due := by
  obtain ⟨n, hn, hat⟩ := h.node i hsends.here
  obtain ⟨w', hw', hhosts, hdue⟩ := h.deliverAll hsends frame
  have htargets : w.targets n msg (.members recipients) = .ok recipients := by
    cases recipients with
    | nil => exact absurd rfl hnonempty
    | cons m recipients => rfl
  have hframeOf : frameOf n msg = .ok frame := by
    rw [frameOf, hat.config, hframe]
    simp only [if_neg (Nat.not_lt.2 hfits)]
  have hprepare : w.prepare n msg (.members recipients) = .ok (frame, recipients) := by
    rw [prepare, hat.running, htargets, hframeOf]
    rfl
  refine ⟨w', ?_, hhosts, hdue⟩
  rw [Fabric.send, hn]
  simp only [hprepare, hat.member, hw']

/-- A message whose frame is too long is not sent. -/
theorem Hosts.send_long (h : w.Hosts ps sites) (hi : ps.here i) {msg : Message Update}
    {frame : Bytes} (hframe : Frame.encode msg (ps.config i).version = .ok frame)
    (hlong : (ps.config i).maxFrame < frame.length) {recipients : List Member}
    (hnonempty : recipients ≠ []) : w.send i msg (.members recipients)
      = (.error (.frameTooLarge frame.length (ps.config i).maxFrame), w) := by
  obtain ⟨n, hn, hat⟩ := h.node i hi
  have htargets : w.targets n msg (.members recipients) = .ok recipients := by
    cases recipients with
    | nil => exact absurd rfl hnonempty
    | cons m recipients => rfl
  have hframeOf : frameOf n msg
      = .error (.frameTooLarge frame.length (ps.config i).maxFrame) := by
    rw [frameOf, hat.config, hframe]
    exact if_pos hlong
  have hprepare : w.prepare n msg (.members recipients)
      = .error (.frameTooLarge frame.length (ps.config i).maxFrame) := by
    rw [prepare, hat.running, htargets, hframeOf]
    rfl
  rw [Fabric.send, hn]
  simp only [hprepare]

/-- A reply arrives at another party. -/
theorem Hosts.sendReply (h : w.Hosts ps sites) (hi : ps.here i) (hj : ps.here j)
    (hne : m ≠ ps.member i) (htarget : ps.target i m = some j) {r : Reply}
    (hshort : r.sendable (ps.config i)) :
    ∃ w', w.sendReply i m r = (.ok (), w')
      ∧ w'.Hosts ps (Function.update sites j
          ((sites j).arrive (ps.member i, r.frame (ps.config i).version)))
      ∧ w'.due = (Activity.receive j).enqueue w.due := by
  obtain ⟨n, hn, hat⟩ := h.node i hi
  obtain ⟨w', hw', hhosts, hdue⟩ := h.deliver hi hj hne htarget (r.frame (ps.config i).version)
  have hframeOf : frameOf n (.reply r) = .ok (r.frame (ps.config i).version) := by
    rw [frameOf, hat.config, Reply.encode_frame]
    simp only [if_neg (Nat.not_lt.2 (of_decide_eq_true hshort))]
  have hprepare : w.prepare n (.reply r) (.members [m])
      = .ok (r.frame (ps.config i).version, [m]) := by
    rw [prepare, hat.running, hframeOf]
    rfl
  refine ⟨w', ?_, hhosts, hdue⟩
  rw [Fabric.sendReply, Fabric.send, hn]
  simp only [hprepare, hat.member, Fabric.deliverAll, hw', if_true]
  rfl

/-! ## Taking in -/

/-- A reply that arrives is handed to the keeper. -/
theorem Hosts.dispatch_reply (h : w.Hosts ps sites) (hi : ps.here i) (sender : Member)
    {frame : Bytes} {r : Reply} (hdecode : Frame.decode Update.registry frame = .ok (.reply r))
    (hfits : frame.length ≤ (ps.config i).maxFrame) :
    (w.dispatch i (sender, frame)).Hosts ps
        (Function.update sites i
          { sites i with keeper := ((sites i).keeper.processReply sender r).2 })
      ∧ (w.dispatch i (sender, frame)).due = w.due := by
  obtain ⟨n, hn, hat⟩ := h.node i hi
  have hlimit : ¬n.config.maxFrame < frame.length := by
    rw [hat.config]
    omega
  have hread : Frame.decode n.registry frame = .ok (.reply r) := by rw [hat.registry, hdecode]
  have hdispatch : w.dispatch i (sender, frame)
      = w.setNode i { n with keeper := (n.keeper.processReply sender r).2 } := by
    rw [dispatch, hn]
    simp only [if_neg hlimit, hread, Message.isInline, if_true, handle, hn]
  rw [hdispatch]
  refine ⟨h.setNode hi ⟨hat.member, hat.config, hat.registry, ?_, hat.queue, hat.attached,
    hat.started, hat.running, hat.names⟩ rfl, rfl⟩
  rw [← hat.keeper]

/-- An update that arrives is queued for the workers. -/
theorem Hosts.dispatch_update (h : w.Hosts ps sites) (hi : ps.here i) (sender : Member)
    {frame : Bytes} {u : Update} (hdecode : Frame.decode Update.registry frame = .ok (.app u))
    (hfits : frame.length ≤ (ps.config i).maxFrame) :
    (w.dispatch i (sender, frame)).Hosts ps
        (Function.update sites i
          { sites i with queue := (sites i).queue ++ [{ sender, message := .app u }] })
      ∧ (w.dispatch i (sender, frame)).due = (Activity.work i).enqueue w.due := by
  obtain ⟨n, hn, hat⟩ := h.node i hi
  have hlimit : ¬n.config.maxFrame < frame.length := by
    rw [hat.config]
    omega
  have hread : Frame.decode n.registry frame = .ok (.app u) := by rw [hat.registry, hdecode]
  have hpush : n.queue.push { sender, message := .app u } .normal
      = (true, { normal := (sites i).queue ++ [{ sender, message := .app u }] }) := by
    rw [hat.queue]
    rfl
  have hset : (w.setNode i { n with queue :=
        { normal := (sites i).queue ++ [{ sender, message := .app u }] } }).Hosts ps
      (Function.update sites i
        { sites i with queue := (sites i).queue ++ [{ sender, message := .app u }] }) :=
    h.setNode (s := { sites i with queue := (sites i).queue ++ [{ sender, message := .app u }] })
      hi ⟨hat.member, hat.config, hat.registry, hat.keeper, rfl, hat.attached, hat.started,
        hat.running, hat.names⟩ rfl
  have hdispatch : w.dispatch i (sender, frame) = (w.setNode i { n with queue :=
      { normal := (sites i).queue ++ [{ sender, message := .app u }] } }).call (.work i) := by
    rw [dispatch, hn]
    simp only [if_neg hlimit, hread, Message.isInline, AppMessage.isInline, Bool.false_eq_true,
      if_false, Message.priority, AppMessage.priority, hpush]
  rw [hdispatch]
  exact ⟨hset.call _, due_call _ _⟩

/-! ## Working off -/

/-- **A party works off the one update that is queued**: its copy becomes what the update makes of
it, and what the party says goes to the sender. -/
theorem Hosts.work_eq (h : w.Hosts ps sites) (hi : ps.here i) {sender : Member} {u : Update}
    (hqueue : (sites i).queue = [{ sender, message := .app u }]) (hprocessor : u.processor ≠ 0) :
    ∃ w₁, w₁.Hosts ps (Function.update sites i
          { sites i with queue := [], state := ((sites i).state.applyUpdate u).2 })
      ∧ w₁.due = w.due
      ∧ w.work i = ((sites i).state.voice (ps.config i) (ps.member i) u).elim w₁ fun r =>
        (w₁.sendReply i sender r).2 := by
  obtain ⟨n, hn, hat⟩ := h.node i hi
  have hwork : w.work i = (w.setNode i { n with queue := { normal := [] } }).handle i
      { sender, message := .app u } := by
    rw [work, hn]
    simp only [hat.queue, TaskQueue.drain, TaskQueue.toList, List.nil_append, hqueue]
    rfl
  -- The node is set twice: without the task, and then with the copy that the task leaves.
  have hset : (w.setNode i { n with queue := { normal := [] } }).Hosts ps
      (Function.update sites i { sites i with queue := [] }) :=
    h.setNode (s := { sites i with queue := [] }) hi ⟨hat.member, hat.config, hat.registry,
      hat.keeper, rfl, hat.attached, hat.started, hat.running, hat.names⟩ rfl
  have hstate := hset.setNode hi (n := { n with
      queue := { normal := [] }, attached := some ((sites i).state.applyUpdate u).2 })
    (s := { sites i with queue := [], state := ((sites i).state.applyUpdate u).2 })
    ⟨hat.member, hat.config, hat.registry, hat.keeper, rfl, rfl, hat.started, hat.running,
      hat.names⟩ (by rw [Function.update_self])
  rw [Function.update_idem] at hstate
  have hnode : (w.setNode i { n with queue := { normal := [] } }).node? i
      = some { n with queue := { normal := [] } } := by rw [node?_setNode, if_pos rfl]
  refine ⟨_, hstate, rfl, hwork.trans ?_⟩
  rw [← hat.config, ← hat.member]
  exact handle_update hnode hat.attached hat.running hprocessor rfl

variable {u : Update}

/-- A party that says something is heard by the sender. -/
theorem Hosts.work_update (h : w.Hosts ps sites) (hi : ps.here i) (hj : ps.here j) (hne : j ≠ i)
    (hmember : ps.member j ≠ ps.member i) (htarget : ps.target i (ps.member j) = some j)
    (hqueue : (sites i).queue = [{ sender := ps.member j, message := .app u }])
    (hprocessor : u.processor ≠ 0) {r : Reply}
    (hvoice : (sites i).state.voice (ps.config i) (ps.member i) u = some r) :
    (w.work i).Hosts ps
        (Function.update
          (Function.update sites i
            { sites i with queue := [], state := ((sites i).state.applyUpdate u).2 }) j
          ((sites j).arrive (ps.member i, r.frame (ps.config i).version)))
      ∧ (w.work i).due = (Activity.receive j).enqueue w.due := by
  obtain ⟨w₁, hhosts₁, hdue₁, hwork⟩ := h.work_eq hi hqueue hprocessor
  obtain ⟨w₂, hsent, hhosts₂, hdue₂⟩ := hhosts₁.sendReply hi hj hmember htarget
    (RegionState.voice_eq_some hvoice).1
  rw [Function.update_of_ne hne] at hhosts₂
  have hheard : w.work i = w₂ := by
    rw [hwork, hvoice, Option.elim_some, hsent]
  rw [hheard]
  exact ⟨hhosts₂, hdue₂.trans (congrArg _ hdue₁)⟩

/-- A party that says nothing changes its copy alone. -/
theorem Hosts.work_silent (h : w.Hosts ps sites) (hi : ps.here i) {sender : Member}
    (hqueue : (sites i).queue = [{ sender, message := .app u }]) (hprocessor : u.processor ≠ 0)
    (hvoice : (sites i).state.voice (ps.config i) (ps.member i) u = none) :
    (w.work i).Hosts ps (Function.update sites i
        { sites i with queue := [], state := ((sites i).state.applyUpdate u).2 })
      ∧ (w.work i).due = w.due := by
  obtain ⟨w₁, hhosts₁, hdue₁, hwork⟩ := h.work_eq hi hqueue hprocessor
  have hsilent : w.work i = w₁ := by rw [hwork, hvoice, Option.elim_none]
  rw [hsilent]
  exact ⟨hhosts₁, hdue₁⟩

end Fabric

end DataGrid
