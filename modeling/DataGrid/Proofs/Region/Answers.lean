import DataGrid.Proofs.Region.Wire
import DataGrid.Proofs.Reply.Wire
import DataGrid.Proofs.Reply.Fate
import DataGrid.Region.Replication

/-!
# Answers — what a member says to an update

A member whose copy takes an update, or has seen it before, answers plainly. One whose copy cannot
take the delta declines and asks for the whole value, and one that fails says why
(`RegionState.answer`). Each of the three is filed in a collection of its own by the processor that
awaits it. An answer can be too long to be sent: then the member says that, or nothing at all
(`RegionState.voice`). Whatever it says is read as it was written (`RegionState.decode_voice`).
-/

namespace DataGrid

namespace RegionState

/-- **The answer of a member to an update**, by what its copy makes of the update. -/
def answer (s : RegionState) (here : Member) (u : Update) : Reply :=
  match (s.applyUpdate u).1 with
  | .error e => .failure u.processor false false false
      { kind := .internal, message := (FabricError.handler e.message).message, sender := some here }
  | .ok (.needsFull why) => .failure u.processor true false false
      { kind := .invalidDelta, message := why, sender := some here }
  | .ok _ => { processor := u.processor }

/-- Whether a copy takes an update or has seen it before. -/
def takes (s : RegionState) (u : Update) : Bool :=
  match (s.applyUpdate u).1 with
  | .ok .applied | .ok .duplicate => true
  | _ => false

/-- Why a copy cannot take an update without the whole value, if it cannot. -/
def lacks? (s : RegionState) (u : Update) : Option String :=
  match (s.applyUpdate u).1 with
  | .ok (.needsFull why) => some why
  | _ => none

/-- Why an update fails at a copy, if it does. -/
def failure? (s : RegionState) (u : Update) : Option DeltaError :=
  match (s.applyUpdate u).1 with
  | .error e => some e
  | .ok _ => none

variable {s : RegionState} {here m : Member} {u : Update}

theorem answer_processor : (s.answer here u).processor = u.processor := by
  unfold answer
  split <;> rfl

theorem takes_iff : s.takes u ↔ (s.applyUpdate u).1 = .ok .applied
    ∨ (s.applyUpdate u).1 = .ok .duplicate := by
  unfold takes
  rcases (s.applyUpdate u).1 with e | (_ | _ | why) <;> simp

theorem lacks?_eq_some {why : String} :
    s.lacks? u = some why ↔ (s.applyUpdate u).1 = .ok (.needsFull why) := by
  unfold lacks?
  rcases (s.applyUpdate u).1 with e | (_ | _ | why) <;> simp

theorem failure?_eq_some {e : DeltaError} : s.failure? u = some e
    ↔ (s.applyUpdate u).1 = .error e := by
  unfold failure?
  rcases (s.applyUpdate u).1 with e | (_ | _ | why) <;> simp

/-! ## How a processor files the answer -/

theorem answered_answer : ProcessorEvent.answered (.reply m (s.answer here u))
    = if s.takes u then some { processor := u.processor } else none := by
  unfold answer takes
  rcases (s.applyUpdate u).1 with e | (_ | _ | why) <;> rfl

theorem declined_answer : ProcessorEvent.declined (.reply m (s.answer here u))
    = (s.lacks? u).map fun why =>
      some { kind := .invalidDelta, message := why, sender := some here } := by
  unfold answer lacks?
  rcases (s.applyUpdate u).1 with e | (_ | _ | why) <;> rfl

theorem failed_answer : ProcessorEvent.failed (.reply m (s.answer here u))
    = (s.failure? u).map fun e => {
        kind := .internal, message := (FabricError.handler e.message).message
        sender := some here } := by
  unfold answer failure?
  rcases (s.applyUpdate u).1 with e | (_ | _ | why) <;> rfl

theorem isLast_answer : ProcessorEvent.isLast (.reply m (s.answer here u)) = false := by
  unfold answer
  rcases (s.applyUpdate u).1 with e | (_ | _ | why) <;> rfl

end RegionState

/-! ## Frames of answers -/

namespace Reply

/-- The frame of a reply. -/
def frame (r : Reply) (version : Version) : Bytes :=
  Encode.u16 version.ordinal ++ Encode.u16 messageKind ++ r.encode

variable {r : Reply} {version : Version}

theorem encode_frame : Frame.encode (μ := Update) (.reply r) version = .ok (r.frame version) := rfl

theorem length_encode_lt_frame : r.encode.length < (r.frame version).length := by
  simp only [frame, Encode.u16, List.length_append, BigEndian.length_ofNat]
  omega

/-- The frame of a reply that is read as it was written holds the reply. -/
theorem decode_frame (h : Reply.read.Reads r.encode r) :
    Frame.decode Update.registry (r.frame version) = .ok (.reply r) := by
  have hbody : (Message.reply (μ := Update) r).body version = .ok r.encode := rfl
  obtain ⟨frame, hframe, -, hdecode⟩ := Frame.exists_frame Update.registry (.reply r) hbody
  obtain rfl := Except.ok.inj (encode_frame.symm.trans hframe)
  exact hdecode (h.map Message.reply)

/-- An answer to an update is read as it was written. -/
theorem reads_answer {s : RegionState} {here : Member} {u : Update}
    (h : (s.answer here u).encode.length < 2147483648) :
    Reply.read.Reads (s.answer here u).encode (s.answer here u) := by
  unfold RegionState.answer at h ⊢
  generalize (s.applyUpdate u).1 = made at h ⊢
  rcases made with e | (_ | _ | why)
  · exact reads_exception h
  · exact reads_plain u.processor
  · exact reads_plain u.processor
  · exact reads_exception h

end Reply

/-! ## What is said -/

/-- Whether a reply can be sent: its frame is not too long. -/
def Reply.sendable (r : Reply) (config : Config) : Bool :=
  (r.frame config.version).length ≤ config.maxFrame

namespace RegionState

/-- What a member says in place of an answer that is too long. -/
def excuse (s : RegionState) (config : Config) (here : Member) (u : Update) : Reply :=
  .failure u.processor false false false {
    kind := .internal
    message := (FabricError.frameTooLarge ((s.answer here u).frame config.version).length
      config.maxFrame).message
    sender := some here }

/-- **What a member sends to whom it owes an answer**: the answer, if it can be sent. Otherwise it
says that the answer is too long, if that can be sent, unless the answer was a failure already. -/
def voice (s : RegionState) (config : Config) (here : Member) (u : Update) : Option Reply :=
  if (s.answer here u).sendable config then some (s.answer here u)
  else if (s.failure? u).isSome then none
  else (some (s.excuse config here u)).filter (·.sendable config)

variable {s : RegionState} {config : Config} {here : Member} {u : Update} {r : Reply}

theorem voice_of_sendable (h : (s.answer here u).sendable config) :
    s.voice config here u = some (s.answer here u) := if_pos h

/-- What is said is the answer or the excuse for it, and it is short enough. -/
theorem voice_eq_some (h : s.voice config here u = some r) :
    r.sendable config ∧ (r = s.answer here u ∨ r = s.excuse config here u) := by
  unfold voice at h
  split at h
  · next hshort =>
    obtain rfl := Option.some.inj h
    exact ⟨hshort, .inl rfl⟩
  · split at h
    · cases h
    · rw [Option.filter_eq_some_iff] at h
      obtain ⟨hr, hshort⟩ := h
      exact ⟨hshort, .inr (Option.some.inj hr).symm⟩

/-- What is said names the processor that the update names. -/
theorem voice_processor (h : s.voice config here u = some r) : r.processor = u.processor := by
  rcases (voice_eq_some h).2 with rfl | rfl
  · exact answer_processor
  · rfl

/-- **The frame of what is said holds what is said.** -/
theorem decode_voice (h : s.voice config here u = some r)
    (hshort : (r.frame config.version).length < 2147483648) :
    Frame.decode Update.registry (r.frame config.version) = .ok (.reply r) := by
  have hlength : r.encode.length < 2147483648 := Nat.lt_trans Reply.length_encode_lt_frame hshort
  refine Reply.decode_frame ?_
  rcases (voice_eq_some h).2 with rfl | rfl
  · exact Reply.reads_answer hlength
  · exact Reply.reads_exception hlength

end RegionState

/-! ## Handling an update -/

namespace Fabric

variable {w : RegionFabric} {i : Nat} {n : Node Update RegionState} {s : RegionState}
variable {sender : Member} {u : Update} {r : Reply}

/-- A node that runs sends a reply that is short enough. -/
theorem sendReply_of_sendable (hn : w.node? i = some n) (hrunning : n.isShutdown = false)
    (sender : Member) (h : r.sendable n.config) : ∃ w', w.sendReply i sender r = (.ok (), w') := by
  have hframe : frameOf n (.reply r) = .ok (r.frame n.config.version) := by
    rw [frameOf, Reply.encode_frame]
    simp only [if_neg (Nat.not_lt.2 (of_decide_eq_true h))]
  have hprepare : w.prepare n (.reply r) (.members [sender])
      = .ok (r.frame n.config.version, [sender]) := by
    rw [prepare, hrunning, hframe]
    rfl
  refine ⟨(w.deliverAll i n.member (r.frame n.config.version) [sender]).2, ?_⟩
  rw [sendReply, send, hn]
  simp only [hprepare]
  rfl

/-- A reply that is too long is not sent. -/
theorem sendReply_of_long (hn : w.node? i = some n) (hrunning : n.isShutdown = false)
    (h : r.sendable n.config = false) : w.sendReply i sender r
      = (.error (.frameTooLarge (r.frame n.config.version).length n.config.maxFrame), w) := by
  have hframe : frameOf (μ := Update) n (.reply r)
      = .error (.frameTooLarge (r.frame n.config.version).length n.config.maxFrame) := by
    rw [frameOf, Reply.encode_frame]
    exact if_pos (Nat.lt_of_not_le (of_decide_eq_false h))
  have hprepare : w.prepare n (.reply r) (.members [sender])
      = .error (.frameTooLarge (r.frame n.config.version).length n.config.maxFrame) := by
    rw [prepare, hrunning, hframe]
    rfl
  rw [sendReply, send, hn]
  simp only [hprepare]
  rfl

/-- A failure is answered for in the name of the local member. -/
theorem handleFailure_eq (hn : w.node? i = some n) (hprocessor : u.processor ≠ 0)
    (e : FabricError) : w.handleFailure i sender u e
      = (w.sendReply i sender (.failure u.processor false false false
          { kind := .internal, message := e.message, sender := some n.member })).2 := by
  simp only [handleFailure, AppMessage.processor, if_neg hprocessor, AppMessage.isReply,
    Bool.false_eq_true, if_false, sendException, hn]
  rfl

/-- **An update is handled once.** The copy becomes what the update makes of it, and what the
member says goes to the sender. -/
theorem handle_update (hn : w.node? i = some n) (hs : n.attached = some s)
    (hrunning : n.isShutdown = false) (hprocessor : u.processor ≠ 0) {w' : RegionFabric}
    (hw' : w.setNode i { n with attached := some (s.applyUpdate u).2 } = w') :
    w.handle i { sender, message := .app u }
      = (s.voice n.config n.member u).elim w' fun r => (w'.sendReply i sender r).2 := by
  have hnode : w'.node? i = some { n with attached := some (s.applyUpdate u).2 } := by
    rw [← hw']
    exact OrdMap.get?_insert_self _ _ _
  have hsend : ∀ r : Reply, (w'.sendReply i sender r).2
      = if r.sendable n.config then (w'.sendReply i sender r).2 else w' := by
    intro r
    split
    · rfl
    · next hlong => rw [sendReply_of_long hnode hrunning (Bool.eq_false_iff.2 hlong)]
  rw [handle, hn]
  rcases happly : s.applyUpdate u with ⟨e | outcome, s'⟩
  · -- A handler that failed is answered for, and that is the answer.
    rw [happly] at hw'
    have hservice : Service.handle u n.member sender (some s) = (.error e.message, some s') := by
      simp only [Service.handle, happly]
    have hanswer : s.answer n.member u = .failure u.processor false false false {
        kind := .internal, message := (FabricError.handler e.message).message
        sender := some n.member } := by
      rw [RegionState.answer, happly]
    have hfailure : (s.failure? u).isSome := by
      rw [RegionState.failure?, happly]
      rfl
    simp only [serve, hs, hservice, hw']
    rw [handleFailure_eq hnode hprocessor, hsend, RegionState.voice, hanswer, if_pos hfailure]
    split <;> rfl
  · rw [happly] at hw'
    have hservice : Service.handle u n.member sender (some s)
        = (.ok (some (s.answer n.member u)), some s') := by
      simp only [Service.handle, RegionState.answer, if_neg hprocessor, happly]
      cases outcome <;> rfl
    have hfailure : (s.failure? u).isSome = false := by
      rw [RegionState.failure?, happly]
      rfl
    simp only [serve, hs, hservice, hw', RegionState.voice]
    by_cases hshort : (s.answer n.member u).sendable n.config
    · obtain ⟨w₁, hsent⟩ := sendReply_of_sendable hnode hrunning sender hshort
      simp only [if_pos hshort, hsent, Option.elim_some]
    · -- The answer is too long, and the handling counts as failed.
      rw [sendReply_of_long hnode hrunning (Bool.eq_false_iff.2 hshort), if_neg hshort, hfailure,
        if_neg Bool.false_ne_true, Option.filter_some]
      simp only
      rw [handleFailure_eq hnode hprocessor]
      change (w'.sendReply i sender (s.excuse n.config n.member u)).2 = _
      rw [hsend]
      split <;> rfl

end Fabric

end DataGrid
