import DataGrid.Event.Tracker
import DataGrid.Proofs.Event.Identity
import Mathlib.Data.List.Nodup

/-!
# Remembered — what a tracker knows of the events it recorded

A tracker meets events whose members are named in either form, by whatever version passed them on.
It keeps one record for each producer, at the highest sequence id of that producer
(`Tracker.Recalls`), because naming one member is an equivalence of essential data. A look-up by
hash finds it as well, since all forms of a member have one (`TrackerRecord.hash_eq_of_isFor`). So
what a tracker answers follows from the events that were recorded and not from their order: an
event is new if it is above all of its producer, and was seen if it is not above all of them
(`Tracker.answerAll_history`).
-/

namespace DataGrid

/-- What a tracker is asked. -/
inductive TrackerCall where
  /-- To record an event. -/
  | record (id : EventId)
  /-- Whether it has seen an event. -/
  | hasSeen (id : EventId)

namespace TrackerCall

/-- The event that a call is about. -/
def event : TrackerCall → EventId
  | .record id => id
  | .hasSeen id => id

/-- The event that a call records, if it records one. -/
def recorded? : TrackerCall → Option EventId
  | .record id => some id
  | .hasSeen _ => none

/-- **What it takes for a call to be answered with true**, where events were recorded before. -/
def IsTrue (past : List EventId) : TrackerCall → Prop
  | .record id => ∀ old ∈ past, old.sameProducer id → old.sequence < id.sequence
  | .hasSeen id => ∃ old ∈ past, old.sameProducer id ∧ id.sequence ≤ old.sequence

/-- The events that calls record. -/
def recorded (calls : List TrackerCall) : List EventId := calls.filterMap recorded?

/-- The events that calls record and that are new by the answers. -/
def accepted (calls : List TrackerCall) (answers : List Bool) : List EventId :=
  (calls.zip answers).filterMap fun (c, isNew) => if isNew then c.recorded? else none

end TrackerCall

namespace Tracker

/-- The answer to a call, and the tracker after it. -/
def answer (t : Tracker) : TrackerCall → Bool × Tracker
  | .record id => t.record id
  | .hasSeen id => (t.hasSeen id, t)

/-- The answers to calls, one after another, and the tracker after them. -/
def answerAll (t : Tracker) : List TrackerCall → List Bool × Tracker
  | [] => ([], t)
  | c :: rest =>
    let (first, t) := t.answer c
    let (answers, t) := t.answerAll rest
    (first :: answers, t)

end Tracker

/-! ## Producers -/

namespace EventId

/-- Whether an event names its member by essential data. -/
def FromMember (id : EventId) : Prop := MembershipId.Essential id.membership

/-- The thread and the member that produced an event. -/
def producer (id : EventId) : Int64 × Except Fault Member := (id.thread, id.member)

variable {a b : EventId}

theorem sameProducer_iff (ha : a.FromMember) (hb : b.FromMember) :
    a.sameProducer b ↔ a.producer = b.producer := by
  rw [sameProducer, Bool.and_eq_true, beq_iff_eq, MembershipId.same_iff_read ha hb, producer,
    producer, Prod.mk.injEq]
  rfl

end EventId

namespace TrackerRecord

/-- The thread and the member that a record is about. -/
def producer (r : TrackerRecord) : Int64 × Except Fault Member :=
  (r.thread, Member.ofEssentialBytes r.membership)

variable {r : TrackerRecord} {id : EventId}

/-- A record is under the hash of the member that it is looked up by, padded or not. -/
theorem hash_eq_of_isFor (h : r.isFor id) :
    MembershipId.hash r.membership = MembershipId.hash id.membership := by
  rw [isFor, Bool.and_eq_true] at h
  exact (MembershipId.hash_eq_of_same h.2).symm

theorem isFor_iff (hr : MembershipId.Essential r.membership) (hid : id.FromMember) :
    r.isFor id ↔ r.producer = id.producer := by
  rw [isFor, Bool.and_eq_true, beq_iff_eq, MembershipId.same_iff_read hid hr, producer,
    EventId.producer, Prod.mk.injEq, @eq_comm _ (Member.ofEssentialBytes id.membership)]
  rfl

end TrackerRecord

namespace Tracker

variable {t t' : Tracker} {id : EventId} {past past' : List EventId}

/-! ## One record for each producer -/

/-- Recording an event raises the record of its producer, finds it high enough, or makes one. -/
theorem recordIn_cases (id : EventId) (records : List TrackerRecord) :
    (∃ before r after, records = before ++ r :: after ∧ r.isFor id ∧ r.highest < id.sequence
      ∧ recordIn id records = (true, before ++ { r with highest := id.sequence } :: after))
    ∨ (∃ r ∈ records, r.isFor id ∧ id.sequence ≤ r.highest
      ∧ recordIn id records = (false, records))
    ∨ (∀ r ∈ records, ¬r.isFor id)
      ∧ recordIn id records = (true, records ++ [⟨id.membership, id.thread, id.sequence⟩]) := by
  induction records with
  | nil => exact .inr (.inr ⟨nofun, rfl⟩)
  | cons a rest ih =>
    rw [recordIn]
    by_cases ha : a.isFor id
    · rw [if_pos ha]
      by_cases hlt : a.highest < id.sequence
      · rw [if_pos hlt]
        exact .inl ⟨[], a, rest, rfl, ha, hlt, rfl⟩
      · rw [if_neg hlt]
        exact .inr (.inl ⟨a, List.mem_cons_self, ha, Int64.not_lt.1 hlt, rfl⟩)
    · rw [if_neg ha]
      rcases ih with ⟨before, r, after, rfl, hr, hlt, hrecord⟩ | ⟨r, hr, hfor, hle, hrecord⟩ |
        ⟨hnone, hrecord⟩
      · rw [hrecord]
        exact .inl ⟨a :: before, r, after, rfl, hr, hlt, rfl⟩
      · rw [hrecord]
        exact .inr (.inl ⟨r, List.mem_cons_of_mem a hr, hfor, hle, rfl⟩)
      · rw [hrecord]
        exact .inr (.inr ⟨List.forall_mem_cons.2 ⟨ha, hnone⟩, rfl⟩)

/-- **Whether a tracker knows past events**: it has one record for each of their producers, at the
highest sequence id. -/
structure Recalls (t : Tracker) (past : List EventId) : Prop where
  named : ∀ old ∈ past, old.FromMember
  essential : ∀ r ∈ t.records, MembershipId.Essential r.membership
  apart : (t.records.map TrackerRecord.producer).Nodup
  drawn : ∀ r ∈ t.records, ∃ old ∈ past, old.producer = r.producer ∧ old.sequence = r.highest
  covers : ∀ old ∈ past, ∃ r ∈ t.records, r.producer = old.producer ∧ old.sequence ≤ r.highest

theorem recalls_empty : Recalls {} [] := ⟨nofun, nofun, .nil, nofun, nofun⟩

/-- Two records of one producer are one. -/
theorem Recalls.unique (h : t.Recalls past) {r r' : TrackerRecord} (hr : r ∈ t.records)
    (hr' : r' ∈ t.records) (hproducer : r.producer = r'.producer) : r = r' :=
  List.inj_on_of_nodup_map h.apart hr hr' hproducer

/-- The record of a producer has the highest sequence id of its events. -/
theorem Recalls.le_highest (h : t.Recalls past) {r : TrackerRecord} (hr : r ∈ t.records)
    {old : EventId} (hold : old ∈ past) (hproducer : old.producer = r.producer) :
    old.sequence ≤ r.highest := by
  obtain ⟨r', hr', hproducer', hle⟩ := h.covers old hold
  rwa [h.unique hr' hr (hproducer'.trans hproducer)] at hle

/-- **An event is new if it is above all of its producer.** -/
theorem Recalls.record_iff (h : t.Recalls past) (hid : id.FromMember) :
    (t.record id).1 ↔ ∀ old ∈ past, old.sameProducer id → old.sequence < id.sequence := by
  have hproducer : ∀ old ∈ past, old.sameProducer id ↔ old.producer = id.producer :=
    fun old hold => EventId.sameProducer_iff (h.named old hold) hid
  have hisFor : ∀ r ∈ t.records, r.isFor id ↔ r.producer = id.producer :=
    fun r hr => TrackerRecord.isFor_iff (h.essential r hr) hid
  change (recordIn id t.records).1 ↔ _
  rcases recordIn_cases id t.records with ⟨before, r, after, hrecords, hfor, hlt, hrecord⟩ |
    ⟨r, hr, hfor, hle, hrecord⟩ | ⟨hnone, hrecord⟩
  · have hr : r ∈ t.records := hrecords ▸ List.mem_append_right _ List.mem_cons_self
    rw [hrecord]
    refine iff_of_true rfl fun old hold hsame => ?_
    have hold' := ((hproducer old hold).1 hsame).trans ((hisFor r hr).1 hfor).symm
    exact Int64.lt_of_le_of_lt (h.le_highest hr hold hold') hlt
  · rw [hrecord]
    refine iff_of_false Bool.false_ne_true fun habove => ?_
    obtain ⟨old, hold, holdr, hhighest⟩ := h.drawn r hr
    have hlt := habove old hold ((hproducer old hold).2 (holdr.trans ((hisFor r hr).1 hfor)))
    rw [hhighest] at hlt
    exact Int64.not_lt.2 hle hlt
  · rw [hrecord]
    refine iff_of_true rfl fun old hold hsame => ?_
    obtain ⟨r, hr, hrold, -⟩ := h.covers old hold
    exact absurd ((hisFor r hr).2 (hrold.trans ((hproducer old hold).1 hsame))) (hnone r hr)

/-- **An event was seen if it is not above all of its producer.** -/
theorem Recalls.hasSeen_iff (h : t.Recalls past) (hid : id.FromMember) :
    t.hasSeen id ↔ ∃ old ∈ past, old.sameProducer id ∧ id.sequence ≤ old.sequence := by
  have hproducer : ∀ old ∈ past, old.sameProducer id ↔ old.producer = id.producer :=
    fun old hold => EventId.sameProducer_iff (h.named old hold) hid
  rw [hasSeen]
  rcases hfind : t.records.find? (·.isFor id) with _ | r
  · rw [hfind]
    refine iff_of_false Bool.false_ne_true ?_
    rintro ⟨old, hold, hsame, -⟩
    obtain ⟨r, hr, hrold, -⟩ := h.covers old hold
    have hrid := hrold.trans ((hproducer old hold).1 hsame)
    exact List.find?_eq_none.1 hfind r hr ((TrackerRecord.isFor_iff (h.essential r hr) hid).2 hrid)
  · have hr := List.mem_of_find?_eq_some hfind
    have hfor : r.isFor id := by simpa using List.find?_some hfind
    have hrid := (TrackerRecord.isFor_iff (h.essential r hr) hid).1 hfor
    simp only [hfind, decide_eq_true_eq]
    constructor
    · intro hle
      obtain ⟨old, hold, holdr, hhighest⟩ := h.drawn r hr
      exact ⟨old, hold, (hproducer old hold).2 (holdr.trans hrid), hhighest ▸ hle⟩
    · rintro ⟨old, hold, hsame, hle⟩
      exact Int64.le_trans hle
        (h.le_highest hr hold (((hproducer old hold).1 hsame).trans hrid.symm))

/-! ## Recording -/

/-- The record of an event's producer is raised to it. -/
theorem Recalls.raise {before after : List TrackerRecord} {r : TrackerRecord}
    (h : Recalls ⟨before ++ r :: after⟩ past) (hid : id.FromMember)
    (hproducer : r.producer = id.producer) (hlt : r.highest < id.sequence) :
    Recalls ⟨before ++ { r with highest := id.sequence } :: after⟩ (past ++ [id]) := by
  -- A record of either list is the one that is raised, or stands in the other list too.
  have hother : ∀ {q x y : TrackerRecord}, q ∈ before ++ x :: after →
      q = x ∨ q ∈ before ++ y :: after := by
    intro q x y hq
    simp only [List.mem_append, List.mem_cons] at hq ⊢
    tauto
  refine ⟨?_, ?_, ?_, ?_, ?_⟩
  · exact List.forall_mem_append.2 ⟨h.named, List.forall_mem_singleton.2 hid⟩
  · intro q hq
    rcases hother hq with rfl | hq
    · exact h.essential r (List.mem_append_right _ List.mem_cons_self)
    · exact h.essential q hq
  · have hapart := h.apart
    rw [List.map_append, List.map_cons] at hapart ⊢
    exact hapart
  · intro q hq
    rcases hother hq with rfl | hq
    · exact ⟨id, List.mem_append_right _ List.mem_cons_self, hproducer.symm, rfl⟩
    · obtain ⟨old, hold, hrecord⟩ := h.drawn q hq
      exact ⟨old, List.mem_append_left _ hold, hrecord⟩
  · refine List.forall_mem_append.2 ⟨fun old hpast => ?_, List.forall_mem_singleton.2 ?_⟩
    · obtain ⟨q, hq, hqold, hle⟩ := h.covers old hpast
      rcases hother hq with rfl | hq
      · exact ⟨_, List.mem_append_right _ List.mem_cons_self, hqold,
          Int64.le_trans hle (Int64.le_of_lt hlt)⟩
      · exact ⟨q, hq, hqold, hle⟩
    · exact ⟨_, List.mem_append_right _ List.mem_cons_self, hproducer, Int64.le_refl _⟩

/-- An event that a record covers changes no record. -/
theorem Recalls.again (h : t.Recalls past) (hid : id.FromMember) {r : TrackerRecord}
    (hr : r ∈ t.records) (hproducer : r.producer = id.producer) (hle : id.sequence ≤ r.highest) :
    t.Recalls (past ++ [id]) := by
  refine ⟨?_, h.essential, h.apart, fun q hq => ?_, ?_⟩
  · exact List.forall_mem_append.2 ⟨h.named, List.forall_mem_singleton.2 hid⟩
  · obtain ⟨old, hold, hrecord⟩ := h.drawn q hq
    exact ⟨old, List.mem_append_left _ hold, hrecord⟩
  · exact List.forall_mem_append.2
      ⟨h.covers, List.forall_mem_singleton.2 ⟨r, hr, hproducer, hle⟩⟩

/-- A producer that has no record gets one. -/
theorem Recalls.begin (h : t.Recalls past) (hid : id.FromMember)
    (hnone : ∀ r ∈ t.records, r.producer ≠ id.producer) :
    Recalls ⟨t.records ++ [⟨id.membership, id.thread, id.sequence⟩]⟩ (past ++ [id]) := by
  refine ⟨?_, ?_, ?_, ?_, ?_⟩
  · exact List.forall_mem_append.2 ⟨h.named, List.forall_mem_singleton.2 hid⟩
  · exact List.forall_mem_append.2 ⟨h.essential, List.forall_mem_singleton.2 hid⟩
  · rw [List.map_append, List.nodup_append]
    refine ⟨h.apart, List.nodup_singleton _, ?_⟩
    rintro p hp q hq rfl
    obtain ⟨r, hr, rfl⟩ := List.mem_map.1 hp
    exact hnone r hr (List.mem_singleton.1 hq)
  · refine List.forall_mem_append.2 ⟨fun q hq => ?_, List.forall_mem_singleton.2 ?_⟩
    · obtain ⟨old, hold, hrecord⟩ := h.drawn q hq
      exact ⟨old, List.mem_append_left _ hold, hrecord⟩
    · exact ⟨id, List.mem_append_right _ List.mem_cons_self, rfl, rfl⟩
  · refine List.forall_mem_append.2 ⟨fun old hpast => ?_, List.forall_mem_singleton.2 ?_⟩
    · obtain ⟨q, hq, hqold, hle⟩ := h.covers old hpast
      exact ⟨q, List.mem_append_left _ hq, hqold, hle⟩
    · exact ⟨_, List.mem_append_right _ List.mem_cons_self, rfl, Int64.le_refl _⟩

/-- **A tracker that knows past events knows the one that it records too.** -/
theorem Recalls.record (h : t.Recalls past) (hid : id.FromMember) :
    (t.record id).2.Recalls (past ++ [id]) := by
  have hisFor : ∀ r ∈ t.records, r.isFor id ↔ r.producer = id.producer :=
    fun r hr => TrackerRecord.isFor_iff (h.essential r hr) hid
  change Recalls ⟨(recordIn id t.records).2⟩ _
  rcases recordIn_cases id t.records with ⟨before, r, after, hrecords, hfor, hlt, hrecord⟩ |
    ⟨r, hr, hfor, hle, hrecord⟩ | ⟨hnone, hrecord⟩
  · have hr : r ∈ t.records := hrecords ▸ List.mem_append_right _ List.mem_cons_self
    have hraised : Recalls ⟨before ++ r :: after⟩ past := hrecords ▸ h
    rw [hrecord]
    exact hraised.raise hid ((hisFor r hr).1 hfor) hlt
  · rw [hrecord]
    exact h.again hid hr ((hisFor r hr).1 hfor) hle
  · rw [hrecord]
    exact h.begin hid fun r hr hproducer => hnone r hr ((hisFor r hr).2 hproducer)

/-- An event that is refused leaves the tracker as it was. -/
theorem record_of_refused (h : (t.record id).1 = false) : t.record id = (false, t) := by
  have hpair : t.record id = ((recordIn id t.records).1, ⟨(recordIn id t.records).2⟩) := rfl
  rw [hpair] at h ⊢
  rcases recordIn_cases id t.records with ⟨before, r, after, -, -, -, hrecord⟩ |
    ⟨r, -, -, -, hrecord⟩ | ⟨-, hrecord⟩
  · rw [hrecord] at h
    cases h
  · rw [hrecord]
  · rw [hrecord] at h
    cases h

/-- **A producer's events that are not above a past one are refused**, and change nothing. -/
theorem Recalls.record_of_le (h : t.Recalls past) (hid : id.FromMember) {old : EventId}
    (hold : old ∈ past) (hsame : old.sameProducer id) (hle : id.sequence ≤ old.sequence) :
    t.record id = (false, t) := by
  refine record_of_refused (Bool.eq_false_iff.2 fun htrue => ?_)
  exact Int64.not_lt.2 hle ((h.record_iff hid).1 htrue old hold hsame)

/-! ## The producers -/

theorem Recalls.mem_producers (h : t.Recalls past) {p : Int64 × Except Fault Member} :
    p ∈ t.records.map TrackerRecord.producer ↔ ∃ old ∈ past, old.producer = p := by
  rw [List.mem_map]
  constructor
  · rintro ⟨r, hr, rfl⟩
    obtain ⟨old, hold, hproducer, -⟩ := h.drawn r hr
    exact ⟨old, hold, hproducer⟩
  · rintro ⟨old, hold, rfl⟩
    obtain ⟨r, hr, hproducer, -⟩ := h.covers old hold
    exact ⟨r, hr, hproducer⟩

/-- Only which events are past counts, not their order. -/
theorem Recalls.congr (h : t.Recalls past) (hmem : ∀ id, id ∈ past ↔ id ∈ past') :
    t.Recalls past' where
  named old hold := h.named old ((hmem old).2 hold)
  essential := h.essential
  apart := h.apart
  drawn r hr := by
    obtain ⟨old, hold, hrecord⟩ := h.drawn r hr
    exact ⟨old, (hmem old).1 hold, hrecord⟩
  covers old hold := h.covers old ((hmem old).2 hold)

/-- **As many producers as events of different ones.** -/
theorem Recalls.exists_heads (h : t.Recalls past) :
    ∃ heads : List EventId, heads ⊆ past ∧ heads.Pairwise (fun a b => ¬a.sameProducer b)
      ∧ (∀ id ∈ past, ∃ head ∈ heads, head.sameProducer id) ∧ t.size = heads.length := by
  have : Nonempty EventId := ⟨{ membership := [], thread := 0, sequence := 0 }⟩
  choose! head hhead hproducer _ using h.drawn
  have hsub : t.records.map head ⊆ past := by
    intro old hold
    obtain ⟨r, hr, rfl⟩ := List.mem_map.1 hold
    exact hhead r hr
  -- One event is chosen for each record, and no two records are of one producer.
  refine ⟨t.records.map head, hsub, ?_, fun id hid => ?_, (List.length_map head).symm⟩
  · rw [List.pairwise_map]
    refine (List.pairwise_map.1 h.apart).imp_of_mem fun {r r'} hr hr' hne hsame => hne ?_
    rw [← hproducer r hr, ← hproducer r' hr']
    exact (EventId.sameProducer_iff (h.named _ (hhead r hr)) (h.named _ (hhead r' hr'))).1 hsame
  · obtain ⟨r, hr, hrid, -⟩ := h.covers id hid
    refine ⟨head r, List.mem_map_of_mem hr, ?_⟩
    exact (EventId.sameProducer_iff (h.named _ (hhead r hr)) (h.named id hid)).2
      ((hproducer r hr).trans hrid)

theorem Recalls.size_eq (h : t.Recalls past) (h' : t'.Recalls past) : t.size = t'.size := by
  have hperm := (List.perm_ext_iff_of_nodup h.apart h'.apart).2 fun p =>
    h.mem_producers.trans h'.mem_producers.symm
  simpa [size] using hperm.length_eq

/-! ## Calls -/

variable {calls : List TrackerCall}

/-- One call is answered by what was recorded before it, and adds to that. -/
theorem Recalls.answer (h : t.Recalls past) {c : TrackerCall} (hc : c.event.FromMember) :
    ((t.answer c).1 ↔ c.IsTrue past) ∧ (t.answer c).2.Recalls (past ++ c.recorded?.toList) := by
  cases c with
  | record id => exact ⟨h.record_iff hc, h.record hc⟩
  | hasSeen id =>
    rw [TrackerCall.recorded?, Option.toList_none, List.append_nil]
    exact ⟨h.hasSeen_iff hc, h⟩

theorem recorded_cons (c : TrackerCall) (calls : List TrackerCall) :
    TrackerCall.recorded (c :: calls) = c.recorded?.toList ++ TrackerCall.recorded calls := by
  rw [TrackerCall.recorded, List.filterMap_cons]
  cases c <;> rfl

theorem Recalls.answerAll (h : t.Recalls past) (hcalls : ∀ c ∈ calls, c.event.FromMember) :
    (t.answerAll calls).2.Recalls (past ++ TrackerCall.recorded calls) := by
  induction calls generalizing t past with
  | nil =>
    rw [TrackerCall.recorded, List.filterMap_nil, List.append_nil]
    exact h
  | cons c rest ih =>
    obtain ⟨hc, hrest⟩ := List.forall_mem_cons.1 hcalls
    rw [recorded_cons, ← List.append_assoc]
    exact ih (h.answer hc).2 hrest

/-- Each call among others is answered by what was recorded before it. -/
theorem Recalls.getElem?_answerAll (h : t.Recalls past) {before after : List TrackerCall}
    {c : TrackerCall} (hcalls : ∀ d ∈ before ++ c :: after, d.event.FromMember) :
    ∃ isTrue : Bool, (t.answerAll (before ++ c :: after)).1[before.length]? = some isTrue
      ∧ (isTrue ↔ c.IsTrue (past ++ TrackerCall.recorded before)) := by
  induction before generalizing t past with
  | nil =>
    rw [TrackerCall.recorded, List.filterMap_nil, List.append_nil]
    exact ⟨_, rfl, (h.answer (List.forall_mem_cons.1 hcalls).1).1⟩
  | cons d before ih =>
    obtain ⟨hd, hrest⟩ := List.forall_mem_cons.1 hcalls
    rw [recorded_cons, ← List.append_assoc]
    exact ih (h.answer hd).2 hrest

theorem accepted_cons (c : TrackerCall) (isNew : Bool) (calls : List TrackerCall)
    (answers : List Bool) : TrackerCall.accepted (c :: calls) (isNew :: answers)
      = (if isNew then c.recorded? else none).toList ++ TrackerCall.accepted calls answers := by
  rw [TrackerCall.accepted, List.zip_cons_cons, List.filterMap_cons]
  cases isNew <;> cases c <;> rfl

/-- What is accepted is above all that was recorded of its producer, and so in order. -/
theorem Recalls.accepted (h : t.Recalls past) (hcalls : ∀ c ∈ calls, c.event.FromMember) :
    (∀ old ∈ past, ∀ id ∈ TrackerCall.accepted calls (t.answerAll calls).1,
        old.sameProducer id → old.sequence < id.sequence)
      ∧ (TrackerCall.accepted calls (t.answerAll calls).1).Pairwise
        fun a b => a.sameProducer b → a.sequence < b.sequence := by
  induction calls generalizing t past with
  | nil => exact ⟨fun _ _ => nofun, .nil⟩
  | cons c rest ih =>
    obtain ⟨hc, hrest⟩ := List.forall_mem_cons.1 hcalls
    obtain ⟨htrue, hnext⟩ := h.answer hc
    obtain ⟨hpast, hpairwise⟩ := ih hnext hrest
    have hlater := fun old hold => hpast old (List.mem_append_left _ hold)
    rw [show (t.answerAll (c :: rest)).1 = (t.answer c).1 :: ((t.answer c).2.answerAll rest).1
      from rfl, accepted_cons]
    cases hnew : (if (t.answer c).1 then c.recorded? else none) with
    | none => exact ⟨hlater, hpairwise⟩
    | some id =>
      rw [Option.ite_none_right_eq_some] at hnew
      obtain ⟨hanswer, hid⟩ := hnew
      have habove : ∀ old ∈ past, old.sameProducer id → old.sequence < id.sequence := by
        have hsays := htrue.1 hanswer
        cases c with
        | record _ => exact Option.some.inj hid ▸ hsays
        | hasSeen _ => cases hid
      have hself : id ∈ past ++ c.recorded?.toList := by simp [hid]
      refine ⟨fun old hold => ?_, List.pairwise_cons.2 ⟨hpast id hself, hpairwise⟩⟩
      exact List.forall_mem_cons.2 ⟨habove old hold, hlater old hold⟩

/-- **A tracker remembers by producer.** For calls about events of members, named in whatever form
by whatever version: recording an event gets true just if its sequence id is above all recorded
before of its producer, and an event was seen just if one of its producer was recorded before that
is not below it. The tracker's size is the number of producers recorded, and the events that are
accepted of one producer ascend. And whatever is asked after other calls that recorded the same
events in another order gets the same answer. -/
theorem answerAll_history (hcalls : ∀ c ∈ calls, c.event.FromMember) :
    (∀ before c after, calls = before ++ c :: after →
      ∃ isTrue : Bool, (answerAll {} calls).1[before.length]? = some isTrue
        ∧ (isTrue ↔ c.IsTrue (TrackerCall.recorded before)))
    ∧ (∃ heads : List EventId, heads ⊆ TrackerCall.recorded calls
      ∧ heads.Pairwise (fun a b => ¬a.sameProducer b)
      ∧ (∀ id ∈ TrackerCall.recorded calls, ∃ head ∈ heads, head.sameProducer id)
      ∧ (answerAll {} calls).2.size = heads.length)
    ∧ (TrackerCall.accepted calls (answerAll {} calls).1).Pairwise
      (fun a b => a.sameProducer b → a.sequence < b.sequence)
    ∧ ∀ calls' : List TrackerCall, (∀ c ∈ calls', c.event.FromMember) →
      (TrackerCall.recorded calls').Perm (TrackerCall.recorded calls) →
        (answerAll {} calls').2.size = (answerAll {} calls).2.size
        ∧ ∀ c : TrackerCall, c.event.FromMember →
          ((answerAll {} calls').2.answer c).1 = ((answerAll {} calls).2.answer c).1 := by
  have hrecalls : ∀ {calls : List TrackerCall}, (∀ c ∈ calls, c.event.FromMember) →
      (answerAll {} calls).2.Recalls (TrackerCall.recorded calls) :=
    fun h => recalls_empty.answerAll h
  refine ⟨?_, (hrecalls hcalls).exists_heads, (recalls_empty.accepted hcalls).2, ?_⟩
  · rintro before c after rfl
    exact recalls_empty.getElem?_answerAll hcalls
  · intro calls' hcalls' hperm
    have hother := (hrecalls hcalls').congr fun id => hperm.mem_iff
    refine ⟨hother.size_eq (hrecalls hcalls), fun c hc => ?_⟩
    rw [Bool.eq_iff_iff, (hother.answer hc).1, ((hrecalls hcalls).answer hc).1]

/-- A member's event comes again with the member padded, and is refused; had it come padded first,
the tracker would be as large. -/
theorem answerAll_history_padded :
    let plain : Bytes := [0, 1, 104, 0, 0, 0, 7, 0, 0, 0, 0, 0, 0]
    let calls : List TrackerCall := [
      .record { membership := plain, thread := 1, sequence := 5 },
      .record { membership := plain ++ MembershipId.padding, thread := 1, sequence := 5 }]
    (∀ c ∈ calls, c.event.FromMember) ∧ (answerAll {} calls).1[1]? = some false
      ∧ (answerAll {} calls.reverse).2.size = (answerAll {} calls).2.size := by
  intro plain calls
  have hplain : Member.essentialBytes { host := "h", port := 7 } .current = .ok plain := by rfl
  have hpadded := Member.essentialBytes_padded hplain ⟨rfl, rfl⟩
  have hcalls : ∀ c ∈ calls, c.event.FromMember :=
    List.forall_mem_cons.2 ⟨⟨_, _, hplain⟩, List.forall_mem_singleton.2 ⟨_, _, hpadded⟩⟩
  obtain ⟨hanswers, -, -, hother⟩ := answerAll_history hcalls
  obtain ⟨isTrue, hget, htrue⟩ := hanswers [calls[0]] calls[1] [] rfl
  have hfalse : isTrue = false := by
    refine Bool.eq_false_iff.2 fun h => ?_
    have hlt := htrue.1 h _ List.mem_cons_self (by decide)
    revert hlt
    decide
  refine ⟨hcalls, hfalse ▸ hget, (hother calls.reverse (fun c hc => ?_) ?_).1⟩
  · exact hcalls c (List.mem_reverse.1 hc)
  · exact (List.reverse_perm calls).filterMap _

end Tracker

end DataGrid
