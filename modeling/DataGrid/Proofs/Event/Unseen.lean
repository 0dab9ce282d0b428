import DataGrid.Event.Producer
import DataGrid.Event.Tracker

/-!
# Unseen — events that a tracker does not know

A tracker knows nothing of a thread from some sequence id on when all its records of the thread
are lower (`Tracker.Below`). The event of that thread and number is then new, whatever member it
names, and recording it moves the mark of its own thread behind it and no other. A producer whose
numbers last never comes back to one that it used (`Producer.HasRoom`).
-/

namespace DataGrid

namespace Tracker

/-- Whether everything that was recorded of a thread is lower than a sequence id. -/
def Below (t : Tracker) (thread sequence : Int64) : Prop :=
  ∀ r ∈ t.records, r.thread = thread → r.highest < sequence

variable {t : Tracker} {id : EventId}

theorem below_empty (thread sequence : Int64) : Below {} thread sequence := nofun

/-- What is lower than a sequence id is lower than a later one. -/
theorem Below.mono {thread sequence sequence' : Int64} (h : t.Below thread sequence)
    (hlt : sequence < sequence') : t.Below thread sequence' :=
  fun r hr hthread => Int64.lt_trans (h r hr hthread) hlt

/-- A record after an event was recorded is an old one, or about the event. -/
theorem mem_recordIn {records : List TrackerRecord} {r : TrackerRecord}
    (h : r ∈ (recordIn id records).2) :
    r ∈ records ∨ r.thread = id.thread ∧ r.highest = id.sequence := by
  induction records with
  | nil =>
    right
    obtain rfl := List.mem_singleton.1 h
    exact ⟨rfl, rfl⟩
  | cons a rest ih =>
    simp only [recordIn] at h
    split at h
    · next hfor =>
      have hthread : a.thread = id.thread := by
        rw [TrackerRecord.isFor, Bool.and_eq_true, beq_iff_eq] at hfor
        exact hfor.1
      split at h
      · rcases List.mem_cons.1 h with rfl | h
        · exact .inr ⟨hthread, rfl⟩
        · exact .inl (List.mem_cons_of_mem _ h)
      · exact .inl h
    · rcases List.mem_cons.1 h with rfl | h
      · exact .inl List.mem_cons_self
      · exact (ih h).imp_left (List.mem_cons_of_mem _)

/-- An event that was not seen is new. -/
theorem record_of_unseen (h : t.hasSeen id = false) : (t.record id).1 = true := by
  have hnew : ∀ records : List TrackerRecord, Tracker.hasSeen ⟨records⟩ id = false →
      (recordIn id records).1 = true := by
    intro records
    induction records with
    | nil => intro _; rfl
    | cons a rest ih =>
      intro hunseen
      simp only [hasSeen, List.find?_cons] at hunseen
      simp only [recordIn]
      split
      · next hfor =>
        simp only [hfor, decide_eq_false_iff_not, Int64.not_le] at hunseen
        rw [if_pos hunseen]
      · next hfor =>
        simp only [hfor] at hunseen
        exact ih hunseen
  exact hnew t.records h

/-- An event above all that was recorded of its thread was not seen. -/
theorem Below.unseen (h : t.Below id.thread id.sequence) : t.hasSeen id = false := by
  unfold hasSeen
  split
  · next r hfind =>
    have hfor : r.isFor id := by simpa using List.find?_some hfind
    rw [TrackerRecord.isFor, Bool.and_eq_true, beq_iff_eq] at hfor
    have hlt := h r (List.mem_of_find?_eq_some hfind) hfor.1
    exact decide_eq_false (Int64.not_le.2 hlt)
  · rfl

/-- What was recorded of other threads stays. -/
theorem Below.record_other {thread sequence : Int64} (h : t.Below thread sequence)
    (hne : id.thread ≠ thread) : (t.record id).2.Below thread sequence := by
  intro r hr hthread
  rcases mem_recordIn hr with hold | ⟨hid, -⟩
  · exact h r hold hthread
  · exact absurd (hid.symm.trans hthread) hne

/-- The mark of the event's own thread moves behind it. -/
theorem Below.record_self {sequence : Int64} (h : t.Below id.thread id.sequence)
    (hlt : id.sequence < sequence) : (t.record id).2.Below id.thread sequence := by
  intro r hr hthread
  rcases mem_recordIn hr with hold | ⟨-, hhighest⟩
  · exact Int64.lt_trans (h r hold hthread) hlt
  · rw [hhighest]
    exact hlt

end Tracker

namespace Producer

variable {p : Producer} {left : Nat}

/-- Whether a producer's numbers last for as many events as are left. -/
def HasRoom (p : Producer) (left : Nat) : Prop :=
  0 < left → 0 ≤ p.next.toInt ∧ p.next.toInt + left ≤ 9223372036854775808

theorem HasRoom.toInt_reserve (h : p.HasRoom (left + 1)) (hleft : 0 < left) :
    p.reserve.2.next.toInt = p.next.toInt + 1 := by
  obtain ⟨hnonneg, hle⟩ := h (Nat.succ_pos left)
  have hone : (1 : Int64).toInt = 1 := rfl
  change (p.next + 1).toInt = _
  rw [Int64.toInt_add, hone]
  simp only [Int.bmod]
  omega

/-- One event fewer is left when a number was used. -/
theorem HasRoom.reserve (h : p.HasRoom (left + 1)) : p.reserve.2.HasRoom left := by
  intro hleft
  obtain ⟨hnonneg, hle⟩ := h (Nat.succ_pos left)
  rw [h.toInt_reserve hleft]
  omega

theorem HasRoom.mono {left' : Nat} (h : p.HasRoom left) (hle : left' ≤ left) : p.HasRoom left' := by
  intro hleft
  obtain ⟨hnonneg, hroom⟩ := h (by omega)
  omega

theorem HasRoom.lt_reserve (h : p.HasRoom (left + 1)) (hleft : 0 < left) :
    p.next < p.reserve.2.next := by
  rw [Int64.lt_iff_toInt_lt, h.toInt_reserve hleft]
  omega

/-- Who counts from zero has room for every number. -/
theorem hasRoom_new (thread : Int64) (hleft : left ≤ 9223372036854775808) :
    HasRoom { thread } left := by
  intro _
  change 0 ≤ (0 : Int64).toInt ∧ (0 : Int64).toInt + left ≤ 9223372036854775808
  rw [Int64.toInt_zero]
  omega

end Producer

end DataGrid
