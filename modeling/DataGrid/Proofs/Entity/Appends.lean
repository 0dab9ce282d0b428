import DataGrid.Entity.Basic
import Mathlib.Data.List.FinRange
import Mathlib.Data.List.Induction

/-!
# Appends — how far a copy of a string has come

Each append to a string has a number, and a copy that has come as far as one number takes the next
one, knows the last one, and refuses all others. The numbers wrap around, but fewer than `2 ^ 32`
appends do not come back to one (`StringValue.next_iff`). So wherever a copy is, it
is just where the string was after some of its appends; the next one takes it a step further, and
nothing else moves it (`StringValue.apply_deltaAt`). It is the same for deltas that come in any
order, again, or not at all (`StringValue.appends_followed`).
-/

namespace DataGrid

/-! ## Definitions -/

namespace Entity

/-- What is left after deltas that arrive one after another. -/
def receiveAll (e : Entity) (deltas : List Delta) : Entity :=
  deltas.foldl (fun e delta => (e.apply delta).2) e

/-- The entity with a string for its content. -/
def withString (e : Entity) (s : StringValue) : Entity := { e with content := .string s }

end Entity

namespace StringValue

/-- The string after the first so many appends of a list. -/
def after (s : StringValue) (chunks : List Bytes) (k : Nat) : StringValue :=
  (chunks.take k).foldl (fun s octets => (s.append octets).1) s

/-- The delta of an append of a list. -/
def deltaAt (s : StringValue) (chunks : List Bytes) (i : Fin chunks.length) : Delta :=
  ((s.after chunks i).append chunks[i]).2.2

/-- How far a copy comes by the deltas of these appends, which arrive in this order: each one counts
if it is the next. -/
def reached {n : Nat} (arrivals : List (Fin n)) : Nat :=
  (arrivals.map Fin.val).foldl (fun k i => if i = k then k + 1 else k) 0

/-! ## Numbers -/

/-- Numbers that wrap around are different below the wrap. -/
theorem ofNat_eq_iff {a b : Nat} (ha : a < 4294967296) (hb : b < 4294967296) :
    Int32.ofNat a = Int32.ofNat b ↔ a = b := by
  constructor
  · intro h
    have hbits := congrArg (fun n : Int32 => n.toBitVec.toNat) h
    simpa [Nat.mod_eq_of_lt ha, Nat.mod_eq_of_lt hb] using hbits
  · exact congrArg Int32.ofNat

variable {s : StringValue} {chunks : List Bytes} {k : Nat} {i : Fin chunks.length}

theorem after_succ (s : StringValue) (i : Fin chunks.length) :
    s.after chunks (i + 1) = ((s.after chunks i).append chunks[i]).1 := by
  rw [after, List.take_succ_eq_append_getElem i.isLt, List.foldl_append]
  rfl

/-- The number of the last append. -/
theorem after_sequence (s : StringValue) (h : k ≤ chunks.length) :
    (s.after chunks k).sequence = s.sequence + Int32.ofNat k := by
  induction k with
  | zero => exact (Int32.add_zero _).symm
  | succ k ih =>
    have hstep : (s.after chunks (k + 1)).sequence = (s.after chunks k).sequence + 1 :=
      congrArg StringValue.sequence (after_succ s ⟨k, h⟩)
    rw [hstep, ih (Nat.le_of_succ_le h), Int32.ofNat_add, Int32.add_assoc]
    rfl

theorem deltaAt_eq (s : StringValue) (chunks : List Bytes) (i : Fin chunks.length) :
    s.deltaAt chunks i = .append ((s.after chunks i).sequence + 1) chunks[i] := rfl

/-- **Which append is the next one** to a copy that has come so far. -/
theorem next_iff (h : chunks.length < 4294967296) (hk : k ≤ chunks.length) :
    (s.after chunks i).sequence + 1 = (s.after chunks k).sequence + 1 ↔ i.val = k := by
  have hi := i.isLt
  rw [Int32.add_left_inj, after_sequence s (Nat.le_of_lt hi), after_sequence s hk,
    Int32.add_right_inj, ofNat_eq_iff (by omega) (by omega)]

/-- **Which append is the last one** of a copy that has come so far. -/
theorem last_iff (h : chunks.length < 4294967296) (hk : k ≤ chunks.length) :
    (s.after chunks i).sequence + 1 = (s.after chunks k).sequence ↔ i.val + 1 = k := by
  have hi := i.isLt
  have hsucc : (s.after chunks i).sequence + 1 = (s.after chunks (i + 1)).sequence :=
    (congrArg StringValue.sequence (after_succ s i)).symm
  rw [hsucc, after_sequence s hi, after_sequence s hk, Int32.add_right_inj,
    ofNat_eq_iff (by omega) (by omega)]

end StringValue

/-! ## One delta -/

theorem Entity.apply_append (e : Entity) (s : StringValue) (sequence : Int32) (octets : Bytes) :
    (e.withString s).apply (.append sequence octets)
      = if sequence = s.sequence + 1 then
          (.ok (), e.withString { octets := s.octets ++ octets, sequence })
        else if sequence = s.sequence then (.ok (), e.withString s)
        else (.error (.outOfSequence sequence (s.sequence + 1)), e.withString s) := by
  simp only [withString, apply, Content.apply, Content.applyAppend]
  by_cases hnext : sequence = s.sequence + 1
  · rw [if_pos hnext, if_pos hnext]
  · rw [if_neg hnext, if_neg hnext]
    by_cases hlast : sequence = s.sequence
    · rw [if_pos hlast, if_pos hlast]
    · rw [if_neg hlast, if_neg hlast]

namespace StringValue

variable {s : StringValue} {chunks : List Bytes} {k : Nat}

/-- **What the delta of an append does to a copy**: it takes the next one, knows the last one, and
refuses every other. -/
theorem apply_deltaAt (e : Entity) (s : StringValue) (h : chunks.length < 4294967296)
    (hk : k ≤ chunks.length) (i : Fin chunks.length) :
    (e.withString (s.after chunks k)).apply (s.deltaAt chunks i)
      = if i.val = k then (.ok (), e.withString (s.after chunks (k + 1)))
        else if i.val + 1 = k then (.ok (), e.withString (s.after chunks k))
        else (.error (.outOfSequence ((s.after chunks i).sequence + 1)
          ((s.after chunks k).sequence + 1)), e.withString (s.after chunks k)) := by
  simp only [deltaAt_eq, Entity.apply_append, next_iff h hk, last_iff h hk]
  split
  · next hnext =>
    subst hnext
    rw [after_succ]
    rfl
  · rfl

/-! ## Any deltas -/

theorem reached_concat {n : Nat} (arrivals : List (Fin n)) (i : Fin n) :
    reached (arrivals ++ [i])
      = if i.val = reached arrivals then reached arrivals + 1 else reached arrivals := by
  rw [reached, List.map_append, List.foldl_append]
  rfl

theorem reached_le {n : Nat} (arrivals : List (Fin n)) : reached arrivals ≤ n := by
  -- By the last arrival, which counts only if it is an append of the list.
  induction arrivals using List.reverseRecOn with
  | nil => exact Nat.zero_le n
  | append_singleton arrivals i ih =>
    have hi := i.isLt
    rw [reached_concat]
    split <;> omega

/-- Deltas in their order take a copy all the way. -/
theorem reached_finRange (n : Nat) : reached (List.finRange n) = n := by
  have hrange : ∀ n, (List.range n).foldl (fun k i => if i = k then k + 1 else k) 0 = n := by
    intro n
    induction n with
    | zero => rfl
    | succ n ih =>
      rw [List.range_succ, List.foldl_append, ih]
      exact if_pos rfl
  rw [reached, List.map_coe_finRange_eq_range, hrange]

/-- **Wherever deltas take a copy, the string has been there**, and just so far on its way. -/
theorem receiveAll_eq (e : Entity) (s : StringValue) (h : chunks.length < 4294967296)
    (arrivals : List (Fin chunks.length)) :
    (e.withString s).receiveAll (arrivals.map (s.deltaAt chunks))
      = e.withString (s.after chunks (reached arrivals)) := by
  induction arrivals using List.reverseRecOn with
  | nil => rfl
  | append_singleton arrivals i ih =>
    have hconcat : (e.withString s).receiveAll ((arrivals ++ [i]).map (s.deltaAt chunks))
        = ((e.withString (s.after chunks (reached arrivals))).apply (s.deltaAt chunks i)).2 := by
      rw [← ih, Entity.receiveAll, List.map_append, List.foldl_append]
      rfl
    rw [hconcat, apply_deltaAt e s h (reached_le arrivals) i, reached_concat]
    split
    · rfl
    · split <;> rfl

/-- **A copy of a string that is told of its appends in any order, with losses and repeats.** The
numbers may start anywhere and wrap around. After any arrivals the copy is as the string was after
some of its appends: as many as arrived when they were the next one. So far along, it takes the next
append and moves on, knows the last one and stays, and refuses any other and stays. All deltas in
their order take it to the end. -/
theorem appends_followed (e : Entity) (s : StringValue) (chunks : List Bytes)
    (h : chunks.length < 4294967296) :
    let stage (k : Nat) : Entity := e.withString (s.after chunks k)
    (∀ arrivals : List (Fin chunks.length), reached arrivals ≤ chunks.length
        ∧ (stage 0).receiveAll (arrivals.map (s.deltaAt chunks)) = stage (reached arrivals))
      ∧ (∀ k ≤ chunks.length, ∀ i : Fin chunks.length,
        (stage k).apply (s.deltaAt chunks i)
          = if i.val = k then (.ok (), stage (k + 1))
            else if i.val + 1 = k then (.ok (), stage k)
            else (.error (.outOfSequence ((s.after chunks i).sequence + 1)
              ((s.after chunks k).sequence + 1)), stage k))
      ∧ (stage 0).receiveAll ((List.finRange chunks.length).map (s.deltaAt chunks))
        = stage chunks.length := by
  intro stage
  refine ⟨fun arrivals => ⟨reached_le arrivals, receiveAll_eq e s h arrivals⟩,
    fun k hk i => apply_deltaAt e s h hk i, ?_⟩
  have hall := receiveAll_eq e s h (List.finRange chunks.length)
  rwa [reached_finRange] at hall

/-- Three appends over the wrap of the numbers: the second arrives first, and two arrive again. -/
theorem appends_followed_wrap :
    let s : StringValue := { octets := [97], sequence := 2147483647 }
    let chunks : List Bytes := [[98], [99], [100]]
    let e : Entity := { content := .string s, expiration := 5 }
    let arrivals : List (Fin chunks.length) := [1, 0, 2, 0, 1, 1]
    chunks.length < 4294967296
      ∧ (e.withString s).receiveAll (arrivals.map (s.deltaAt chunks))
        = e.withString { octets := [97, 98, 99], sequence := -2147483647 }
      ∧ (e.withString (s.after chunks 2)).apply (s.deltaAt chunks 0)
        = (.error (.outOfSequence (-2147483648) (-2147483646)),
          e.withString (s.after chunks 2)) := by
  intro s chunks e arrivals
  have hlength : chunks.length < 4294967296 := by decide
  obtain ⟨harrivals, happly, -⟩ := appends_followed e s chunks hlength
  have hreached : reached arrivals = 2 := by decide
  have hall : (e.withString s).receiveAll (arrivals.map (s.deltaAt chunks))
      = e.withString (s.after chunks 2) := by
    rw [← hreached]
    exact (harrivals arrivals).2
  have hstage : s.after chunks 2 = { octets := [97, 98, 99], sequence := -2147483647 } := by
    decide +kernel
  have hfirst : (e.withString (s.after chunks 2)).apply (s.deltaAt chunks 0)
      = (.error (.outOfSequence ((s.after chunks 0).sequence + 1)
        ((s.after chunks 2).sequence + 1)), e.withString (s.after chunks 2)) :=
    happly 2 (by decide) 0
  have hnumbers : (s.after chunks 0).sequence + 1 = -2147483648
      ∧ (s.after chunks 2).sequence + 1 = -2147483646 := by decide +kernel
  rw [hnumbers.1, hnumbers.2] at hfirst
  exact ⟨hlength, hstage ▸ hall, hfirst⟩

end StringValue

end DataGrid
