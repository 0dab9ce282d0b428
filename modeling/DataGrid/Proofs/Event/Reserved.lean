import DataGrid.Event.Producer

/-!
# Reserved — the numbers that producers handed out

A list of reservations, the newest first, tells which numbers the producers of a process handed
out. If each one begins where those before it of the same producer ended (`Reservation.Tiled`),
the numbers reserved of a producer are all those below their count
(`Reservation.Tiled.exists_covers_iff`), and no number is reserved twice
(`Reservation.Tiled.pairwise`). Numbers are 64-bit, so that is the case as long as the count does
not pass `2 ^ 63`.
-/

namespace DataGrid

/-- Numbers that a producer handed out at once: so many from the first one on. -/
structure Reservation where
  /-- The place of the producer among those of the process. -/
  producer : Nat
  first : Int64
  count : Nat
  deriving DecidableEq, Repr

namespace Reservation

/-- Whether a number is one of those reserved, and of this producer. -/
def Covers (r : Reservation) (k : Nat) (n : Int) : Prop :=
  r.producer = k ∧ r.first.toInt ≤ n ∧ n < r.first.toInt + r.count

/-- How many numbers of a producer are reserved. -/
def taken : List Reservation → Nat → Nat
  | [], _ => 0
  | r :: older, k => if r.producer = k then taken older k + r.count else taken older k

/-- Whether each reservation begins where those before it of its producer ended. -/
def Tiled : List Reservation → Prop
  | [] => True
  | r :: older => r.first = Int64.ofNat (taken older r.producer) ∧ Tiled older

variable {r : Reservation} {older reservations : List Reservation} {k t : Nat} {n : Int}

theorem taken_cons_self : taken (r :: older) r.producer = taken older r.producer + r.count :=
  if_pos rfl

theorem taken_cons_of_ne (h : r.producer ≠ k) : taken (r :: older) k = taken older k := if_neg h

theorem taken_eq_zero (h : ∀ r ∈ reservations, r.producer ≠ k) : taken reservations k = 0 := by
  induction reservations with
  | nil => rfl
  | cons r older ih =>
    rw [taken_cons_of_ne (h r List.mem_cons_self)]
    exact ih fun r' hr' => h r' (List.mem_cons_of_mem r hr')

theorem taken_le_cons (r : Reservation) (older : List Reservation) (k : Nat) :
    taken older k ≤ taken (r :: older) k := by
  rw [taken]
  split <;> omega

/-- What a reservation covers, if its numbers last. -/
theorem covers_iff (hfirst : r.first = Int64.ofNat t) (hle : t + r.count ≤ 9223372036854775808) :
    r.Covers k n ↔ r.producer = k ∧ (t : Int) ≤ n ∧ n < t + r.count := by
  rw [Covers, hfirst]
  refine and_congr_right fun _ => ?_
  rcases Nat.eq_zero_or_pos r.count with hzero | hpos
  · omega
  · rw [Int64.toInt_ofNat_of_lt (by omega)]

/-- **The numbers reserved are all those below their count.** -/
theorem Tiled.exists_covers_iff (h : Tiled reservations)
    (hle : taken reservations k ≤ 9223372036854775808) :
    (∃ r ∈ reservations, r.Covers k n) ↔ 0 ≤ n ∧ n < taken reservations k := by
  induction reservations with
  | nil =>
    refine iff_of_false (fun ⟨_, hr, _⟩ => List.not_mem_nil hr) ?_
    rw [show taken [] k = 0 from rfl]
    omega
  | cons r older ih =>
    obtain ⟨hfirst, holder⟩ := h
    simp only [List.mem_cons, exists_eq_or_imp,
      ih holder (Nat.le_trans (taken_le_cons r older k) hle)]
    by_cases hk : r.producer = k
    · subst hk
      rw [taken_cons_self] at hle ⊢
      rw [covers_iff hfirst hle]
      omega
    · rw [taken_cons_of_ne hk, Covers]
      exact or_iff_right fun hcovers => hk hcovers.1

/-- **No number is reserved twice.** -/
theorem Tiled.pairwise (h : Tiled reservations)
    (hle : ∀ k, taken reservations k ≤ 9223372036854775808) :
    reservations.Pairwise fun r r' => ∀ k n, ¬(r.Covers k n ∧ r'.Covers k n) := by
  induction reservations with
  | nil => exact .nil
  | cons r older ih =>
    obtain ⟨hfirst, holder⟩ := h
    have hless : ∀ k, taken older k ≤ 9223372036854775808 := fun k =>
      Nat.le_trans (taken_le_cons r older k) (hle k)
    refine .cons ?_ (ih holder hless)
    rintro r' hr' k n ⟨hcovers, hcovers'⟩
    -- The older one ends below the count that the newer one begins at.
    obtain ⟨-, hlt⟩ := (holder.exists_covers_iff (hless k)).1 ⟨r', hr', hcovers'⟩
    obtain rfl := hcovers.1
    have hroom := hle r.producer
    rw [taken_cons_self] at hroom
    have hge := ((covers_iff hfirst hroom).1 hcovers).2.1
    omega

/-- A reservation's numbers last if its producer's do. -/
theorem Tiled.exists_first (h : Tiled reservations)
    (hle : taken reservations r.producer ≤ 9223372036854775808) (hr : r ∈ reservations) :
    ∃ t, r.first = Int64.ofNat t ∧ t + r.count ≤ 9223372036854775808 := by
  induction reservations with
  | nil => cases hr
  | cons r' older ih =>
    obtain ⟨hfirst, holder⟩ := h
    rcases List.mem_cons.1 hr with rfl | hr
    · rw [taken_cons_self] at hle
      exact ⟨_, hfirst, hle⟩
    · exact ih holder (Nat.le_trans (taken_le_cons r' older r.producer) hle) hr

end Reservation

end DataGrid
