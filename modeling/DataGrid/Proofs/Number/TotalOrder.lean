import DataGrid.Proofs.Number.Shortest
import Mathlib.Order.WithBot

/-!
# Total order — a place for every bit pattern

The standard for floating-point numbers orders all bit patterns. Numbers stand in their order, with
the infinities at the ends, and the negative zero comes before the other one. NaNs come before all
numbers if their sign is negative, and behind them if it is not. Among the NaNs behind, signaling
ones come before quiet ones and lesser payloads before greater ones; among the NaNs in front it is
the other way round (`Binary64.Before`).

The key of the total order is the magnitude, counted from the sign (`Binary64.totalKey`). It gives
just that order (`Binary64.before_iff`), since a larger magnitude stands for a larger number, and
the magnitude of a NaN begins with its quiet bit. No two patterns have one key, so of two different
ones exactly one is before the other (`Binary64.totalCompare_eq_eq_iff`).
-/

namespace DataGrid

namespace Binary64

/-! ## The order of the standard -/

/-- The number that a finite pattern stands for. -/
def signed (x : Binary64) : ℚ := if x.isNegative then -x.value else x.value

/-- The number that a pattern stands for, on a line with two ends for the infinities. -/
def extended (x : Binary64) : WithBot (WithTop ℚ) :=
  if x.isFinite then ((x.signed : WithTop ℚ) : WithBot (WithTop ℚ))
  else if x.isNegative then ⊥
  else ⊤

/-- The weight of the highest bit of a fraction, `2 ^ 51`. -/
def quietWeight : Nat := 0x8000000000000

/-- Whether a NaN is quiet. -/
def isQuiet (x : Binary64) : Bool := x.magnitude / quietWeight % 2 == 1

/-- What a NaN carries. -/
def payload (x : Binary64) : Nat := x.magnitude % quietWeight

/-- Whether a NaN comes before another one of positive sign, if its own sign is positive. -/
def BelowNaN (x y : Binary64) : Prop :=
  x.isQuiet = false ∧ y.isQuiet = true ∨ x.isQuiet = y.isQuiet ∧ x.payload < y.payload

/-- **The total order of the standard**, strictly. -/
inductive Before (x y : Binary64) : Prop where
  /-- Numbers stand in their order. -/
  | less (hx : x.isNaN = false) (hy : y.isNaN = false) (h : x.extended < y.extended)
  /-- The zeros are one number, and the negative one comes first. -/
  | zeros (hx : x = zero.negate) (hy : y = zero)
  /-- A NaN of negative sign comes before every number. -/
  | negativeNaN (hx : x.isNaN = true) (hsign : x.isNegative = true) (hy : y.isNaN = false)
  /-- A NaN of positive sign comes behind every number. -/
  | positiveNaN (hx : x.isNaN = false) (hy : y.isNaN = true) (hsign : y.isNegative = false)
  /-- Of two NaNs that differ in sign the negative one comes first. -/
  | signs (hx : x.isNaN = true) (hy : y.isNaN = true) (hsign : x.isNegative = true)
    (hsign' : y.isNegative = false)
  | positiveNaNs (hx : x.isNaN = true) (hy : y.isNaN = true) (hsign : x.isNegative = false)
    (hsign' : y.isNegative = false) (h : x.BelowNaN y)
  | negativeNaNs (hx : x.isNaN = true) (hy : y.isNaN = true) (hsign : x.isNegative = true)
    (hsign' : y.isNegative = true) (h : y.BelowNaN x)

/-! ## Numbers by their magnitudes -/

variable {x y : Binary64}

theorem magnitude_lt (x : Binary64) : x.magnitude < signWeight :=
  Nat.mod_lt _ (by decide)

/-- Sign and magnitude are all of a pattern. -/
theorem eq_iff : x = y ↔ x.isNegative = y.isNegative ∧ x.magnitude = y.magnitude := by
  constructor
  · rintro rfl
    exact ⟨rfl, rfl⟩
  · rintro ⟨hsign, hmagnitude⟩
    have hx := x.bits.toNat_lt
    have hy := y.bits.toNat_lt
    have hbits : x.bits.toNat = y.bits.toNat := by
      rw [isNegative, isNegative, decide_eq_decide] at hsign
      simp only [magnitude, signWeight] at hsign hmagnitude
      omega
    obtain ⟨bits⟩ := x
    obtain ⟨bits'⟩ := y
    exact congrArg mk (UInt64.toNat_inj.1 hbits)

theorem value_eq (x : Binary64) : x.value = x.units / perOne := by
  have hden : (x.ratio.2 : ℚ) ≠ 0 := by exact_mod_cast x.ratio_pos.ne'
  have hone : (perOne : ℚ) ≠ 0 := by exact_mod_cast perOne_pos.ne'
  have hmul : x.ratio.1 * perOne = x.units * x.ratio.2 := x.ratio_mul
  rw [value, div_eq_div_iff hden hone, ← Nat.cast_mul, hmul, Nat.cast_mul]

theorem value_congr (h : x.magnitude = y.magnitude) : x.value = y.value := by
  rw [value_eq, value_eq, units_congr h]

theorem value_lt (h : x.magnitude < y.magnitude) : x.value < y.value := by
  have hone : (0 : ℚ) < perOne := by exact_mod_cast perOne_pos
  rw [value_eq, value_eq, div_lt_div_iff_of_pos_right hone]
  exact Nat.cast_lt.2 (units_lt h)

theorem value_nonneg (x : Binary64) : 0 ≤ x.value := by
  rw [value_eq]
  exact div_nonneg (Nat.cast_nonneg _) (Nat.cast_nonneg _)

theorem value_of_zero (h : x.magnitude = 0) : x.value = 0 := by
  have hzero : x.value = zero.value := value_congr h
  rw [hzero, value, show zero.ratio.1 = 0 by decide, Nat.cast_zero, zero_div]

theorem value_pos (h : x.magnitude ≠ 0) : 0 < x.value := by
  have hlt : zero.magnitude < x.magnitude := Nat.pos_of_ne_zero h
  exact zero.value_nonneg.trans_lt (value_lt hlt)

/-- The place of a pattern from the middle of the line, where both zeros are. -/
def place (x : Binary64) : Int := if x.isNegative then -x.magnitude else x.magnitude

theorem signed_lt (h : x.place < y.place) : x.signed < y.signed := by
  unfold place at h
  unfold signed
  by_cases hx : x.isNegative
  · rw [if_pos hx] at h ⊢
    by_cases hy : y.isNegative
    · rw [if_pos hy] at h ⊢
      exact neg_lt_neg (value_lt (by omega))
    · rw [if_neg hy] at h ⊢
      -- One of them at least is not zero.
      by_cases hzero : x.magnitude = 0
      · rw [value_of_zero hzero, neg_zero]
        exact value_pos (by omega)
      · exact (neg_neg_of_pos (value_pos hzero)).trans_le y.value_nonneg
  · rw [if_neg hx] at h ⊢
    by_cases hy : y.isNegative
    · rw [if_pos hy] at h
      omega
    · rw [if_neg hy] at h ⊢
      exact value_lt (by omega)

/-- Patterns of one place are equal, or two zeros. -/
theorem place_eq_iff : x.place = y.place
    ↔ x.magnitude = y.magnitude ∧ (x.magnitude = 0 ∨ x.isNegative = y.isNegative) := by
  unfold place
  by_cases hx : x.isNegative <;> by_cases hy : y.isNegative <;> simp [hx, hy] <;> omega

theorem signed_congr (h : x.place = y.place) : x.signed = y.signed := by
  obtain ⟨hmagnitude, hzero | hsign⟩ := place_eq_iff.1 h
  · have hx := value_of_zero hzero
    have hy := value_of_zero (hmagnitude ▸ hzero)
    simp [signed, hx, hy]
  · rw [signed, signed, hsign, value_congr hmagnitude]

/-! ### The infinities -/

theorem isNaN_eq_false : x.isNaN = false ↔ x.magnitude ≤ infinity := by
  rw [isNaN, decide_eq_false_iff_not, Nat.not_lt]

theorem extended_of_finite (h : x.magnitude < infinity) :
    x.extended = ((x.signed : WithTop ℚ) : WithBot (WithTop ℚ)) :=
  if_pos (decide_eq_true h)

theorem extended_of_infinite (h : x.magnitude = infinity) :
    x.extended = if x.isNegative then ⊥ else ⊤ :=
  if_neg (by rw [isFinite, h]; simp)

theorem extended_congr (hx : x.magnitude ≤ infinity) (h : x.place = y.place) :
    x.extended = y.extended := by
  obtain ⟨hmagnitude, hsign⟩ := place_eq_iff.1 h
  rcases Nat.lt_or_eq_of_le hx with hfinite | hinfinite
  · rw [extended_of_finite hfinite, extended_of_finite (hmagnitude ▸ hfinite), signed_congr h]
  · have hpos : x.magnitude ≠ 0 := by
      rw [hinfinite]
      decide
    rw [extended_of_infinite hinfinite, extended_of_infinite (hmagnitude ▸ hinfinite),
      hsign.resolve_left hpos]

theorem extended_lt (hx : x.magnitude ≤ infinity) (hy : y.magnitude ≤ infinity)
    (h : x.place < y.place) : x.extended < y.extended := by
  rcases Nat.lt_or_eq_of_le hx with hfinite | hinfinite
  · rw [extended_of_finite hfinite]
    rcases Nat.lt_or_eq_of_le hy with hfinite' | hinfinite'
    · rw [extended_of_finite hfinite']
      exact WithBot.coe_lt_coe.2 (WithTop.coe_lt_coe.2 (signed_lt h))
    · have hsign : ¬y.isNegative := fun hneg => by
        unfold place at h
        rw [if_pos hneg] at h
        split at h <;> omega
      rw [extended_of_infinite hinfinite', if_neg hsign]
      exact WithBot.coe_lt_coe.2 (WithTop.coe_lt_top _)
  · have hsign : x.isNegative := by
      by_contra hpos
      unfold place at h
      rw [if_neg hpos] at h
      split at h <;> omega
    rw [extended_of_infinite hinfinite, if_pos hsign]
    rcases Nat.lt_or_eq_of_le hy with hfinite' | hinfinite'
    · rw [extended_of_finite hfinite']
      exact WithBot.bot_lt_coe _
    · have hsign' : ¬y.isNegative := fun hneg => by
        unfold place at h
        rw [if_pos hsign, if_pos hneg] at h
        omega
      rw [extended_of_infinite hinfinite', if_neg hsign']
      exact bot_lt_top

/-- **Numbers stand in the order of their places.** -/
theorem extended_lt_iff (hx : x.isNaN = false) (hy : y.isNaN = false) :
    x.extended < y.extended ↔ x.place < y.place := by
  rw [isNaN_eq_false] at hx hy
  refine ⟨fun h => ?_, extended_lt hx hy⟩
  rcases lt_trichotomy x.place y.place with hlt | heq | hgt
  · exact hlt
  · exact absurd (extended_congr hx heq) h.ne
  · exact absurd (extended_lt hy hx hgt) h.not_gt

/-! ## The key -/

theorem eq_zero_iff : x = zero ↔ x.isNegative = false ∧ x.magnitude = 0 := eq_iff

theorem eq_negate_zero_iff : x = zero.negate ↔ x.isNegative = true ∧ x.magnitude = 0 := by
  have hsign : zero.negate.isNegative = true := by decide
  have hmagnitude : zero.negate.magnitude = 0 := by decide
  rw [eq_iff, hsign, hmagnitude]

/-- The keys are the places, with one of its own for the negative zero. -/
theorem totalKey_lt_iff : x.totalKey < y.totalKey
    ↔ x.place < y.place ∨ x = zero.negate ∧ y = zero := by
  have hx := x.magnitude_lt
  have hy := y.magnitude_lt
  rw [eq_negate_zero_iff, eq_zero_iff]
  unfold totalKey place
  by_cases hsx : x.isNegative <;> by_cases hsy : y.isNegative <;> simp [hsx, hsy] <;> omega

/-- **No two patterns have one key.** -/
theorem totalKey_inj : x.totalKey = y.totalKey ↔ x = y := by
  have hx := x.magnitude_lt
  have hy := y.magnitude_lt
  rw [eq_iff]
  unfold totalKey
  by_cases hsx : x.isNegative <;> by_cases hsy : y.isNegative <;> simp [hsx, hsy] <;> omega

/-! ## NaNs -/

/-- The magnitude of a NaN is behind the one of infinity: its quiet bit, and what it carries. -/
theorem magnitude_of_isNaN (h : x.isNaN = true) : x.magnitude
    = infinity + (if x.isQuiet then quietWeight else 0) + x.payload := by
  have hlt := x.magnitude_lt
  rw [isNaN, decide_eq_true_eq] at h
  unfold isQuiet payload
  simp only [infinity, exponentWeight, signWeight, quietWeight, beq_iff_eq] at *
  split <;> omega

theorem payload_lt (x : Binary64) : x.payload < quietWeight := Nat.mod_lt _ (by decide)

theorem belowNaN_iff (hx : x.isNaN = true) (hy : y.isNaN = true) :
    x.BelowNaN y ↔ x.magnitude < y.magnitude := by
  have hpayload := x.payload_lt
  have hpayload' := y.payload_lt
  rw [magnitude_of_isNaN hx, magnitude_of_isNaN hy]
  unfold BelowNaN
  cases x.isQuiet <;> cases y.isQuiet <;> simp <;> omega

/-! ## All patterns -/

theorem totalKey_of_negative (h : x.isNegative = true) :
    x.totalKey = signWeight - 1 - x.magnitude := if_pos h

theorem totalKey_of_positive (h : x.isNegative = false) : x.totalKey = signWeight + x.magnitude :=
  if_neg (by rw [h]; exact Bool.false_ne_true)

/-- Behind infinity there are NaNs only. -/
theorem lt_totalKey_iff_isNaN : signWeight + infinity < x.totalKey
    ↔ x.isNaN = true ∧ x.isNegative = false := by
  have hlt := x.magnitude_lt
  cases hsign : x.isNegative with
  | true => simp [totalKey_of_negative hsign]; omega
  | false => simp [totalKey_of_positive hsign, isNaN]

/-- And in front of the infinity of negative sign. -/
theorem totalKey_lt_iff_isNaN : x.totalKey < signWeight - 1 - infinity
    ↔ x.isNaN = true ∧ x.isNegative = true := by
  have hinfinity : infinity < signWeight := by decide
  have hlt := x.magnitude_lt
  cases hsign : x.isNegative with
  | true => simp [totalKey_of_negative hsign, isNaN]; omega
  | false => simp [totalKey_of_positive hsign]; omega

theorem Before.totalKey_lt (h : x.Before y) : x.totalKey < y.totalKey := by
  have hmiddle : signWeight - 1 - infinity ≤ signWeight + infinity := by decide
  have hx := x.magnitude_lt
  cases h with
  | less hx hy h => exact totalKey_lt_iff.2 (.inl ((extended_lt_iff hx hy).1 h))
  | zeros hx hy => exact totalKey_lt_iff.2 (.inr ⟨hx, hy⟩)
  | negativeNaN hx hsign hy =>
    have hfront := totalKey_lt_iff_isNaN.2 ⟨hx, hsign⟩
    have hnumber : ¬y.totalKey < signWeight - 1 - infinity := fun h => by
      rw [(totalKey_lt_iff_isNaN.1 h).1] at hy
      cases hy
    omega
  | positiveNaN hx hy hsign =>
    have hbehind := lt_totalKey_iff_isNaN.2 ⟨hy, hsign⟩
    have hnumber : ¬signWeight + infinity < x.totalKey := fun h => by
      rw [(lt_totalKey_iff_isNaN.1 h).1] at hx
      cases hx
    omega
  | signs hx hy hsign hsign' =>
    have hfront := totalKey_lt_iff_isNaN.2 ⟨hx, hsign⟩
    have hbehind := lt_totalKey_iff_isNaN.2 ⟨hy, hsign'⟩
    omega
  | positiveNaNs hx hy hsign hsign' h =>
    have hmagnitude := (belowNaN_iff hx hy).1 h
    rw [totalKey_of_positive hsign, totalKey_of_positive hsign']
    omega
  | negativeNaNs hx hy hsign hsign' h =>
    have hmagnitude := (belowNaN_iff hy hx).1 h
    rw [totalKey_of_negative hsign, totalKey_of_negative hsign']
    omega

/-- Of two different patterns one is before the other. -/
theorem before_or_eq_or_before (x y : Binary64) : x.Before y ∨ x = y ∨ y.Before x := by
  rcases hx : x.isNaN <;> rcases hy : y.isNaN
  · rcases lt_trichotomy x.place y.place with hlt | heq | hgt
    · exact .inl (.less hx hy ((extended_lt_iff hx hy).2 hlt))
    · obtain ⟨hmagnitude, hzero | hsign⟩ := place_eq_iff.1 heq
      · -- Both are zeros, and the signs tell which ones.
        rcases hsx : x.isNegative <;> rcases hsy : y.isNegative
        · exact .inr (.inl (eq_iff.2 ⟨hsx.trans hsy.symm, hmagnitude⟩))
        · exact .inr (.inr (.zeros (eq_negate_zero_iff.2 ⟨hsy, hmagnitude ▸ hzero⟩)
            (eq_zero_iff.2 ⟨hsx, hzero⟩)))
        · exact .inl (.zeros (eq_negate_zero_iff.2 ⟨hsx, hzero⟩)
            (eq_zero_iff.2 ⟨hsy, hmagnitude ▸ hzero⟩))
        · exact .inr (.inl (eq_iff.2 ⟨hsx.trans hsy.symm, hmagnitude⟩))
      · exact .inr (.inl (eq_iff.2 ⟨hsign, hmagnitude⟩))
    · exact .inr (.inr (.less hy hx ((extended_lt_iff hy hx).2 hgt)))
  · rcases hsign : y.isNegative
    · exact .inl (.positiveNaN hx hy hsign)
    · exact .inr (.inr (.negativeNaN hy hsign hx))
  · rcases hsign : x.isNegative
    · exact .inr (.inr (.positiveNaN hy hx hsign))
    · exact .inl (.negativeNaN hx hsign hy)
  · rcases hsx : x.isNegative <;> rcases hsy : y.isNegative
    · rcases Nat.lt_trichotomy x.magnitude y.magnitude with hlt | heq | hgt
      · exact .inl (.positiveNaNs hx hy hsx hsy ((belowNaN_iff hx hy).2 hlt))
      · exact .inr (.inl (eq_iff.2 ⟨hsx.trans hsy.symm, heq⟩))
      · exact .inr (.inr (.positiveNaNs hy hx hsy hsx ((belowNaN_iff hy hx).2 hgt)))
    · exact .inr (.inr (.signs hy hx hsy hsx))
    · exact .inl (.signs hx hy hsx hsy)
    · rcases Nat.lt_trichotomy x.magnitude y.magnitude with hlt | heq | hgt
      · exact .inr (.inr (.negativeNaNs hy hx hsy hsx ((belowNaN_iff hx hy).2 hlt)))
      · exact .inr (.inl (eq_iff.2 ⟨hsx.trans hsy.symm, heq⟩))
      · exact .inl (.negativeNaNs hx hy hsx hsy ((belowNaN_iff hy hx).2 hgt))

/-- **The key gives the total order of the standard.** -/
theorem before_iff : x.Before y ↔ x.totalKey < y.totalKey := by
  refine ⟨Before.totalKey_lt, fun h => ?_⟩
  rcases before_or_eq_or_before x y with hbefore | rfl | hbehind
  · exact hbefore
  · exact absurd h (Nat.lt_irrefl _)
  · exact absurd hbehind.totalKey_lt (Nat.lt_asymm h)

theorem totalCompare_eq_lt_iff : x.totalCompare y = .lt ↔ x.Before y := by
  rw [before_iff]
  exact Nat.compare_eq_lt

theorem totalCompare_eq_eq_iff : x.totalCompare y = .eq ↔ x = y := by
  rw [← totalKey_inj]
  exact Nat.compare_eq_eq

end Binary64

end DataGrid
