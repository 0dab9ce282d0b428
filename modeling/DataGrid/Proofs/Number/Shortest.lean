import DataGrid.Number.Shortest
import DataGrid.Proofs.Number.Rounding
import Mathlib.Algebra.Order.Field.Power
import Mathlib.Data.Rat.Floor
import Mathlib.Tactic.FieldSimp
import Mathlib.Tactic.Positivity

/-!
# Shortest — how large the digits of a number are

The comparisons of the search are comparisons of rational numbers (`Binary64.leRatio_iff`,
`Binary64.ratioLe_iff`). The search starts at the first digit of the number
(`Binary64.decimalExponent_spec`) and ends with eighteen digits at the latest, and what it finds is
not beyond the upper end of the interval of the number. So the digits of a finite number are few,
they are not zero, and they spell no more than the greatest number (`Binary64.shortest_spec`).
-/

namespace DataGrid

namespace Binary64

/-! ## Comparisons -/

variable {num den : Nat}

theorem cast_tenTo (n : Nat) : ((tenTo n : Nat) : ℚ) = 10 ^ n := by
  rw [tenTo_eq]
  norm_num

/-- A power of ten, in natural numbers: one of the two is one. -/
theorem zpow_eq (e : Int) : (10 : ℚ) ^ e = tenTo e.toNat / tenTo (-e).toNat := by
  rw [cast_tenTo, cast_tenTo, ← zpow_natCast, ← zpow_natCast, ← zpow_sub₀ (by norm_num)]
  congr 1
  omega

theorem toNat_split (e : Int) : 0 ≤ e ∧ tenTo (-e).toNat = 1 ∨ ¬ 0 ≤ e ∧ tenTo e.toNat = 1 := by
  by_cases h : 0 ≤ e
  · exact .inl ⟨h, by rw [Int.toNat_of_nonpos (by omega)]; rfl⟩
  · exact .inr ⟨h, by rw [Int.toNat_of_nonpos (by omega)]; rfl⟩

theorem leRatio_iff (hden : 0 < den) (digits : Nat) (e : Int) :
    leRatio num den digits e = true ↔ (digits : ℚ) * 10 ^ e ≤ num / den := by
  have hpos : (0 : ℚ) < den := by exact_mod_cast hden
  have hten : (0 : ℚ) < tenTo (-e).toNat := by exact_mod_cast tenTo_pos _
  rw [zpow_eq, ← mul_div_assoc, div_le_div_iff₀ hten hpos]
  have hnat : leRatio num den digits e = true
      ↔ digits * tenTo e.toNat * den ≤ num * tenTo (-e).toNat := by
    rw [leRatio]
    rcases toNat_split e with ⟨h, hone⟩ | ⟨h, hone⟩
    · rw [if_pos h, hone, Nat.mul_one, decide_eq_true_eq]
    · rw [if_neg h, hone, Nat.mul_one, decide_eq_true_eq]
  rw [hnat]
  exact_mod_cast Iff.rfl

theorem ratioLe_iff (hden : 0 < den) (digits : Nat) (e : Int) :
    ratioLe num den digits e = true ↔ (num : ℚ) / den ≤ digits * 10 ^ e := by
  have hpos : (0 : ℚ) < den := by exact_mod_cast hden
  have hten : (0 : ℚ) < tenTo (-e).toNat := by exact_mod_cast tenTo_pos _
  rw [zpow_eq, ← mul_div_assoc, div_le_div_iff₀ hpos hten]
  have hnat : ratioLe num den digits e = true
      ↔ num * tenTo (-e).toNat ≤ digits * tenTo e.toNat * den := by
    rw [ratioLe]
    rcases toNat_split e with ⟨h, hone⟩ | ⟨h, hone⟩
    · rw [if_pos h, hone, Nat.mul_one, decide_eq_true_eq]
    · rw [if_neg h, hone, Nat.mul_one, decide_eq_true_eq]
  rw [hnat]
  exact_mod_cast Iff.rfl

theorem wholePart_eq (num den : Nat) (e : Int) :
    wholePart num den e = num * tenTo (-e).toNat / (den * tenTo e.toNat) := by
  rw [wholePart]
  rcases toNat_split e with ⟨h, hone⟩ | ⟨h, hone⟩
  · rw [if_pos h, hone, Nat.mul_one]
  · rw [if_neg h, hone, Nat.mul_one]

/-- The whole part of a ratio is the greatest number on the grid that is not beyond the ratio. -/
theorem le_wholePart_iff (hden : 0 < den) (n : Nat) (e : Int) :
    n ≤ wholePart num den e ↔ (n : ℚ) * 10 ^ e ≤ num / den := by
  have hpos : (0 : ℚ) < den := by exact_mod_cast hden
  have hten : (0 : ℚ) < tenTo (-e).toNat := by exact_mod_cast tenTo_pos _
  rw [zpow_eq, ← mul_div_assoc, div_le_div_iff₀ hten hpos, wholePart_eq,
    Nat.le_div_iff_mul_le (Nat.mul_pos hden (tenTo_pos _)), Nat.mul_comm den, ← Nat.mul_assoc]
  exact_mod_cast Iff.rfl

/-! ## The first digit -/

/-- A ratio is between powers of two, by the logarithms of its parts. -/
theorem log2_spec (hnum : num ≠ 0) (hden : den ≠ 0) :
    (2 : ℚ) ^ ((num.log2 : Int) - den.log2 - 1) ≤ num / den
      ∧ (num : ℚ) / den < 2 ^ ((num.log2 : Int) - den.log2 - 1 + 2) := by
  have hpos : (0 : ℚ) < den := by exact_mod_cast Nat.pos_of_ne_zero hden
  have hnumlow : (2 : ℚ) ^ num.log2 ≤ num := by exact_mod_cast Nat.log2_self_le hnum
  have hnumhigh : (num : ℚ) < 2 ^ (num.log2 + 1) := by
    exact_mod_cast Nat.lt_log2_self
  have hdenlow : (2 : ℚ) ^ den.log2 ≤ den := by exact_mod_cast Nat.log2_self_le hden
  have hdenhigh : (den : ℚ) < 2 ^ (den.log2 + 1) := by
    exact_mod_cast Nat.lt_log2_self
  have hlow : (2 : ℚ) ^ ((num.log2 : Int) - den.log2 - 1) = 2 ^ num.log2 / 2 ^ (den.log2 + 1) := by
    rw [← zpow_natCast, ← zpow_natCast, ← zpow_sub₀ (by norm_num)]
    congr 1
    push_cast
    ring
  have hhigh : (2 : ℚ) ^ ((num.log2 : Int) - den.log2 - 1 + 2)
      = 2 ^ (num.log2 + 1) / 2 ^ den.log2 := by
    rw [← zpow_natCast, ← zpow_natCast, ← zpow_sub₀ (by norm_num)]
    congr 1
    push_cast
    ring
  rw [hlow, hhigh]
  constructor
  · gcongr
  · gcongr

/-- Powers of two bases compare as their exponents do, in the ratio of two powers of the bases. -/
theorem zpow_le_of_pow_le {a b : ℚ} (ha : 1 < a) (hb : 1 < b) {p q : ℕ} (hp : p ≠ 0)
    (hpow : a ^ p ≤ b ^ q) {m n : ℤ} (hm : 0 ≤ m) (h : q * m ≤ p * n) : a ^ m ≤ b ^ n := by
  have hapos : 0 < a := by linarith
  have hbpos : 0 < b := by linarith
  refine le_of_pow_le_pow_left₀ hp (zpow_pos hbpos n).le ?_
  calc (a ^ m) ^ p = (a ^ p) ^ m := by rw [← zpow_natCast, ← zpow_natCast, zpow_comm]
    _ ≤ (b ^ q) ^ m := zpow_le_zpow_left₀ hm (by positivity) hpow
    _ = b ^ (q * m) := by rw [zpow_mul, zpow_natCast]
    _ ≤ b ^ (p * n) := zpow_le_zpow_right₀ hb.le h
    _ = (b ^ n) ^ p := by rw [mul_comm, zpow_mul, zpow_natCast]

theorem two_zpow_le {m n : ℤ} (hm : 0 ≤ m) (h : 28 * m ≤ 93 * n) : (2 : ℚ) ^ m ≤ 10 ^ n :=
  zpow_le_of_pow_le (p := 93) (q := 28) (by norm_num) (by norm_num) (by norm_num) (by norm_num) hm h

theorem ten_zpow_le {m n : ℤ} (hn : 0 ≤ n) (h : 196 * m ≤ 59 * n) : (10 : ℚ) ^ m ≤ 2 ^ n :=
  (zpow_le_zpow_right₀ (by norm_num) (le_max_left m 0)).trans
    (zpow_le_of_pow_le (p := 59) (q := 196) (by norm_num) (by norm_num) (by norm_num) (by norm_num)
      (le_max_right m 0) (by omega))

/-- The logarithm to the base of ten that is guessed from a logarithm to the base of two. -/
def guess (k : Int) : Int := k * 30103 / 100000 - 1

/-- The guess is low, and by less than five. -/
theorem guess_spec {k : Int} (hlow : -1075 ≤ k) (hhigh : k ≤ 1022) :
    (10 : ℚ) ^ guess k ≤ 2 ^ k ∧ (2 : ℚ) ^ (k + 2) < 10 ^ (guess k + 5) := by
  have hguess : guess k = k * 30103 / 100000 - 1 := rfl
  -- Below one, what is said of the powers is said of their inverses.
  have hinv : ∀ {a b : ℚ} {m n : ℤ}, 0 < a → 0 < b → a ^ (-m) ≤ b ^ (-n) → b ^ n ≤ a ^ m := by
    intro a b m n ha hb h
    rwa [zpow_neg, zpow_neg, inv_le_inv₀ (zpow_pos ha m) (zpow_pos hb n)] at h
  constructor
  · by_cases hk : 0 ≤ k
    · exact ten_zpow_le hk (by omega)
    · exact hinv (by norm_num) (by norm_num) (two_zpow_le (by omega) (by omega))
  · refine lt_of_le_of_lt (b := (10 : ℚ) ^ (guess k + 4)) ?_
      (zpow_lt_zpow_right₀ (by norm_num) (by omega))
    by_cases hk : 0 ≤ k + 2
    · exact two_zpow_le hk (by omega)
    · exact hinv (by norm_num) (by norm_num) (ten_zpow_le (by omega) (by omega))

theorem climb_spec (hden : 0 < den) (fuel : Nat) (e : Int) (hle : (10 : ℚ) ^ e ≤ num / den)
    (hlt : (num : ℚ) / den < 10 ^ (e + fuel + 1)) :
    (10 : ℚ) ^ decimalExponent.climb num den fuel e ≤ num / den
      ∧ (num : ℚ) / den < 10 ^ (decimalExponent.climb num den fuel e + 1) := by
  induction fuel generalizing e with
  | zero =>
    rw [decimalExponent.climb]
    exact ⟨hle, by simpa using hlt⟩
  | succ fuel ih =>
    rw [decimalExponent.climb]
    split
    · next hnext =>
      rw [leRatio_iff hden, Nat.cast_one, one_mul] at hnext
      refine ih (e + 1) hnext ?_
      have hexponent : e + 1 + (fuel : Int) + 1 = e + ((fuel + 1 : Nat) : Int) + 1 := by
        push_cast
        ring
      rwa [hexponent]
    · next hnext =>
      rw [leRatio_iff hden, Nat.cast_one, one_mul] at hnext
      exact ⟨hle, not_le.1 hnext⟩

/-- **The decimal exponent of a ratio is that of its first digit.** -/
theorem decimalExponent_spec (hnum : num ≠ 0) (hden : den ≠ 0)
    (hlow : -1075 ≤ (num.log2 : Int) - den.log2 - 1)
    (hhigh : (num.log2 : Int) - den.log2 - 1 ≤ 1022) :
    (10 : ℚ) ^ decimalExponent num den ≤ num / den
      ∧ (num : ℚ) / den < 10 ^ (decimalExponent num den + 1) := by
  obtain ⟨hbelow, habove⟩ := log2_spec hnum hden
  obtain ⟨hguess, hguess'⟩ := guess_spec hlow hhigh
  have hfive : ∀ e : Int, e + 5 = e + (4 : Nat) + 1 := fun e => by
    push_cast
    ring
  rw [hfive] at hguess'
  exact climb_spec (Nat.pos_of_ne_zero hden) 4 _ (hguess.trans hbelow) (habove.trans hguess')

/-! ## The search -/

/-- The ratio of a number. -/
def value (x : Binary64) : ℚ := x.ratio.1 / x.ratio.2

/-- The upper end of the interval of a number. -/
def upper (x : Binary64) : ℚ := x.interval.2.2 / (4 * x.ratio.2 : Nat)

/-- The whole part of a number on the grid of a power of ten. -/
def floorAt (x : Binary64) (e : Int) : Nat := wholePart x.ratio.1 x.ratio.2 e

theorem le_floorAt_iff (x : Binary64) (n : Nat) (e : Int) :
    n ≤ x.floorAt e ↔ (n : ℚ) * 10 ^ e ≤ x.value := le_wholePart_iff x.ratio_pos n e

theorem floorAt_eq (x : Binary64) (e : Int) :
    wholePart x.interval.2.1 (4 * x.ratio.2) e = x.floorAt e := by
  have hmid : x.interval.2.1 = 4 * x.ratio.1 := rfl
  rw [floorAt, wholePart_eq, wholePart_eq, hmid, Nat.mul_assoc, Nat.mul_assoc,
    Nat.mul_div_mul_left _ _ (by decide)]

theorem value_le_upper (x : Binary64) : x.value ≤ x.upper := by
  have hpos : (0 : ℚ) < x.ratio.2 := by exact_mod_cast x.ratio_pos
  have hhigh : x.interval.2.2 = 4 * x.ratio.1 + 2 * (x.ratio.1 / x.mantissa) := rfl
  have hunit : (0 : ℚ) ≤ ((x.ratio.1 / x.mantissa : Nat) : ℚ) := Nat.cast_nonneg _
  rw [value, upper, hhigh]
  push_cast
  rw [div_le_div_iff₀ hpos (by positivity)]
  nlinarith

/-- Of the two neighbours that may be found, the upper one is only found if it is in reach. -/
theorem picked {downIn upIn nearerUp : Bool} {down count : Nat} {e : Int} {d : Decimal}
    (h : (if downIn && upIn then some ⟨if nearerUp then down + 1 else down, count, e⟩
      else if downIn then some ⟨down, count, e⟩
      else if upIn then some ⟨down + 1, count, e⟩
      else none) = some d) :
    d.exponent = e ∧ (d.digits = down ∨ d.digits = down + 1 ∧ upIn = true) := by
  cases downIn <;> cases upIn <;> cases nearerUp <;> simp_all <;> simp [← h]

/-- Whether digits are in reach of a number from above. -/
def inReach (x : Binary64) (digits : Nat) (e : Int) : Bool :=
  if x.mantissa % 2 == 0 then leRatio x.interval.2.2 (4 * x.ratio.2) digits e
  else !ratioLe x.interval.2.2 (4 * x.ratio.2) digits e

theorem le_upper_of_inReach {x : Binary64} {digits : Nat} {e : Int}
    (h : x.inReach digits e = true) : (digits : ℚ) * 10 ^ e ≤ x.upper := by
  have hden : 0 < 4 * x.ratio.2 := Nat.mul_pos (by decide) x.ratio_pos
  rw [inReach] at h
  split at h
  · exact (leRatio_iff hden _ _).1 h
  · rw [Bool.not_eq_true', ← Bool.not_eq_true, ratioLe_iff hden] at h
    exact (not_le.1 h).le

/-- What is found on a grid is a neighbour of the number that is not beyond the upper end. -/
theorem onGrid_spec {x : Binary64} {top : Int} {count : Nat} {d : Decimal}
    (h : onGrid x top count = some d) : d.exponent = top - count + 1
      ∧ (d.digits = x.floorAt d.exponent ∨ d.digits = x.floorAt d.exponent + 1)
      ∧ (d.digits : ℚ) * 10 ^ d.exponent ≤ x.upper := by
  have hfound : ∀ down e, down = wholePart x.interval.2.1 (4 * x.ratio.2) e →
      e = top - count + 1 →
      d.exponent = e ∧ (d.digits = down ∨ d.digits = down + 1 ∧ x.inReach (down + 1) e = true) := by
    rintro _ _ rfl rfl
    exact picked h
  obtain ⟨hexponent, hdigits⟩ := hfound _ _ (x.floorAt_eq _).symm rfl
  rw [hexponent]
  rcases hdigits with hdown | ⟨hup, hreach⟩
  · refine ⟨rfl, .inl hdown, ?_⟩
    rw [hdown]
    exact ((x.le_floorAt_iff _ _).1 (Nat.le_refl _)).trans x.value_le_upper
  · refine ⟨rfl, .inr hup, ?_⟩
    rw [hup]
    exact le_upper_of_inReach hreach

/-- What the digits of a number are: a few, not zero, and not beyond the upper end. -/
structure Spells (x : Binary64) (d : Decimal) : Prop where
  pos : 1 ≤ d.digits
  few : d.digits ≤ tenTo 18
  below : (d.digits : ℚ) * 10 ^ d.exponent ≤ x.upper

variable {x : Binary64} {top : Int}

theorem floorAt_bounds (hle : (10 : ℚ) ^ top ≤ x.value) (hlt : x.value < 10 ^ (top + 1))
    {count : Nat} (hcount : 1 ≤ count) :
    1 ≤ x.floorAt (top - count + 1) ∧ x.floorAt (top - count + 1) < tenTo count := by
  constructor
  · rw [le_floorAt_iff, Nat.cast_one, one_mul]
    exact (zpow_le_zpow_right₀ (by norm_num) (by omega)).trans hle
  · rw [← Nat.not_le, le_floorAt_iff, not_le, cast_tenTo, ← zpow_natCast,
      ← zpow_add₀ (by norm_num)]
    have hexponent : (count : Int) + (top - count + 1) = top + 1 := by ring
    rwa [hexponent]

theorem spells_searchFrom (hle : (10 : ℚ) ^ top ≤ x.value) (hlt : x.value < 10 ^ (top + 1))
    (fuel count : Nat) (hcount : 1 ≤ count) (hfuel : fuel + count = 18) :
    x.Spells (searchFrom x top fuel count) := by
  induction fuel generalizing count with
  | zero =>
    obtain ⟨hpos, hfew⟩ := floorAt_bounds hle hlt hcount
    obtain rfl : count = 18 := by omega
    exact ⟨hpos, hfew.le,
      ((x.le_floorAt_iff _ _).1 (Nat.le_refl _)).trans x.value_le_upper⟩
  | succ fuel ih =>
    rw [searchFrom]
    split
    · next d hd =>
      obtain ⟨hexponent, hdigits, hbelow⟩ := onGrid_spec hd
      obtain ⟨hpos, hfew⟩ := floorAt_bounds hle hlt hcount
      rw [hexponent] at hdigits
      have hten : tenTo count ≤ tenTo 18 := tenTo_le (by omega)
      exact ⟨by omega, by omega, hbelow⟩
    · exact ih (count + 1) (by omega) (by omega)

/-! ## The greatest number -/

theorem mantissa_ne_zero (h : x.magnitude ≠ 0) : x.mantissa ≠ 0 := by
  have hadd := x.mantissa_add
  have hscale := x.scale_eq_zero_or
  have hweight : 0 < exponentWeight := by decide
  intro hzero
  rcases hscale with hscale | hscale
  · rw [hzero, hscale] at hadd
    omega
  · omega

theorem scale_le (h : x.isFinite = true) : x.scale ≤ 2045 := by
  have hmagnitude : x.magnitude < 2047 * exponentWeight := of_decide_eq_true h
  have hdiv := (Nat.div_lt_iff_lt_mul (by decide)).2 hmagnitude
  rw [scale]
  omega

/-- The logarithms of a finite number are in the range of its exponents. -/
theorem log2_bounds (h : x.isFinite = true) (hzero : x.magnitude ≠ 0) :
    -1075 ≤ (x.ratio.1.log2 : Int) - x.ratio.2.log2 - 1
      ∧ (x.ratio.1.log2 : Int) - x.ratio.2.log2 - 1 ≤ 1022 := by
  have hscale := scale_le h
  have hmantissa : x.mantissa.log2 < 53 := by
    rw [Nat.log2_lt (mantissa_ne_zero hzero)]
    exact x.mantissa_lt
  rw [ratio]
  split
  · next hlarge =>
    have hlog : (x.mantissa <<< (x.scale - 1074)).log2 < 1024 := by
      rw [Nat.shiftLeft_eq, Nat.log2_lt (Nat.mul_ne_zero (mantissa_ne_zero hzero) (by positivity))]
      calc x.mantissa * 2 ^ (x.scale - 1074) < 2 ^ 53 * 2 ^ (x.scale - 1074) :=
            Nat.mul_lt_mul_of_pos_right x.mantissa_lt (by positivity)
        _ = 2 ^ (53 + (x.scale - 1074)) := (Nat.pow_add ..).symm
        _ ≤ 2 ^ 1024 := Nat.pow_le_pow_right (by decide) (by omega)
    have hone : (1 : Nat).log2 = 0 := by decide
    dsimp only
    rw [hone]
    omega
  · next hsmall =>
    have hlog : (1 <<< (1074 - x.scale)).log2 = 1074 - x.scale := by
      rw [Nat.one_shiftLeft, Nat.log2_two_pow]
    dsimp only
    rw [hlog]
    omega

/-- The unit of a number is its part of the mantissa. -/
theorem unit_mul (hzero : x.magnitude ≠ 0) :
    x.ratio.1 / x.mantissa * perOne = 2 ^ x.scale * x.ratio.2 := by
  have hpos : 0 < x.mantissa := Nat.pos_of_ne_zero (mantissa_ne_zero hzero)
  rw [ratio]
  split
  · next h =>
    rw [Nat.shiftLeft_eq, Nat.mul_div_cancel_left _ hpos, two_pow_eq h]
    ring
  · next h =>
    rw [Nat.shiftLeft_eq, Nat.div_self hpos, perOne_eq h]
    ring

theorem ratio_ne_zero (hzero : x.magnitude ≠ 0) : x.ratio.1 ≠ 0 := by
  intro hratio
  have hmul := x.ratio_mul
  have hpos : 0 < x.mantissa * 2 ^ x.scale * x.ratio.2 :=
    Nat.mul_pos (Nat.mul_pos (Nat.pos_of_ne_zero (mantissa_ne_zero hzero)) (Nat.two_pow_pos _))
      x.ratio_pos
  rw [hratio, Nat.zero_mul] at hmul
  omega

/-- Four times the upper end, in least numbers: the last scale has one mantissa less. -/
theorem unit_bound (h : x.magnitude + 1 < infinity) :
    (4 * x.mantissa + 2) * 2 ^ x.scale ≤ 4 * greatest * perOne := by
  have hscale : x.scale ≤ 2045 := scale_le (decide_eq_true (show x.magnitude < infinity by omega))
  have hweight : exponentWeight = 4503599627370496 := by decide
  have hlt := x.mantissa_lt
  by_cases hlast : x.scale = 2045
  · have hadd := x.mantissa_add
    have hinfinity : infinity = 2047 * exponentWeight := rfl
    have hbound : (8 * exponentWeight - 6) * 2 ^ 2045 ≤ 4 * greatest * perOne := by decide +kernel
    rw [hlast] at hadd ⊢
    have hmantissa : 4 * x.mantissa + 2 ≤ 8 * exponentWeight - 6 := by omega
    refine le_trans ?_ hbound
    exact Nat.mul_le_mul_right _ hmantissa
  · have hbound : (8 * exponentWeight - 2) * 2 ^ 2044 ≤ 4 * greatest * perOne := by decide +kernel
    have hmantissa : 4 * x.mantissa + 2 ≤ 8 * exponentWeight - 2 := by omega
    have hnext : x.scale ≤ 2044 := by omega
    refine le_trans ?_ hbound
    exact Nat.mul_le_mul hmantissa (pow_le_pow_right₀ one_le_two hnext)

/-- Below the greatest number, the interval of a number ends below the greatest digits. -/
theorem upper_le (hzero : x.magnitude ≠ 0) (h : x.magnitude + 1 < infinity) :
    x.upper ≤ greatest := by
  have hpos : (0 : ℚ) < (4 * x.ratio.2 : Nat) := by
    exact_mod_cast Nat.mul_pos (by decide) x.ratio_pos
  have hhigh : x.interval.2.2 = 4 * x.ratio.1 + 2 * (x.ratio.1 / x.mantissa) := rfl
  have hbound := unit_bound h
  rw [upper, div_le_iff₀ hpos]
  have hunits : x.interval.2.2 * perOne ≤ greatest * (4 * x.ratio.2) * perOne := by
    calc x.interval.2.2 * perOne
        = 4 * (x.ratio.1 * perOne) + 2 * (x.ratio.1 / x.mantissa * perOne) := by
          rw [hhigh]
          ring
      _ = (4 * x.mantissa + 2) * 2 ^ x.scale * x.ratio.2 := by
          rw [ratio_mul, unit_mul hzero]
          ring
      _ ≤ 4 * greatest * perOne * x.ratio.2 := Nat.mul_le_mul_right _ hbound
      _ = greatest * (4 * x.ratio.2) * perOne := by ring
  exact_mod_cast Nat.le_of_mul_le_mul_right hunits perOne_pos

/-- The greatest number has seventeen digits. -/
theorem shortest_greatest (h : x.magnitude + 1 = infinity) :
    x.shortest = ⟨17976931348623157, 17, 292⟩ := by
  have hinfinity : infinity = 0x7FF0000000000000 := by decide
  have hbits : x.bits.toNat = 0x7FEFFFFFFFFFFFFF ∨ x.bits.toNat = 0xFFEFFFFFFFFFFFFF := by
    have hlt := x.bits.toNat_lt
    rw [magnitude, signWeight, hinfinity] at h
    omega
  obtain ⟨bits⟩ := x
  rcases hbits with hbits | hbits
  · obtain rfl : bits = 0x7FEFFFFFFFFFFFFF := UInt64.toNat_inj.1 hbits
    decide +kernel
  · obtain rfl : bits = 0xFFEFFFFFFFFFFFFF := UInt64.toNat_inj.1 hbits
    decide +kernel

/-- **The digits of a finite number are few, and spell no more than the greatest number.** -/
theorem shortest_spec (h : x.isFinite = true) (hzero : x.magnitude ≠ 0) :
    1 ≤ x.shortest.digits ∧ x.shortest.digits ≤ tenTo 18
      ∧ (x.shortest.digits : ℚ) * 10 ^ x.shortest.exponent ≤ greatest := by
  have hmagnitude : x.magnitude < infinity := of_decide_eq_true h
  by_cases hlast : x.magnitude + 1 = infinity
  · have hcast : ((greatest : Nat) : ℚ) = 17976931348623157 * 10 ^ 292 := by
      rw [greatest, Nat.cast_mul, cast_tenTo]
      norm_num
    rw [shortest_greatest hlast]
    refine ⟨by decide, by decide, ?_⟩
    rw [hcast]
    norm_num
  · obtain ⟨hlow, hhigh⟩ := log2_bounds h hzero
    obtain ⟨hle, hlt⟩ := decimalExponent_spec (ratio_ne_zero hzero) x.ratio_pos.ne' hlow hhigh
    obtain ⟨hpos, hfew, hbelow⟩ := spells_searchFrom hle hlt 17 1 (by decide) (by decide)
    exact ⟨hpos, hfew, hbelow.trans (upper_le hzero (by omega))⟩

end Binary64

end DataGrid
