import DataGrid.Number.Binary64
import Mathlib.Algebra.Order.Ring.Nat
import Mathlib.Tactic.Linarith
import Mathlib.Tactic.Ring

/-!
# Rounding — order is kept

A ratio is rounded at a scale: the least at which its quotient has 53 binary digits at most
(`Binary64.FitsScale`). The magnitude of the number is the rounded quotient and the scale side by
side, so a larger ratio has a larger magnitude, whatever the two scales are
(`Binary64.magnitudeAt_le`), and a larger magnitude stands for a larger number
(`Binary64.units_lt`). So what is smaller than a ratio that can be rounded can be rounded too, also
after it was rounded and multiplied (`Binary64.exists_multiply`).
-/

namespace DataGrid

namespace Binary64

theorem exponentWeight_eq : exponentWeight = 2 ^ 52 := by decide

/-! ## Powers of ten -/

theorem tenTo_eq (n : Nat) : tenTo n = 10 ^ n := rfl

theorem tenTo_pos (n : Nat) : 0 < tenTo n := Nat.pow_pos (by decide)

theorem tenTo_le {n m : Nat} (h : n ≤ m) : tenTo n ≤ tenTo m := Nat.pow_le_pow_right (by decide) h

/-- The greatest finite number in seventeen decimal digits. -/
def greatest : Nat := 17976931348623157 * tenTo 292

/-! ## Rounded quotients -/

/-- Whether a quotient is rounded up. -/
def RoundsUp (num den : Nat) : Prop :=
  den < 2 * (num % den) ∨ den = 2 * (num % den) ∧ num / den % 2 = 1

theorem divRound_up {num den : Nat} (h : RoundsUp num den) : divRound num den = num / den + 1 := by
  simp only [RoundsUp] at h
  simp only [divRound, Bool.or_eq_true, Bool.and_eq_true, decide_eq_true_eq, beq_iff_eq]
  exact if_pos h

theorem divRound_down {num den : Nat} (h : ¬ RoundsUp num den) : divRound num den = num / den := by
  simp only [RoundsUp] at h
  simp only [divRound, Bool.or_eq_true, Bool.and_eq_true, decide_eq_true_eq, beq_iff_eq]
  exact if_neg h

theorem le_divRound (num den : Nat) : num / den ≤ divRound num den := by
  by_cases h : RoundsUp num den
  · rw [divRound_up h]
    omega
  · rw [divRound_down h]

theorem divRound_le (num den : Nat) : divRound num den ≤ num / den + 1 := by
  by_cases h : RoundsUp num den
  · rw [divRound_up h]
  · rw [divRound_down h]
    omega

/-- A factor of both sides does not change a quotient. -/
theorem divRound_mul {c : Nat} (hc : 0 < c) (num den : Nat) :
    divRound (c * num) (c * den) = divRound num den := by
  have hup : RoundsUp (c * num) (c * den) ↔ RoundsUp num den := by
    rw [RoundsUp, RoundsUp, Nat.mul_mod_mul_left, Nat.mul_div_mul_left _ _ hc, Nat.mul_left_comm 2,
      Nat.mul_lt_mul_left hc, Nat.mul_right_inj (by omega)]
  by_cases h : RoundsUp num den
  · rw [divRound_up h, divRound_up (hup.2 h), Nat.mul_div_mul_left _ _ hc]
  · rw [divRound_down h, divRound_down (mt hup.1 h), Nat.mul_div_mul_left _ _ hc]

/-- **A larger ratio is not rounded to a smaller number.** -/
theorem divRound_mono {num den num' den' : Nat} (hden : 0 < den) (hden' : 0 < den')
    (h : num * den' ≤ num' * den) : divRound num den ≤ divRound num' den' := by
  have hquotient : num / den ≤ num' / den' := by
    rw [Nat.le_div_iff_mul_le hden']
    have hle := Nat.div_mul_le_self num den
    refine Nat.le_of_mul_le_mul_right (c := den) ?_ hden
    nlinarith
  rcases Nat.lt_or_eq_of_le hquotient with hlt | heq
  · have hup := divRound_le num den
    have hdown := le_divRound num' den'
    omega
  · by_cases hup : RoundsUp num den
    · -- Both have the same whole part, so what is left of the second one is no smaller.
      have hleft : num % den * den' ≤ num' % den' * den := by
        have hnum := Nat.div_add_mod num den
        have hnum' := Nat.div_add_mod num' den'
        rw [← heq] at hnum'
        nlinarith
      have hup' : RoundsUp num' den' := by
        rcases hup with hmore | ⟨htie, hodd⟩
        · refine .inl (Nat.lt_of_mul_lt_mul_left (a := den) ?_)
          nlinarith
        · have hle : den' ≤ 2 * (num' % den') := by
            refine Nat.le_of_mul_le_mul_left (c := den) ?_ hden
            nlinarith
          rcases Nat.lt_or_eq_of_le hle with hmore | heven
          · exact .inl hmore
          · exact .inr ⟨heven, by rw [← heq, hodd]⟩
      rw [divRound_up hup, divRound_up hup']
      omega
    · rw [divRound_down hup]
      exact Nat.le_trans hquotient (le_divRound num' den')

/-! ## Scales -/

/-- How many of the least numbers make one. -/
def perOne : Nat := 2 ^ 1074

theorem perOne_pos : 0 < perOne := by
  unfold perOne
  positivity

theorem two_pow_eq {scale : Nat} (h : 1074 ≤ scale) :
    2 ^ scale = perOne * 2 ^ (scale - 1074) := by
  rw [perOne, ← Nat.pow_add, Nat.add_sub_cancel' h]

theorem perOne_eq {scale : Nat} (h : ¬ 1074 ≤ scale) :
    perOne = 2 ^ scale * 2 ^ (1074 - scale) := by
  rw [perOne, ← Nat.pow_add, Nat.add_sub_cancel' (Nat.le_of_not_le h)]

/-- Whether a ratio is rounded at a scale: its quotient there has 53 binary digits at most, and 53
unless there is no lower scale. -/
structure FitsScale (num den scale : Nat) : Prop where
  below : num * perOne < 2 * exponentWeight * (den * 2 ^ scale)
  above : scale = 0 ∨ exponentWeight * (den * 2 ^ scale) ≤ num * perOne

/-- The magnitude of a ratio that is rounded at a scale. -/
def magnitudeAt (num den scale : Nat) : Nat :=
  divRound (num * perOne) (den * 2 ^ scale) + scale * exponentWeight

/-- **Order is kept by rounding**, whatever the scales are. -/
theorem magnitudeAt_le {num den scale num' den' scale' : Nat} (hden : 0 < den) (hden' : 0 < den')
    (h : FitsScale num den scale) (h' : FitsScale num' den' scale')
    (hle : num * den' ≤ num' * den) :
    magnitudeAt num den scale ≤ magnitudeAt num' den' scale' := by
  have hpos : 0 < den * 2 ^ scale := Nat.mul_pos hden (Nat.two_pow_pos _)
  have hpos' : 0 < den' * 2 ^ scale' := Nat.mul_pos hden' (Nat.two_pow_pos _)
  have hunits : num * perOne * den' ≤ num' * perOne * den := by nlinarith
  rcases Nat.lt_trichotomy scale scale' with hlt | rfl | hgt
  · -- The larger scale starts where the smaller one ends.
    have hup : divRound (num * perOne) (den * 2 ^ scale) ≤ 2 * exponentWeight := by
      have hquotient := (Nat.div_lt_iff_lt_mul hpos).2 h.below
      have hround := divRound_le (num * perOne) (den * 2 ^ scale)
      omega
    have hdown : exponentWeight ≤ divRound (num' * perOne) (den' * 2 ^ scale') := by
      have habove := h'.above.resolve_left (by omega)
      exact Nat.le_trans ((Nat.le_div_iff_mul_le hpos').2 habove) (le_divRound _ _)
    have hscale : (scale + 1) * exponentWeight ≤ scale' * exponentWeight :=
      Nat.mul_le_mul_right _ hlt
    rw [magnitudeAt, magnitudeAt]
    rw [Nat.add_mul, Nat.one_mul] at hscale
    omega
  · refine Nat.add_le_add_right (divRound_mono hpos hpos' ?_) _
    rw [← Nat.mul_assoc, ← Nat.mul_assoc]
    exact Nat.mul_le_mul_right _ hunits
  · -- Below the larger scale no ratio is as large as one that fits it.
    exfalso
    have habove := h.above.resolve_left (by omega)
    have hpow : 2 * 2 ^ scale' ≤ 2 ^ scale := by
      rw [← Nat.pow_succ']
      exact Nat.pow_le_pow_right (by decide) hgt
    have hfar : 2 * exponentWeight * (den' * 2 ^ scale') * den ≤ num * perOne * den' := by
      calc 2 * exponentWeight * (den' * 2 ^ scale') * den
          = exponentWeight * den * den' * (2 * 2 ^ scale') := by ring
        _ ≤ exponentWeight * den * den' * 2 ^ scale := Nat.mul_le_mul_left _ hpow
        _ = exponentWeight * (den * 2 ^ scale) * den' := by ring
        _ ≤ num * perOne * den' := Nat.mul_le_mul_right _ habove
    have hbelow := Nat.mul_lt_mul_of_pos_right h'.below hden
    omega

/-- The quotient of a ratio at a scale. -/
def quotientAt (num den scale : Nat) : Nat × Nat :=
  if 1074 ≤ scale then (num, den <<< (scale - 1074)) else (num <<< (1074 - scale), den)

/-- A quotient at a scale counts the least numbers of the scale. -/
theorem quotientAt_mul (num den scale : Nat) : ∃ c, 0 < c
    ∧ c * (quotientAt num den scale).1 = num * perOne
    ∧ c * (quotientAt num den scale).2 = den * 2 ^ scale := by
  rw [quotientAt]
  split
  · next h =>
    refine ⟨perOne, perOne_pos, Nat.mul_comm _ _, ?_⟩
    rw [Nat.shiftLeft_eq, two_pow_eq h]
    ring
  · next h =>
    refine ⟨2 ^ scale, Nat.two_pow_pos _, ?_, Nat.mul_comm _ _⟩
    rw [Nat.shiftLeft_eq, perOne_eq h]
    ring

/-- At the scale that the logarithms of a ratio give, its quotient has 53 or 54 binary digits, or
the scale is the least. -/
theorem wide_scale {num den : Nat} (hnum : num ≠ 0) (hden : den ≠ 0) {wide : Nat}
    (hwide : num.log2 + 1074 - den.log2 - 53 = wide) :
    num * perOne < 4 * exponentWeight * (den * 2 ^ wide)
      ∧ (wide = 0 ∨ exponentWeight * (den * 2 ^ wide) ≤ num * perOne) := by
  have hnumlow := Nat.log2_self_le hnum
  have hnumhigh : num < 2 ^ (num.log2 + 1) := Nat.lt_log2_self
  have hdenlow := Nat.log2_self_le hden
  have hdenhigh : den < 2 ^ (den.log2 + 1) := Nat.lt_log2_self
  constructor
  · calc num * perOne < 2 ^ (num.log2 + 1) * perOne :=
          Nat.mul_lt_mul_of_pos_right hnumhigh perOne_pos
      _ = 2 ^ (num.log2 + 1 + 1074) := by rw [perOne, ← Nat.pow_add]
      _ ≤ 2 ^ (54 + den.log2 + wide) := Nat.pow_le_pow_right (by decide) (by omega)
      _ = 4 * exponentWeight * (2 ^ den.log2 * 2 ^ wide) := by
        rw [Nat.pow_add, Nat.pow_add, Nat.mul_assoc]
        rfl
      _ ≤ 4 * exponentWeight * (den * 2 ^ wide) :=
        Nat.mul_le_mul_left _ (Nat.mul_le_mul_right _ hdenlow)
  · refine or_iff_not_imp_left.2 fun hzero => ?_
    calc exponentWeight * (den * 2 ^ wide)
        ≤ exponentWeight * (2 ^ (den.log2 + 1) * 2 ^ wide) :=
          Nat.mul_le_mul_left _ (Nat.mul_le_mul_right _ hdenhigh.le)
      _ = 2 ^ (52 + (den.log2 + 1) + wide) := by
        rw [Nat.pow_add 2 (52 + _), Nat.pow_add 2 52, exponentWeight_eq, Nat.mul_assoc]
      _ ≤ 2 ^ (num.log2 + 1074) := Nat.pow_le_pow_right (by decide) (by omega)
      _ = 2 ^ num.log2 * perOne := by rw [perOne, ← Nat.pow_add]
      _ ≤ num * perOne := Nat.mul_le_mul_right _ hnumlow

/-- **A ratio is rounded at a scale that it fits**; the number is infinite if its magnitude is. -/
theorem exists_fitsScale (num : Nat) {den : Nat} (hden : den ≠ 0) :
    ∃ scale, FitsScale num den scale ∧ ofRatio num den
      = if infinity ≤ magnitudeAt num den scale then none
        else some ⟨UInt64.ofNat (magnitudeAt num den scale)⟩ := by
  have hpos : 0 < den := Nat.pos_of_ne_zero hden
  by_cases hnum : num = 0
  · subst hnum
    refine ⟨0, ⟨?_, .inl rfl⟩, ?_⟩
    · rw [Nat.zero_mul]
      exact Nat.mul_pos (by decide) (Nat.mul_pos hpos (Nat.two_pow_pos 0))
    · have hzero : magnitudeAt 0 den 0 = 0 := by
        simp [magnitudeAt, divRound]
      rw [hzero, ofRatio, if_pos rfl]
      rfl
  · generalize hwide : num.log2 + 1074 - den.log2 - 53 = wide
    obtain ⟨hhigh, hlow⟩ := wide_scale hnum hden hwide
    have hquotient : ∀ scale, (quotientAt num den scale).1 / (quotientAt num den scale).2
        = num * perOne / (den * 2 ^ scale) := fun scale => by
      obtain ⟨c, hc, hn, hd⟩ := quotientAt_mul num den scale
      rw [← hn, ← hd, Nat.mul_div_mul_left _ _ hc]
    have hround : ∀ scale, divRound (quotientAt num den scale).1 (quotientAt num den scale).2
        + scale * exponentWeight = magnitudeAt num den scale := fun scale => by
      obtain ⟨c, hc, hn, hd⟩ := quotientAt_mul num den scale
      rw [magnitudeAt, ← hn, ← hd, divRound_mul hc]
    have hofRatio : ofRatio num den
        = let scale := if 2 * exponentWeight ≤ num * perOne / (den * 2 ^ wide) then wide + 1
            else wide
          if infinity ≤ magnitudeAt num den scale then none
          else some ⟨UInt64.ofNat (magnitudeAt num den scale)⟩ := by
      rw [ofRatio, if_neg hnum, hwide]
      simp only [← hround, ← hquotient]
      rfl
    have hposwide : 0 < den * 2 ^ wide := Nat.mul_pos hpos (Nat.two_pow_pos wide)
    have hnext : den * 2 ^ (wide + 1) = 2 * (den * 2 ^ wide) := by
      rw [Nat.pow_succ]
      ring
    refine ⟨_, ?_, hofRatio⟩
    split
    · next hlarge =>
      have habove := (Nat.le_div_iff_mul_le hposwide).1 hlarge
      exact ⟨by rw [hnext]; linarith, .inr (by rw [hnext]; linarith)⟩
    · next hsmall =>
      exact ⟨(Nat.div_lt_iff_lt_mul hposwide).1 (Nat.not_le.1 hsmall), hlow⟩

/-! ## Numbers of a magnitude -/

/-- A magnitude below infinity is that of its number. -/
theorem magnitude_ofNat {n : Nat} (h : n < infinity) : magnitude ⟨UInt64.ofNat n⟩ = n := by
  have hinfinity : infinity = 9218868437227405312 := rfl
  have hsign : signWeight = 9223372036854775808 := rfl
  rw [magnitude, UInt64.toNat_ofNat', hsign]
  omega

/-- **What is smaller than a ratio that can be rounded can be rounded**, to no larger magnitude. -/
theorem exists_ofRatio {num den num' den' : Nat} {y : Binary64} (hden : den ≠ 0) (hden' : den' ≠ 0)
    (hle : num * den' ≤ num' * den) (h : ofRatio num' den' = some y) :
    ∃ x, ofRatio num den = some x ∧ x.magnitude ≤ y.magnitude := by
  obtain ⟨scale, hfits, heq⟩ := exists_fitsScale num hden
  obtain ⟨scale', hfits', heq'⟩ := exists_fitsScale num' hden'
  have hmono := magnitudeAt_le (Nat.pos_of_ne_zero hden) (Nat.pos_of_ne_zero hden') hfits hfits' hle
  rw [heq'] at h
  split at h
  · cases h
  · next hfinite =>
    obtain rfl := Option.some.inj h
    refine ⟨⟨UInt64.ofNat (magnitudeAt num den scale)⟩, by rw [heq, if_neg (by omega)], ?_⟩
    rw [magnitude_ofNat (by omega), magnitude_ofNat (by omega)]
    exact hmono

theorem mantissa_add (x : Binary64) : x.mantissa + x.scale * exponentWeight = x.magnitude := by
  have hmod := Nat.div_add_mod x.magnitude exponentWeight
  rw [mantissa, scale]
  split
  · next h => rw [Nat.div_eq_of_lt h, Nat.zero_sub, Nat.zero_mul, Nat.add_zero]
  · next h =>
    have hone : 1 ≤ x.magnitude / exponentWeight :=
      (Nat.one_le_div_iff (by decide)).2 (Nat.le_of_not_lt h)
    obtain ⟨k, hk⟩ := Nat.exists_eq_add_of_le' hone
    rw [hk] at hmod ⊢
    rw [Nat.add_sub_cancel]
    linarith

theorem mantissa_lt (x : Binary64) : x.mantissa < 2 * exponentWeight := by
  have hmod := Nat.mod_lt x.magnitude (y := exponentWeight) (by decide)
  rw [mantissa]
  split <;> omega

theorem scale_eq_zero_or (x : Binary64) : x.scale = 0 ∨ exponentWeight ≤ x.mantissa := by
  rw [scale, mantissa]
  split
  · next h => exact .inl (by rw [Nat.div_eq_of_lt h])
  · exact .inr (Nat.le_add_left ..)

theorem ratio_pos (x : Binary64) : 0 < x.ratio.2 := by
  rw [ratio]
  split
  · exact Nat.one_pos
  · rw [Nat.shiftLeft_eq, Nat.one_mul]
    exact Nat.two_pow_pos _

/-- The ratio of a number counts the least numbers. -/
theorem ratio_mul (x : Binary64) :
    x.ratio.1 * perOne = x.mantissa * 2 ^ x.scale * x.ratio.2 := by
  rw [ratio]
  split
  · next h =>
    rw [Nat.shiftLeft_eq, two_pow_eq h]
    ring
  · next h =>
    rw [Nat.shiftLeft_eq, perOne_eq h]
    ring

/-- How many of the least numbers make a number. -/
def units (x : Binary64) : Nat := x.mantissa * 2 ^ x.scale

theorem units_congr {x y : Binary64} (h : x.magnitude = y.magnitude) : x.units = y.units := by
  simp only [units, mantissa, scale, h]

/-- **A larger magnitude stands for a larger number.** -/
theorem units_lt {x y : Binary64} (h : x.magnitude < y.magnitude) : x.units < y.units := by
  have hx := mantissa_add x
  have hy := mantissa_add y
  have hlt := mantissa_lt x
  have hlt' := mantissa_lt y
  rw [units, units]
  rcases Nat.lt_trichotomy x.scale y.scale with hscale | hscale | hscale
  · have hy' := (scale_eq_zero_or y).resolve_left (by omega)
    calc x.mantissa * 2 ^ x.scale < 2 * exponentWeight * 2 ^ x.scale :=
          Nat.mul_lt_mul_of_pos_right hlt (Nat.two_pow_pos _)
      _ = exponentWeight * 2 ^ (x.scale + 1) := by
        rw [Nat.pow_succ]
        ring
      _ ≤ y.mantissa * 2 ^ y.scale :=
        Nat.mul_le_mul hy' (Nat.pow_le_pow_right (by decide) hscale)
  · rw [hscale] at hx ⊢
    exact Nat.mul_lt_mul_of_pos_right (by omega) (Nat.two_pow_pos _)
  · have hx' := (scale_eq_zero_or x).resolve_left (by omega)
    have hscales : (y.scale + 1) * exponentWeight ≤ x.scale * exponentWeight :=
      Nat.mul_le_mul_right _ hscale
    rw [Nat.add_mul, Nat.one_mul] at hscales
    omega

theorem ratio_le {x y : Binary64} (h : x.magnitude ≤ y.magnitude) :
    x.ratio.1 * y.ratio.2 ≤ y.ratio.1 * x.ratio.2 := by
  have hunits : x.units ≤ y.units := by
    rcases Nat.lt_or_eq_of_le h with hlt | heq
    · exact (units_lt hlt).le
    · exact (units_congr heq).le
  rw [units, units] at hunits
  refine Nat.le_of_mul_le_mul_right (c := perOne) ?_ perOne_pos
  calc x.ratio.1 * y.ratio.2 * perOne = x.ratio.1 * perOne * y.ratio.2 := by ring
    _ = x.mantissa * 2 ^ x.scale * (x.ratio.2 * y.ratio.2) := by
      rw [ratio_mul]
      ring
    _ ≤ y.mantissa * 2 ^ y.scale * (x.ratio.2 * y.ratio.2) := Nat.mul_le_mul_right _ hunits
    _ = y.ratio.1 * perOne * x.ratio.2 := by
      rw [ratio_mul y]
      ring
    _ = y.ratio.1 * x.ratio.2 * perOne := by ring

/-- **Factors that are smaller than two that can be multiplied can be multiplied.** -/
theorem exists_multiply {x y z w product : Binary64} (hx : x.magnitude ≤ y.magnitude)
    (hz : z.magnitude ≤ w.magnitude) (hproduct : y.multiply w = some product) :
    ∃ product', x.multiply z = some product' := by
  have hle : x.ratio.1 * z.ratio.1 * (y.ratio.2 * w.ratio.2)
      ≤ y.ratio.1 * w.ratio.1 * (x.ratio.2 * z.ratio.2) := by
    calc x.ratio.1 * z.ratio.1 * (y.ratio.2 * w.ratio.2)
        = x.ratio.1 * y.ratio.2 * (z.ratio.1 * w.ratio.2) := by ring
      _ ≤ y.ratio.1 * x.ratio.2 * (w.ratio.1 * z.ratio.2) :=
        Nat.mul_le_mul (ratio_le hx) (ratio_le hz)
      _ = y.ratio.1 * w.ratio.1 * (x.ratio.2 * z.ratio.2) := by ring
  obtain ⟨product', hproduct', -⟩ := exists_ofRatio (Nat.mul_pos (ratio_pos x) (ratio_pos z)).ne'
    (Nat.mul_pos (ratio_pos y) (ratio_pos w)).ne' hle hproduct
  exact ⟨product', hproduct'⟩

end Binary64

end DataGrid
