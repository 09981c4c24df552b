import DocShell.Number.Shortest
import Mathlib.Data.Nat.Log
import Mathlib.Tactic

set_option autoImplicit false

/-! # The digits of a number read back

A magnitude is the nearest one to a ratio, and depends on the ratio only, not on how it is
written as a fraction (`ofRatio_eq_of_cross`). The shortcuts for numbers far outside the range
give the magnitude that exact arithmetic gives (`Decimal.magnitude_eq_exactMagnitude`), so a
decimal number may have its exponent lowered and its coefficient raised at will
(`Decimal.magnitude_scale`). Since the full expansion of a magnitude reads back, the digits
that are chosen for it do so in every case (`Shortest.magnitude_decimal`).
-/

namespace DocShell

theorem pow2_pos (n : Nat) : 0 < pow2 n := Nat.pow_pos (by decide)

theorem pow10_pos (n : Nat) : 0 < pow10 n := Nat.pow_pos (by decide)

theorem pow2_zero : pow2 0 = 1 := rfl

theorem pow2_one : pow2 1 = 2 := rfl

theorem pow10_zero : pow10 0 = 1 := rfl

theorem pow2_add (m n : Nat) : pow2 (m + n) = pow2 m * pow2 n := Nat.pow_add 2 m n

theorem pow10_add (m n : Nat) : pow10 (m + n) = pow10 m * pow10 n := Nat.pow_add 10 m n

theorem pow10_eq (n : Nat) : pow10 n = pow2 n * pow5 n := Nat.mul_pow 2 5 n

theorem pow2_le_pow10 (n : Nat) : pow2 n ≤ pow10 n := Nat.pow_le_pow_left (by decide) n

theorem le_log2_of_pow2_le {n k : Nat} (h : pow2 n ≤ k) : n ≤ k.log2 :=
  (Nat.le_log2 (Nat.ne_of_gt (Nat.lt_of_lt_of_le (pow2_pos n) h))).mpr h

theorem log2_lt_of_lt_pow2 {n k : Nat} (hk : k ≠ 0) (h : k < pow2 n) : k.log2 < n :=
  (Nat.log2_lt hk).mpr h

theorem pow10_le_pow10 {m n : Nat} (h : m ≤ n) : pow10 m ≤ pow10 n :=
  Nat.pow_le_pow_right (by decide) h

namespace Binary64

/-! ## Rounding a ratio -/

theorem roundDiv_mul_right (num den : Nat) {k : Nat} (hk : 0 < k) :
    roundDiv (num * k) (den * k) = roundDiv num den := by
  have hquotient : num * k / (den * k) = num / den := Nat.mul_div_mul_right num den hk
  have htwice : 2 * (num * k % (den * k)) = 2 * (num % den) * k := by
    rw [Nat.mul_mod_mul_right, Nat.mul_assoc]
  unfold roundDiv
  simp only [hquotient, htwice, Nat.mul_lt_mul_right hk]

theorem roundDiv_of_mul (quotient : Nat) {den : Nat} (hden : 0 < den) :
    roundDiv (quotient * den) den = quotient := by
  simp [roundDiv, hden]

theorem roundDiv_of_lt {num den : Nat} (h : 2 * num < den) : roundDiv num den = 0 := by
  have hlt : num < den := by omega
  simp [roundDiv, Nat.div_eq_of_lt hlt, Nat.mod_eq_of_lt hlt, h]

theorem ofRatio_mul_right (num den : Nat) {k : Nat} (hk : 0 < k) :
    ofRatio (num * k) (den * k) = ofRatio num den := by
  have hsteps : num * k * pow2 1074 = num * pow2 1074 * k := Nat.mul_right_comm ..
  have hquotient : num * pow2 1074 * k / (den * k) = num * pow2 1074 / den :=
    Nat.mul_div_mul_right _ den hk
  have hshift : ∀ s, den * k * pow2 s = den * pow2 s * k := fun s => Nat.mul_right_comm ..
  unfold ofRatio
  simp only [hsteps, hquotient, hshift, roundDiv_mul_right _ _ hk]

/-- Fractions of one ratio have one magnitude. -/
theorem ofRatio_eq_of_cross {num₁ den₁ num₂ den₂ : Nat} (h₁ : 0 < den₁) (h₂ : 0 < den₂)
    (h : num₁ * den₂ = num₂ * den₁) : ofRatio num₁ den₁ = ofRatio num₂ den₂ :=
  calc ofRatio num₁ den₁
      = ofRatio (num₁ * den₂) (den₁ * den₂) := (ofRatio_mul_right num₁ den₁ h₂).symm
    _ = ofRatio (num₂ * den₁) (den₂ * den₁) := by rw [h, Nat.mul_comm den₁]
    _ = ofRatio num₂ den₂ := ofRatio_mul_right num₂ den₂ h₁

/-- A ratio below half a step is zero. -/
theorem ofRatio_of_small {num den : Nat} (h : 2 * (num * pow2 1074) < den) :
    ofRatio num den = 0 := by
  have hquotient : num * pow2 1074 / den = 0 := Nat.div_eq_of_lt (by omega)
  have hround : roundDiv (num * pow2 1074) (den * pow2 0) = 0 :=
    roundDiv_of_lt (by rw [pow2_zero, Nat.mul_one]; exact h)
  unfold ofRatio
  simp [hquotient, hround]

/-- A ratio of `2 ^ 1025` and more is infinite. -/
theorem ofRatio_of_large {num : Nat} (h : pow2 1025 ≤ num) : ofRatio num 1 = infinity := by
  have hsteps : pow2 2099 ≤ num * pow2 1074 := by
    rw [show 2099 = 1025 + 1074 from rfl, pow2_add]
    exact Nat.mul_le_mul_right _ h
  have hlog : 2099 ≤ (num * pow2 1074 / 1).log2 := by
    rw [Nat.div_one]
    exact le_log2_of_pow2_le hsteps
  have hshift : 2047 * binade ≤ ((num * pow2 1074 / 1).log2 - 52) * binade :=
    Nat.mul_le_mul_right binade (by omega)
  unfold ofRatio
  refine Nat.min_eq_right ?_
  exact Nat.le_trans hshift (Nat.le_add_right _ _)

/-! ## The ratio of a magnitude -/

/-- A ratio of a whole number of steps, with no bits below those that are kept. -/
theorem ofRatio_of_steps {m s : Nat} (h : (m * pow2 s).log2 - 52 = s) :
    ofRatio (m * pow2 s) (pow2 1074) = min (s * binade + m) infinity := by
  have hquotient : m * pow2 s * pow2 1074 / pow2 1074 = m * pow2 s :=
    Nat.mul_div_cancel _ (pow2_pos 1074)
  have hsteps : m * pow2 s * pow2 1074 = m * (pow2 1074 * pow2 s) := by
    rw [Nat.mul_assoc, Nat.mul_comm (pow2 s)]
  have hround : roundDiv (m * pow2 s * pow2 1074) (pow2 1074 * pow2 s) = m := by
    rw [hsteps]
    exact roundDiv_of_mul m (Nat.mul_pos (pow2_pos _) (pow2_pos _))
  unfold ofRatio
  simp only [hquotient, h, hround]

/-- A magnitude is the one nearest to its own ratio. -/
theorem ofRatio_ratio {m : Nat} (hm : m < infinity) :
    ofRatio (significand m * pow2 (shift m)) (pow2 1074) = m := by
  have hbinade : 0 < binade := pow2_pos 52
  have hdivide : binade * (m / binade) + m % binade = m := Nat.div_add_mod m binade
  by_cases hexponent : m / binade = 0
  -- A subnormal number has no bits to spare, so nothing is shifted out.
  · have hlt : m < pow2 52 := Nat.lt_of_div_eq_zero hbinade hexponent
    have hlog : (m * pow2 0).log2 - 52 = 0 := by
      rw [pow2_zero, Nat.mul_one]
      by_cases hzero : m = 0
      · simp [hzero]
      · have := log2_lt_of_lt_pow2 hzero hlt
        omega
    rw [significand, if_pos hexponent, shift, hexponent, ofRatio_of_steps hlog]
    omega
  · have hrem : m % binade < binade := Nat.mod_lt m hbinade
    -- The leading bit of a normal number is not written, and is its 53rd.
    have hlow : pow2 (52 + shift m) ≤ (m % binade + binade) * pow2 (shift m) := by
      rw [pow2_add]
      exact Nat.mul_le_mul_right _ (Nat.le_add_left _ _)
    have hhigh : (m % binade + binade) * pow2 (shift m) < pow2 (53 + shift m) := by
      rw [pow2_add]
      refine Nat.mul_lt_mul_of_pos_right ?_ (pow2_pos _)
      have : pow2 53 = 2 * binade := rfl
      omega
    have hne : (m % binade + binade) * pow2 (shift m) ≠ 0 :=
      Nat.ne_of_gt (Nat.lt_of_lt_of_le (pow2_pos _) hlow)
    have hlog : ((m % binade + binade) * pow2 (shift m)).log2 - 52 = shift m := by
      have := le_log2_of_pow2_le hlow
      have := log2_lt_of_lt_pow2 hne hhigh
      omega
    have hsum : shift m * binade + (m % binade + binade) = m := by
      have hone : 1 ≤ m / binade := Nat.one_le_iff_ne_zero.mpr hexponent
      have hsplit : shift m * binade + binade = binade * (m / binade) := by
        rw [shift, ← Nat.succ_mul, Nat.mul_comm binade]
        congr 1
        omega
      omega
    rw [significand, if_neg hexponent, ofRatio_of_steps hlog, hsum]
    omega

end Binary64

/-! ## Decimal numbers -/

namespace Decimal

theorem pow2_le_pow10_large : pow2 1025 ≤ pow10 311 := by decide +kernel

theorem pow2_le_pow10_small : pow2 1075 ≤ pow10 330 := by decide +kernel

theorem exactMagnitude_of_large {d : Decimal} (hne : d.coefficient ≠ 0)
    (h : 310 < d.exponent) : d.exactMagnitude = Binary64.infinity := by
  have hexponent : (-d.exponent).toNat = 0 := by omega
  have hpower : pow10 311 ≤ pow10 d.exponent.toNat := pow10_le_pow10 (by omega)
  have hnum : pow2 1025 ≤ d.coefficient * pow10 d.exponent.toNat :=
    calc pow2 1025 ≤ pow10 d.exponent.toNat := Nat.le_trans pow2_le_pow10_large hpower
      _ ≤ d.coefficient * pow10 d.exponent.toNat :=
        Nat.le_mul_of_pos_left _ (Nat.pos_of_ne_zero hne)
  rw [exactMagnitude, hexponent]
  exact Binary64.ofRatio_of_large hnum

/-- A coefficient of `b` bits is below `10 ^ b`. -/
theorem exactMagnitude_of_small {d : Decimal}
    (h : d.exponent + (d.coefficient.log2 + 1) < -330) : d.exactMagnitude = 0 := by
  have hexponent : d.exponent.toNat = 0 := by omega
  have hcoefficient : d.coefficient < pow10 (d.coefficient.log2 + 1) :=
    Nat.lt_of_lt_of_le Nat.lt_log2_self (pow2_le_pow10 _)
  have hden : pow10 (d.coefficient.log2 + 1) * pow10 330 ≤ pow10 (-d.exponent).toNat := by
    rw [← pow10_add]
    exact pow10_le_pow10 (by omega)
  refine Binary64.ofRatio_of_small ?_
  calc 2 * (d.coefficient * pow10 d.exponent.toNat * pow2 1074)
      = d.coefficient * pow2 1075 := by
        rw [hexponent, pow10_zero, Nat.mul_one, show 1075 = 1 + 1074 from rfl, pow2_add, pow2_one,
          Nat.mul_left_comm]
    _ < pow10 (d.coefficient.log2 + 1) * pow2 1075 :=
        Nat.mul_lt_mul_of_pos_right hcoefficient (pow2_pos _)
    _ ≤ pow10 (d.coefficient.log2 + 1) * pow10 330 :=
        Nat.mul_le_mul_left _ pow2_le_pow10_small
    _ ≤ pow10 (-d.exponent).toNat := hden

/-- Settling the extreme cases early does not change the result. -/
theorem magnitude_eq_exactMagnitude (d : Decimal) : d.magnitude = d.exactMagnitude := by
  unfold magnitude
  split_ifs with hzero hlarge hsmall
  · have hden := pow10_pos (-d.exponent).toNat
    rw [exactMagnitude, hzero, Nat.zero_mul]
    exact (Binary64.ofRatio_of_small (by simpa using hden)).symm
  · exact (exactMagnitude_of_large hzero hlarge).symm
  · exact (exactMagnitude_of_small hsmall).symm
  · rfl

/-- A lower exponent and as many zeros at the end of the coefficient make no difference. -/
theorem magnitude_scale (c : Nat) (e : Int) (k : Nat) :
    magnitude ⟨c * pow10 k, e - k⟩ = magnitude ⟨c, e⟩ := by
  rw [magnitude_eq_exactMagnitude, magnitude_eq_exactMagnitude]
  refine Binary64.ofRatio_eq_of_cross (pow10_pos _) (pow10_pos _) ?_
  show c * pow10 k * pow10 (e - k).toNat * pow10 (-e).toNat =
    c * pow10 e.toNat * pow10 (-(e - k)).toNat
  -- Multiplied crosswise, both ratios have the same power of ten.
  have hpowers : k + (e - k).toNat + (-e).toNat = e.toNat + (-(e - k)).toNat := by omega
  rw [Nat.mul_assoc c, Nat.mul_assoc c, Nat.mul_assoc c, ← pow10_add, ← pow10_add, ← pow10_add,
    hpowers]

theorem coefficient_ne_zero {d : Decimal} (h : d.magnitude ≠ 0) : d.coefficient ≠ 0 := by
  intro hzero
  exact h (by rw [magnitude, if_pos hzero])

end Decimal

/-! ## The digits that are chosen -/

namespace Shortest

theorem magnitude_expansion {m : Nat} (hm : m < Binary64.infinity) :
    (expansion m).magnitude = m := by
  rw [Decimal.magnitude_eq_exactMagnitude]
  refine Eq.trans ?_ (Binary64.ofRatio_ratio hm)
  refine Binary64.ofRatio_eq_of_cross (pow10_pos _) (pow2_pos _) ?_
  show Binary64.significand m * pow2 (Binary64.shift m) * pow5 1074 * pow10 0 * pow2 1074 =
    Binary64.significand m * pow2 (Binary64.shift m) * pow10 1074
  rw [pow10_eq 1074, Nat.mul_comm (pow2 1074), pow10_zero, Nat.mul_one, Nat.mul_assoc]

theorem magnitude_of_onGrid {tie : Tie} {m : Nat} {place : Int} {d : Decimal}
    (h : onGrid tie m place = some d) : d.magnitude = m := by
  have hfound := List.find?_some h
  exact beq_iff_eq.mp hfound

/-- The digits of a finite number read back. -/
theorem magnitude_decimal (tie : Tie) {m : Nat} (hm : m < Binary64.infinity) :
    (decimal tie m).magnitude = m := by
  unfold decimal
  simp only
  cases hfound : List.findSome? (onGrid tie m) _ with
  | none => exact magnitude_expansion hm
  | some d =>
      obtain ⟨place, -, hplace⟩ := List.exists_of_findSome?_eq_some hfound
      exact magnitude_of_onGrid hplace

end Shortest

/-! ## Sign and magnitude -/

/-- A number is put together again from its sign and its magnitude. -/
theorem Binary64.ofParts_negative_magnitude (x : Binary64) :
    ofParts x.negative x.magnitude = x := by
  have hlt : x.bits.toNat < 2 * signWeight := x.bits.toNat_lt
  have hbits : (if x.negative = true then signWeight + x.magnitude else x.magnitude) =
      x.bits.toNat := by
    unfold negative magnitude
    by_cases hsign : signWeight ≤ x.bits.toNat
    · rw [if_pos (decide_eq_true hsign), Nat.mod_eq_sub_mod hsign,
        Nat.mod_eq_of_lt (by omega)]
      omega
    · rw [if_neg (by simpa using hsign), Nat.mod_eq_of_lt (Nat.lt_of_not_le hsign)]
  rw [ofParts, hbits]
  show Binary64.mk (UInt64.ofNat x.bits.toNat) = x
  rw [UInt64.ofNat_toNat]

end DocShell
