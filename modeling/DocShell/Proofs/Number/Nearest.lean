import DocShell.Proofs.Number.ReadBack

set_option autoImplicit false

/-! # Numbers are rounded to the nearest one

The magnitudes are numbered in the order of the numbers that they stand for, one after the other,
and the step to the next one is a power of two (`steps_succ`). A ratio lies between two of them, or
beyond the last; `ofRatio` takes the nearer one, and of two equally near ones the even one
(`isNearest_ofRatio`). So does the conversion of a decimal number, whatever its exponent
(`Decimal.isNearest_magnitude`).
-/

namespace DocShell

namespace Binary64

variable {m : Nat} {q : ℚ}

/-! ## The number that a magnitude stands for -/

/-- The number that a magnitude stands for. Infinity stands for the number that would come next
after the largest finite one. -/
def value (m : Nat) : ℚ :=
  significand m * 2 ^ shift m / 2 ^ 1074

/-- The magnitude nearest to the number, infinity being one; of two that are equally near, the
even one. -/
def IsNearest (q : ℚ) (m : Nat) : Prop :=
  m ≤ infinity ∧ ∀ k ≤ infinity, k ≠ m →
    |value m - q| < |value k - q| ∨ (|value m - q| = |value k - q| ∧ m % 2 = 0)

/-- The number in steps of the least positive one. -/
def steps (m : Nat) : Nat :=
  significand m * pow2 (shift m)

theorem cast_pow2 (n : Nat) : (pow2 n : ℚ) = 2 ^ n := by
  rw [pow2]
  exact Nat.cast_pow 2 n

theorem value_eq (m : Nat) : value m = steps m / pow2 1074 := by
  rw [value, steps, Nat.cast_mul, cast_pow2, cast_pow2]

theorem binade_pos : 0 < binade := pow2_pos 52

theorem steps_of_lt {r : Nat} (hr : r < binade) : steps r = r := by
  have hdiv : r / binade = 0 := Nat.div_eq_of_lt hr
  simp [steps, significand, shift, hdiv, pow2_zero]

theorem steps_normal (s : Nat) {r : Nat} (hr : r < binade) :
    steps ((s + 1) * binade + r) = (r + binade) * pow2 s := by
  obtain ⟨hdiv, hmod⟩ : ((s + 1) * binade + r) / binade = s + 1 ∧
      ((s + 1) * binade + r) % binade = r :=
    (Nat.div_mod_unique binade_pos).mpr ⟨by rw [Nat.mul_comm, Nat.add_comm], hr⟩
  simp [steps, significand, shift, hdiv, hmod]

/-- A significand with its shift. It has all its bits unless nothing is shifted, and one after the
largest is the least one with the next shift. -/
theorem steps_add {s r : Nat} (hs : s = 0 ∨ binade ≤ r) (hr : r ≤ 2 * binade) :
    steps (s * binade + r) = r * pow2 s := by
  have hpos := binade_pos
  rcases Nat.lt_or_ge r binade with hlt | hge
  · obtain rfl : s = 0 := hs.resolve_right (Nat.not_le_of_lt hlt)
    rw [Nat.zero_mul, Nat.zero_add, steps_of_lt hlt, pow2_zero, Nat.mul_one]
  · rcases Nat.lt_or_eq_of_le hr with hlt | rfl
    · have hsplit : s * binade + r = (s + 1) * binade + (r - binade) := by
        rw [Nat.succ_mul]
        omega
      rw [hsplit, steps_normal s (by omega), Nat.sub_add_cancel hge]
    · have hsplit : s * binade + 2 * binade = (s + 1 + 1) * binade + 0 := by ring
      rw [hsplit, steps_normal (s + 1) hpos, Nat.zero_add, pow2_add, pow2_one]
      ring

theorem eq_shift_add (m : Nat) :
    m = shift m * binade + significand m ∧ (shift m = 0 ∨ binade ≤ significand m) ∧
      significand m < 2 * binade := by
  have hpos := binade_pos
  have hmod : m % binade < binade := Nat.mod_lt m hpos
  have hdivide : binade * (m / binade) + m % binade = m := Nat.div_add_mod m binade
  unfold shift significand
  split_ifs with hzero
  · rw [hzero, Nat.mul_zero] at hdivide
    rw [hzero]
    omega
  · obtain ⟨s, hs⟩ := Nat.exists_eq_succ_of_ne_zero hzero
    rw [hs] at hdivide ⊢
    rw [Nat.mul_succ, Nat.mul_comm] at hdivide
    rw [Nat.succ_eq_add_one, Nat.add_sub_cancel]
    omega

/-- From one magnitude to the next it is as many steps as the shift says. -/
theorem steps_succ (m : Nat) : steps (m + 1) = steps m + pow2 (shift m) := by
  obtain ⟨hm, hs, hr⟩ := eq_shift_add m
  have hnext : steps (shift m * binade + (significand m + 1)) =
      (significand m + 1) * pow2 (shift m) :=
    steps_add (hs.imp_right Nat.le_succ_of_le) hr
  rw [← Nat.add_assoc, ← hm] at hnext
  rw [hnext, steps, Nat.succ_mul]

theorem value_strictMono : StrictMono value := by
  refine strictMono_nat_of_lt_succ fun m => ?_
  have hstep : steps m < steps (m + 1) := by
    rw [steps_succ]
    exact Nat.lt_add_of_pos_right (pow2_pos _)
  rw [value_eq, value_eq]
  exact div_lt_div_of_pos_right (Nat.cast_lt.mpr hstep) (Nat.cast_pos.mpr (pow2_pos _))

/-- Two magnitudes equally near to a number have at least one between them, which is nearer, unless
one of them is odd. So there is one nearest magnitude only. -/
theorem IsNearest.unique {k : Nat} (hm : IsNearest q m) (hk : IsNearest q k) : m = k := by
  by_contra hne
  wlog hlt : m < k generalizing m k
  · exact this hk hm (Ne.symm hne) (by omega)
  rcases hm.2 k hk.1 (Ne.symm hne) with hnear | ⟨htie, hmeven⟩
  · rcases hk.2 m hm.1 hne with hnear' | ⟨htie', -⟩
    · exact lt_asymm hnear hnear'
    · exact hnear.ne' htie'
  · have hkeven : k % 2 = 0 := by
      rcases hk.2 m hm.1 hne with hnear' | ⟨-, hkeven⟩
      · exact absurd htie hnear'.ne'
      · exact hkeven
    have hbetween : m + 1 < k := by omega
    have hfirst : value m < value (m + 1) := value_strictMono (Nat.lt_succ_self m)
    have hsecond : value (m + 1) < value k := value_strictMono hbetween
    have hnext : |value m - q| ≤ |value (m + 1) - q| := by
      rcases hm.2 (m + 1) (hbetween.le.trans hk.1) (Nat.succ_ne_self m) with hnear | ⟨htie, -⟩
      · exact hnear.le
      · exact htie.le
    -- The number is halfway between the two, and what lies between them is nearer to it.
    have hhalf : value m - q = -(value k - q) := by
      rcases abs_eq_abs.mp htie with heq | heq
      · linarith
      · exact heq
    have hdistance : |value m - q| = q - value m := by
      rw [abs_sub_comm, abs_of_nonneg (by linarith)]
    have hnearer : |value (m + 1) - q| < q - value m := abs_lt.mpr ⟨by linarith, by linarith⟩
    linarith

/-! ## The nearest of two neighbours -/

theorem isNearest_of_lower (hm : m < infinity) (hlower : value m ≤ q) (hupper : q < value (m + 1))
    (h : q - value m < value (m + 1) - q ∨ (q - value m = value (m + 1) - q ∧ m % 2 = 0)) :
    IsNearest q m := by
  refine ⟨Nat.le_of_lt hm, fun k _ hne => ?_⟩
  have hdistance : |value m - q| = q - value m := by
    rw [abs_sub_comm, abs_of_nonneg (sub_nonneg.mpr hlower)]
  rcases Nat.lt_or_gt_of_ne hne with hlt | hgt
  -- A smaller magnitude lies on the other side of this one.
  · have hk : value k < value m := value_strictMono hlt
    have hdistance' : |value k - q| = q - value k := by
      rw [abs_sub_comm, abs_of_nonneg (by linarith)]
    exact .inl (by linarith)
  · have hk : value (m + 1) ≤ value k := value_strictMono.monotone hgt
    have hdistance' : |value k - q| = value k - q := abs_of_nonneg (by linarith)
    rcases h with h | ⟨h, heven⟩
    · exact .inl (by linarith)
    · rcases hk.lt_or_eq with hk | hk
      · exact .inl (by linarith)
      · exact .inr ⟨by linarith, heven⟩

theorem isNearest_of_upper (hm : m < infinity) (hlower : value m ≤ q) (hupper : q < value (m + 1))
    (h : value (m + 1) - q < q - value m ∨ (q - value m = value (m + 1) - q ∧ (m + 1) % 2 = 0)) :
    IsNearest q (m + 1) := by
  refine ⟨hm, fun k _ hne => ?_⟩
  have hdistance : |value (m + 1) - q| = value (m + 1) - q :=
    abs_of_nonneg (sub_nonneg.mpr hupper.le)
  rcases Nat.lt_or_gt_of_ne hne with hlt | hgt
  · have hk : value k ≤ value m := value_strictMono.monotone (Nat.le_of_lt_succ hlt)
    have hdistance' : |value k - q| = q - value k := by
      rw [abs_sub_comm, abs_of_nonneg (by linarith)]
    rcases h with h | ⟨h, heven⟩
    · exact .inl (by linarith)
    · rcases hk.lt_or_eq with hk | hk
      · exact .inl (by linarith)
      · exact .inr ⟨by linarith, heven⟩
  · have hk : value (m + 1) < value k := value_strictMono hgt
    have hdistance' : |value k - q| = value k - q := abs_of_nonneg (by linarith)
    exact .inl (by linarith)

/-- Which of two neighbours is nearer follows from the part of the step between them that is cut
off. -/
theorem isNearest_of_remainder {rem width : Nat} {unit : ℚ} (hm : m < infinity) (hunit : 0 < unit)
    (hrem : rem < width) (hlower : q - value m = rem / unit)
    (hupper : value (m + 1) - q = (width - rem) / unit) :
    (2 * rem < width ∨ (2 * rem = width ∧ m % 2 = 0) → IsNearest q m) ∧
      (width < 2 * rem ∨ (2 * rem = width ∧ (m + 1) % 2 = 0) → IsNearest q (m + 1)) := by
  have hbelow : value m ≤ q := by
    rw [← sub_nonneg, hlower]
    exact div_nonneg (Nat.cast_nonneg rem) hunit.le
  have habove : q < value (m + 1) := by
    rw [← sub_pos, hupper]
    exact div_pos (sub_pos.mpr (Nat.cast_lt.mpr hrem)) hunit
  have htie : 2 * rem = width → (rem : ℚ) = width - rem := by
    intro h
    rw [eq_sub_iff_add_eq, ← two_mul]
    exact_mod_cast h
  constructor
  · intro hnear
    refine isNearest_of_lower hm hbelow habove ?_
    rw [hlower, hupper, div_lt_div_iff_of_pos_right hunit, div_left_inj' hunit.ne']
    rcases hnear with hnear | ⟨hhalf, heven⟩
    · exact .inl (by rw [lt_sub_iff_add_lt, ← two_mul]; exact_mod_cast hnear)
    · exact .inr ⟨htie hhalf, heven⟩
  · intro hnear
    refine isNearest_of_upper hm hbelow habove ?_
    rw [hlower, hupper, div_lt_div_iff_of_pos_right hunit, div_left_inj' hunit.ne']
    rcases hnear with hnear | ⟨hhalf, heven⟩
    · exact .inl (by rw [sub_lt_iff_lt_add, ← two_mul]; exact_mod_cast hnear)
    · exact .inr ⟨htie hhalf, heven⟩

/-- Nothing is larger than infinity. -/
theorem isNearest_infinity (h : value infinity ≤ q) : IsNearest q infinity := by
  refine ⟨le_rfl, fun k hk hne => .inl ?_⟩
  have hlt : value k < value infinity := value_strictMono (Nat.lt_of_le_of_ne hk hne)
  rw [abs_sub_comm, abs_of_nonneg (sub_nonneg.mpr h), abs_sub_comm, abs_of_nonneg (by linarith)]
  linarith

/-! ## Rounding a ratio -/

/-- The magnitude below a ratio: the bits that are kept, with the others cut off. -/
theorem quotient_bounds (F : Nat) :
    (F.log2 - 52 = 0 ∨ binade ≤ F / pow2 (F.log2 - 52)) ∧ F / pow2 (F.log2 - 52) < 2 * binade := by
  have hpos : 0 < pow2 (F.log2 - 52) := pow2_pos _
  have hhigh : F < pow2 (F.log2 + 1) := Nat.lt_log2_self
  constructor
  · by_cases hshift : F.log2 - 52 = 0
    · exact .inl hshift
    · refine .inr ((Nat.le_div_iff_mul_le hpos).mpr ?_)
      have hne : F ≠ 0 := by
        rintro rfl
        exact hshift (by simp)
      have hlow : pow2 F.log2 ≤ F := Nat.log2_self_le hne
      have hsum : 52 + (F.log2 - 52) = F.log2 := by omega
      rwa [binade, ← pow2_add, hsum]
  · refine (Nat.div_lt_iff_lt_mul hpos).mpr (Nat.lt_of_lt_of_le hhigh ?_)
    rw [binade, ← pow2_one, ← pow2_add, ← pow2_add]
    exact Nat.pow_le_pow_right (by decide) (by omega)

/-- A ratio lies between a magnitude and the next one, and what is cut off says how far from
each. -/
theorem ratio_sub_value {num den s quotient rem : Nat} (hden : 0 < den)
    (hs : s = 0 ∨ binade ≤ quotient) (hquotient : quotient < 2 * binade)
    (h : den * pow2 s * quotient + rem = num * pow2 1074) :
    (num : ℚ) / den - value (s * binade + quotient) = rem / (den * pow2 1074) ∧
      value (s * binade + quotient + 1) - num / den =
        ((den * pow2 s : Nat) - rem) / (den * pow2 1074) := by
  have hstep : steps (s * binade + (quotient + 1)) = (quotient + 1) * pow2 s :=
    steps_add (hs.imp_right Nat.le_succ_of_le) hquotient
  have hden' : (den : ℚ) ≠ 0 := Nat.cast_ne_zero.mpr (Nat.ne_of_gt hden)
  have hunit : (pow2 1074 : ℚ) ≠ 0 := Nat.cast_ne_zero.mpr (Nat.ne_of_gt (pow2_pos 1074))
  have hcast : (den : ℚ) * pow2 s * quotient + rem = num * pow2 1074 := by exact_mod_cast h
  rw [Nat.add_assoc, value_eq, value_eq, steps_add hs hquotient.le, hstep]
  push_cast
  constructor
  · field_simp
    linarith
  · field_simp
    linarith

/-- The integer nearest to a quotient is the one below or the one above, whichever is nearer, and
the even one of the two if they are equally near. -/
theorem roundDiv_cases (num den : Nat) :
    (roundDiv num den = num / den ∧ (2 * (num % den) < den ∨
      (2 * (num % den) = den ∧ num / den % 2 = 0))) ∨
    (roundDiv num den = num / den + 1 ∧ (den < 2 * (num % den) ∨
      (2 * (num % den) = den ∧ (num / den + 1) % 2 = 0))) := by
  unfold roundDiv
  dsimp only
  split_ifs with hlt hgt
  · exact .inl ⟨rfl, .inl hlt⟩
  · exact .inr ⟨rfl, .inl hgt⟩
  · rcases Nat.mod_two_eq_zero_or_one (num / den) with heven | hodd
    · exact .inl ⟨by omega, .inr ⟨by omega, heven⟩⟩
    · exact .inr ⟨by omega, .inr ⟨by omega, by omega⟩⟩

/-- A ratio is rounded to the magnitude nearest to it. -/
theorem isNearest_ofRatio (num : Nat) {den : Nat} (hden : 0 < den) :
    IsNearest (num / den) (ofRatio num den) := by
  obtain ⟨hs, hlt⟩ := quotient_bounds (num * pow2 1074 / den)
  have hround := roundDiv_cases (num * pow2 1074) (den * pow2 ((num * pow2 1074 / den).log2 - 52))
  have hsplit := Nat.div_add_mod (num * pow2 1074)
    (den * pow2 ((num * pow2 1074 / den).log2 - 52))
  have hrem := Nat.mod_lt (num * pow2 1074) (Nat.mul_pos hden
    (pow2_pos ((num * pow2 1074 / den).log2 - 52)))
  unfold ofRatio
  dsimp only
  rw [Nat.div_div_eq_div_mul] at hs hlt
  generalize (num * pow2 1074 / den).log2 - 52 = s at *
  generalize num * pow2 1074 / (den * pow2 s) = quotient at *
  generalize num * pow2 1074 % (den * pow2 s) = rem at *
  obtain ⟨hlower, hupper⟩ := ratio_sub_value hden hs hlt hsplit
  have hunit : (0 : ℚ) < den * pow2 1074 := by
    exact_mod_cast Nat.mul_pos hden (pow2_pos 1074)
  generalize den * pow2 s = width at *
  rcases Nat.lt_or_ge (s * binade + quotient) infinity with hfinite | hlarge
  · have heven : (s * binade + quotient) % 2 = quotient % 2 := by
      have hbinade : binade = 2 * pow2 51 := rfl
      rw [hbinade, Nat.mul_left_comm]
      omega
    obtain ⟨hdown, hup⟩ := isNearest_of_remainder hfinite hunit hrem hlower hupper
    rcases hround with ⟨hround, hnear⟩ | ⟨hround, hnear⟩
    · rw [hround, Nat.min_eq_left hfinite.le]
      exact hdown (by rwa [heven])
    · rw [hround, ← Nat.add_assoc, Nat.min_eq_left hfinite]
      exact hup (by omega)
  -- Beyond the largest finite number there is nothing but infinity to take.
  · have hbelow : value (s * binade + quotient) ≤ num / den := by
      rw [← sub_nonneg, hlower]
      exact div_nonneg (Nat.cast_nonneg rem) hunit.le
    have hle : quotient ≤ roundDiv (num * pow2 1074) width := by
      rcases hround with ⟨hround, -⟩ | ⟨hround, -⟩
      · exact hround.ge
      · rw [hround]
        exact Nat.le_succ quotient
    rw [Nat.min_eq_right (by omega)]
    exact isNearest_infinity ((value_strictMono.monotone hlarge).trans hbelow)

/-! ## Sign and magnitude -/

theorem toNat_bits_ofParts {m : Nat} (sign : Bool) (hm : m ≤ infinity) :
    (ofParts sign m).bits.toNat = if sign then signWeight + m else m := by
  have hinfinity : infinity < signWeight := by decide +kernel
  have hweight : 2 * signWeight = 2 ^ 64 := by decide +kernel
  refine (UInt64.toNat_ofNat' (n := _)).trans (Nat.mod_eq_of_lt ?_)
  split_ifs <;> omega

/-- A magnitude leaves the bit of the sign alone. -/
theorem negative_ofParts {m : Nat} (sign : Bool) (hm : m ≤ infinity) :
    (ofParts sign m).negative = sign := by
  have hinfinity : infinity < signWeight := by decide +kernel
  rw [negative, toNat_bits_ofParts sign hm]
  cases sign with
  | true => simp
  | false => simpa using Nat.lt_of_le_of_lt hm hinfinity

theorem magnitude_ofParts {m : Nat} (sign : Bool) (hm : m ≤ infinity) :
    (ofParts sign m).magnitude = m := by
  have hinfinity : infinity < signWeight := by decide +kernel
  have hlt : m < signWeight := Nat.lt_of_le_of_lt hm hinfinity
  rw [magnitude, toNat_bits_ofParts sign hm]
  cases sign with
  | true => simp [Nat.mod_eq_of_lt hlt]
  | false => simp [Nat.mod_eq_of_lt hlt]

end Binary64

/-! ## Decimal numbers -/

theorem cast_pow10 (n : Nat) : (pow10 n : ℚ) = 10 ^ n := by
  rw [pow10]
  exact Nat.cast_pow 10 n

/-- The number as a fraction. -/
def Decimal.value (d : Decimal) : ℚ :=
  d.coefficient * 10 ^ d.exponent

/-- A decimal number is rounded to the magnitude nearest to it, however large or small it is. -/
theorem Decimal.isNearest_magnitude (d : Decimal) : Binary64.IsNearest d.value d.magnitude := by
  have hvalue : d.value = (d.coefficient * pow10 d.exponent.toNat : Nat) /
      (pow10 (-d.exponent).toNat : Nat) := by
    have hten : (10 : ℚ) ≠ 0 := by norm_num
    have hexponent : d.exponent = (d.exponent.toNat : Int) - ((-d.exponent).toNat : Int) := by omega
    have hpower : (10 : ℚ) ^ d.exponent = 10 ^ d.exponent.toNat / 10 ^ (-d.exponent).toNat := by
      conv_lhs => rw [hexponent, zpow_sub₀ hten, zpow_natCast, zpow_natCast]
    rw [value, hpower, Nat.cast_mul, cast_pow10, cast_pow10, mul_div_assoc]
  rw [Decimal.magnitude_eq_exactMagnitude, hvalue]
  exact Binary64.isNearest_ofRatio _ (pow10_pos _)

end DocShell
