import DocShell.Json
import DocShell.Literal.Printer
import DocShell.Proofs.Literal.Grammar
import DocShell.Proofs.Number.ReadBack

set_option autoImplicit false

/-! # The text of a number is a number token

What is printed for an integer or for a finite floating point number is read as that number.
The digits read back (`Shortest.magnitude_decimal`); here it is shown that setting them out,
with a point among them or with an exponent, does not change the number they stand for, and
that a floating point number never looks like an integer.
-/

namespace DocShell

/-! ## Decimal digits -/

namespace Text

theorem all_isDigit_decimal (n : Nat) : (decimal n).all Char.isDigit = true := by
  rw [List.all_eq_true]
  intro c hc
  exact Nat.isDigit_of_mem_toDigits (by decide) (by decide) hc

theorem isRun_decimal (n : Nat) : Numeral.IsRun (decimal n) :=
  ⟨Nat.toDigits_ne_nil, all_isDigit_decimal n⟩

/-- A number other than zero does not begin with a zero. -/
theorem head?_decimal_ne {n : Nat} (hn : n ≠ 0) : (decimal n).head? ≠ some '0' := by
  induction n using Nat.strong_induction_on with
  | _ n ih =>
      by_cases hlt : n < 10
      · rw [decimal, Nat.toDigits_of_lt_base hlt]
        simpa using hn
      · have hdiv : n / 10 ≠ 0 := by omega
        rw [decimal, Nat.toDigits_of_base_le (by decide) (by omega),
          List.head?_append_of_ne_nil _ Nat.toDigits_ne_nil]
        exact ih (n / 10) (by omega) hdiv

theorem head?_decimal_ne_of_length {n : Nat} :
    ¬((decimal n).head? = some '0' ∧ 1 < (decimal n).length) := by
  rintro ⟨hhead, hlength⟩
  by_cases hn : n = 0
  · rw [hn] at hlength
    exact absurd hlength (by decide)
  · exact head?_decimal_ne hn hhead

theorem decimalValue_eq (ds : List Char) : decimalValue ds = Nat.ofDigitChars 10 ds 0 := rfl

theorem decimalValue_decimal (n : Nat) : decimalValue (decimal n) = n :=
  Nat.ofDigitChars_ten_toDigits

theorem decimalValue_append (ds es : List Char) :
    decimalValue (ds ++ es) = decimalValue ds * pow10 es.length + decimalValue es := by
  simp only [decimalValue_eq]
  rw [Nat.ofDigitChars_append, Nat.ofDigitChars_eq_ofDigitChars_zero, Nat.mul_comm]
  rfl

theorem decimalValue_replicate (k : Nat) : decimalValue (List.replicate k '0') = 0 := by
  rw [decimalValue_eq, Nat.ofDigitChars_replicate_zero, Nat.mul_zero]

/-- Zeros at the end are factors of ten. -/
theorem decimalValue_append_zeros (ds : List Char) (k : Nat) :
    decimalValue (ds ++ List.replicate k '0') = decimalValue ds * pow10 k := by
  rw [decimalValue_append, decimalValue_replicate, List.length_replicate, Nat.add_zero]

/-- Zeros at the beginning do not count. -/
theorem decimalValue_zeros_append (ds : List Char) (k : Nat) :
    decimalValue (List.replicate k '0' ++ ds) = decimalValue ds := by
  rw [decimalValue_append, decimalValue_replicate, Nat.zero_mul, Nat.zero_add]

end Text

/-! ## Layouts -/

namespace Numeral

/-- The text is a numeral with the given sign and magnitude that is not read as an integer. -/
def Writes (t : List Char) (negative : Bool) (magnitude : Nat) : Prop :=
  ∃ n : Numeral, Spelled t n ∧ n.negative = negative ∧ n.toInt? = none ∧
    n.toDecimal.magnitude = magnitude

/-- A numeral with a fraction. -/
theorem writes_fraction {sign whole fraction : List Char} {negative : Bool}
    (hsign : SignSpelled sign negative) (hwhole : IsRun whole)
    (hzero : ¬(whole.head? = some '0' ∧ 1 < whole.length)) (hfraction : IsRun fraction) :
    Writes (sign ++ (whole ++ '.' :: fraction)) negative
      (Decimal.magnitude ⟨Text.decimalValue (whole ++ fraction), -fraction.length⟩) := by
  refine ⟨⟨negative, whole, fraction, none⟩, ?_, rfl, ?_, ?_⟩
  · have hspelled : Spelled _ ⟨negative, whole, fraction, none⟩ :=
      .parts hsign hwhole hzero (.digits hfraction) .absent
    simpa using hspelled
  · simp [toInt?, hfraction.1]
  · simp [toDecimal]

theorem isRun_append {ds es : List Char} (hds : ds.all Char.isDigit = true)
    (hes : es.all Char.isDigit = true) (hne : ds ++ es ≠ []) : IsRun (ds ++ es) := by
  refine ⟨hne, ?_⟩
  rw [List.all_append, hds, hes]
  rfl

theorem isRun_zero : IsRun ['0'] := ⟨by decide, by decide⟩

theorem all_isDigit_zeros (k : Nat) : (List.replicate k '0').all Char.isDigit = true := by
  simp

/-- The point goes where it belongs, and the digits are filled up with zeros. -/
theorem writes_positional {sign ds : List Char} {negative : Bool}
    (hsign : SignSpelled sign negative) (hds : IsRun ds) (hhead : ds.head? ≠ some '0')
    (point : Int) :
    Writes (sign ++ Decimal.positional ds point) negative
      (Decimal.magnitude ⟨Text.decimalValue ds, point - ds.length⟩) := by
  have hlength : 0 < ds.length := List.length_pos_of_ne_nil hds.1
  unfold Decimal.positional
  split_ifs with hbefore hafter
  -- The point stands before all digits, and zeros between them.
  · have hfraction : IsRun (List.replicate (-point).toNat '0' ++ ds) :=
      isRun_append (all_isDigit_zeros _) hds.2 (by simp [hds.1])
    have hwrites := writes_fraction hsign isRun_zero (by decide) hfraction
    have hvalue : Text.decimalValue (['0'] ++ (List.replicate (-point).toNat '0' ++ ds)) =
        Text.decimalValue ds := Text.decimalValue_zeros_append ds ((-point).toNat + 1)
    have hexponent : -((List.replicate (-point).toNat '0' ++ ds).length : Int) =
        point - ds.length := by
      rw [List.length_append, List.length_replicate]
      omega
    rw [hvalue, hexponent] at hwrites
    exact hwrites
  -- The point stands after all digits, with zeros between them and one zero after it.
  · have hwhole : IsRun (ds ++ List.replicate (point.toNat - ds.length) '0') :=
      isRun_append hds.2 (all_isDigit_zeros _) (by simp [hds.1])
    have hwrites := writes_fraction hsign hwhole
      (fun h => hhead (by simpa [List.head?_append_of_ne_nil _ hds.1] using h.1)) isRun_zero
    have hvalue : Text.decimalValue
        (ds ++ List.replicate (point.toNat - ds.length) '0' ++ ['0']) =
          Text.decimalValue ds * pow10 (point.toNat - ds.length + 1) := by
      rw [List.append_assoc, ← List.replicate_succ', Text.decimalValue_append_zeros]
    have hexponent : -((['0'] : List Char).length : Int) =
        point - ds.length - (point.toNat - ds.length + 1 : Nat) := by
      rw [List.length_singleton]
      omega
    rw [hvalue, hexponent, Decimal.magnitude_scale] at hwrites
    exact hwrites
  -- The point stands among the digits.
  · have hsplit : ds.take point.toNat ++ ds.drop point.toNat = ds := List.take_append_drop ..
    have hdigits : (ds.take point.toNat).all Char.isDigit = true ∧
        (ds.drop point.toNat).all Char.isDigit = true := by
      rw [← Bool.and_eq_true, ← List.all_append, hsplit]
      exact hds.2
    have hwhole : IsRun (ds.take point.toNat) := by
      refine ⟨?_, hdigits.1⟩
      rw [← List.length_pos_iff, List.length_take]
      omega
    have hfraction : IsRun (ds.drop point.toNat) := by
      refine ⟨?_, hdigits.2⟩
      rw [← List.length_pos_iff, List.length_drop]
      omega
    have hhead' : (ds.take point.toNat).head? ≠ some '0' := by
      rw [List.head?_take]
      split_ifs
      · simp
      · exact hhead
    have hwrites := writes_fraction hsign hwhole (fun h => hhead' h.1) hfraction
    have hexponent : -((ds.drop point.toNat).length : Int) = point - ds.length := by
      rw [List.length_drop]
      omega
    rw [hsplit, hexponent] at hwrites
    exact hwrites

theorem exponentSpelled_decimal (plusSign : Bool) (e : Int) :
    ExponentSpelled
      ('e' :: (if e < 0 then ['-'] else if plusSign then ['+'] else []) ++ Text.decimal e.natAbs)
      (some e) := by
  have hrun := Text.isRun_decimal e.natAbs
  have hvalue := Text.decimalValue_decimal e.natAbs
  by_cases hnegative : e < 0
  · have hspelled : ExponentSpelled ('e' :: ['-'] ++ Text.decimal e.natAbs)
        (some (-(Text.decimalValue (Text.decimal e.natAbs) : Int))) :=
      .digits (.inl rfl) (.sign .minus) hrun
    rw [hvalue, show -(e.natAbs : Int) = e by omega] at hspelled
    rw [if_pos hnegative]
    exact hspelled
  · have hsign : ExponentSignSpelled (if plusSign then ['+'] else []) false := by
      cases plusSign with
      | true => exact .plus
      | false => exact .sign .absent
    have hspelled : ExponentSpelled
        ('e' :: (if plusSign then ['+'] else []) ++ Text.decimal e.natAbs)
        (some (Text.decimalValue (Text.decimal e.natAbs) : Int)) := .digits (.inl rfl) hsign hrun
    rw [hvalue, show (e.natAbs : Int) = e by omega] at hspelled
    rw [if_neg hnegative]
    exact hspelled

theorem fractionSpelled_match : ∀ ds : List Char, ds.all Char.isDigit = true →
    FractionSpelled (match ds with | [] => [] | more => '.' :: more) ds
  | [], _ => .absent
  | _ :: _, hds => .digits ⟨List.cons_ne_nil _ _, hds⟩

/-- One digit before the point, and the exponent says where the point belongs. -/
theorem writes_scientific {sign ds : List Char} {negative : Bool}
    (hsign : SignSpelled sign negative) (hds : IsRun ds) (plusSign : Bool) (point : Int) :
    Writes (sign ++ Decimal.scientific plusSign ds (point - 1)) negative
      (Decimal.magnitude ⟨Text.decimalValue ds, point - ds.length⟩) := by
  obtain ⟨c, more, rfl, hc⟩ := hds.exists_cons
  have hmore : more.all Char.isDigit = true := by
    have hall := hds.2
    rw [List.all_cons, Bool.and_eq_true] at hall
    exact hall.2
  have hwhole : IsRun [c] := ⟨by simp, by simp [hc]⟩
  have hfraction := fractionSpelled_match more hmore
  have hexponent := exponentSpelled_decimal plusSign (point - 1)
  refine ⟨⟨negative, [c], more, some (point - 1)⟩, ?_, rfl, ?_, ?_⟩
  · have hspelled : Spelled _ ⟨negative, [c], more, some (point - 1)⟩ :=
      .parts hsign hwhole (by simp) hfraction hexponent
    simp only [List.append_assoc] at hspelled
    simp only [Decimal.scientific, List.append_assoc]
    exact hspelled
  · simp [toInt?]
  · have hplace : point - 1 - (more.length : Int) = point - ((c :: more).length : Int) := by
      rw [List.length_cons]
      omega
    show Decimal.magnitude ⟨Text.decimalValue (c :: more), point - 1 - more.length⟩ = _
    rw [hplace]

end Numeral

/-- The significant digits, and the zeros that were left out after them. -/
theorem Decimal.exists_significantDigits {d : Decimal} (h : d.coefficient ≠ 0) :
    ∃ zeros, Text.decimal d.coefficient = d.significantDigits ++ List.replicate zeros '0' ∧
      d.significantDigits ≠ [] := by
  have hsplit : (Text.decimal d.coefficient).reverse.takeWhile (· == '0') ++
      (Text.decimal d.coefficient).reverse.dropWhile (· == '0') =
        (Text.decimal d.coefficient).reverse := List.takeWhile_append_dropWhile
  have hzeros : ∀ c ∈ (Text.decimal d.coefficient).reverse.takeWhile (· == '0'), c = '0' := by
    intro c hc
    simpa using List.mem_takeWhile_imp hc
  have hdecimal : Text.decimal d.coefficient = d.significantDigits ++ List.replicate
      ((Text.decimal d.coefficient).reverse.takeWhile (· == '0')).length '0' := by
    have hreverse := congrArg List.reverse hsplit
    rw [List.reverse_append, List.reverse_reverse, List.eq_replicate_of_mem hzeros,
      List.reverse_replicate] at hreverse
    exact hreverse.symm
  refine ⟨_, hdecimal, ?_⟩
  -- If all digits were zeros, the number would be zero.
  intro hnil
  rw [hnil, List.nil_append] at hdecimal
  have hvalue := Text.decimalValue_decimal d.coefficient
  rw [hdecimal, Text.decimalValue_replicate] at hvalue
  exact h hvalue.symm

theorem Numeral.writes_chars {sign : List Char} {negative : Bool} {d : Decimal}
    (style : FloatStyle) (hsign : SignSpelled sign negative) (h : d.coefficient ≠ 0) :
    Writes (sign ++ d.chars style) negative d.magnitude := by
  obtain ⟨zeros, hdecimal, hne⟩ := Decimal.exists_significantDigits h
  have hdigits : d.significantDigits.all Char.isDigit = true := by
    have hall := Text.all_isDigit_decimal d.coefficient
    rw [hdecimal, List.all_append, Bool.and_eq_true] at hall
    exact hall.1
  have hhead : d.significantDigits.head? ≠ some '0' := by
    have hhead := Text.head?_decimal_ne h
    rw [hdecimal, List.head?_append_of_ne_nil _ hne] at hhead
    exact hhead
  have hmagnitude : Decimal.magnitude
      ⟨Text.decimalValue d.significantDigits, d.point - d.significantDigits.length⟩ =
        d.magnitude := by
    have hvalue : Text.decimalValue d.significantDigits * pow10 zeros = d.coefficient := by
      rw [← Text.decimalValue_append_zeros, ← hdecimal, Text.decimalValue_decimal]
    have hexponent : d.point - d.significantDigits.length - zeros = d.exponent := by
      rw [Decimal.point, hdecimal, List.length_append, List.length_replicate]
      omega
    rw [← Decimal.magnitude_scale _ _ zeros, hvalue, hexponent]
  rw [← hmagnitude]
  unfold Decimal.chars
  simp only
  split_ifs
  · exact writes_positional hsign ⟨hne, hdigits⟩ hhead d.point
  · exact writes_scientific hsign ⟨hne, hdigits⟩ style.plusSign d.point

/-! ## Integers -/

theorem Numeral.signSpelled_ite (negative : Bool) :
    SignSpelled (if negative then ['-'] else []) negative := by
  cases negative with
  | true => exact .minus
  | false => exact .absent

/-- The numeral of an integer has neither a fraction nor an exponent. -/
theorem Numeral.spelled_decimalInt (i : Int) :
    Spelled (Text.decimalInt i) ⟨i < 0, Text.decimal i.natAbs, [], none⟩ := by
  have hspelled : Spelled _ ⟨i < 0, Text.decimal i.natAbs, [], none⟩ :=
    .parts (signSpelled_ite _) (Text.isRun_decimal _) Text.head?_decimal_ne_of_length .absent
      .absent
  have htext : Text.decimalInt i = (if decide (i < 0) then ['-'] else []) ++
      Text.decimal i.natAbs ++ [] ++ [] := by
    unfold Text.decimalInt
    by_cases hnegative : i < 0 <;> simp [hnegative]
  rw [htext]
  exact hspelled

theorem Numeral.toInt?_decimalInt (i : Int) :
    toInt? ⟨i < 0, Text.decimal i.natAbs, [], none⟩ = some i := by
  unfold toInt?
  rw [if_pos ⟨rfl, rfl⟩, Text.decimalValue_decimal]
  show some (if decide (i < 0) = true then -(i.natAbs : Int) else i.natAbs) = _
  by_cases hnegative : i < 0
  · rw [if_pos (decide_eq_true hnegative)]
    exact congrArg some (by omega)
  · rw [if_neg (by simpa using hnegative)]
    exact congrArg some (by omega)

/-! ## Numbers -/

namespace Literal

/-- An integer is printed as a number token for it. -/
theorem numberToken_int (i : Int64) : NumberToken (Text.decimalInt i.toInt) (.int i) := by
  have hword : isWord64 i.toInt = true := by
    have hlow := Int64.le_toInt i
    have hhigh := Int64.toInt_lt i
    simp only [isWord64, Bool.and_eq_true, decide_eq_true_eq]
    omega
  refine numberToken_iff.mpr ⟨_, Numeral.spelled_decimalInt i.toInt, ?_⟩
  rw [Numeral.toValue?, Numeral.toInt?_decimalInt]
  simp [hword]

theorem numberToken_of_writes {t : List Char} {x : Binary64} (hx : x.isFinite = true)
    (ht : Numeral.Writes t x.negative x.magnitude) : NumberToken t (.float x) := by
  obtain ⟨n, hspelled, hnegative, hint, hmagnitude⟩ := ht
  have hfloat : n.toDecimal.toBinary64 n.negative = x := by
    rw [Decimal.toBinary64, hmagnitude, hnegative, Binary64.ofParts_negative_magnitude]
  refine numberToken_iff.mpr ⟨_, hspelled, ?_⟩
  rw [Numeral.toValue?, hint]
  simp only [Numeral.toFloat?, hfloat, hx, if_true]

/-- A finite floating point number is printed as a number token for it, in every style. -/
theorem numberToken_float {x : Binary64} (style : FloatStyle) (h : x.isFinite = true) :
    NumberToken (x.chars style) (.float x) := by
  have hlt : x.magnitude < Binary64.infinity := by simpa [Binary64.isFinite] using h
  have hnan : x.isNaN = false := by
    simp only [Binary64.isNaN, decide_eq_false_iff_not]
    omega
  refine numberToken_of_writes h ?_
  unfold Binary64.chars
  simp only [hnan, h, Bool.not_true, Bool.false_eq_true, if_false]
  by_cases hzero : x.magnitude = 0
  -- Zero has no significant digits and is printed by itself.
  · have hwrites := Numeral.writes_fraction (Numeral.signSpelled_ite x.negative) Numeral.isRun_zero
      (by decide) Numeral.isRun_zero
    rw [hzero]
    simp only [Binary64.isZero, hzero, beq_self_eq_true, if_true]
    exact hwrites
  · have hdecimal := Shortest.magnitude_decimal style.tie hlt
    have hwrites := Numeral.writes_chars style (Numeral.signSpelled_ite x.negative)
      (Decimal.coefficient_ne_zero (by rw [hdecimal]; exact hzero))
    rw [hdecimal] at hwrites
    simpa [Binary64.isZero, hzero] using hwrites

-- Where a style leaves positional notation, and which way a half goes, does not matter for reading.
example :
    ∀ p ∈ [("1.0", 0x3FF0000000000000), ("-0.0", 0x8000000000000000),
        ("1000000000000000.0", 0x430C6BF526340000), ("1e16", 0x4341C37937E08000),
        ("0.0001", 0x3F1A36E2EB1C432D), ("1e-5", 0x3EE4F8B588E368F1), ("5e-324", 1),
        ("2.9802322387695313e-8", 0x3E60000000000000)],
      String.ofList ((Binary64.mk p.2).chars floatStyle) = p.1 ∧
        (Numeral.read p.1.toList).toOption.bind (·.value.float?) = some ⟨p.2⟩ := by
  decide +kernel

example :
    ∀ p ∈ [("1e+16", 0x4341C37937E08000), ("0.00001", 0x3EE4F8B588E368F1),
        ("1e-6", 0x3EB0C6F7A0B5ED8D), ("2.9802322387695312e-8", 0x3E60000000000000)],
      String.ofList ((Binary64.mk p.2).chars Json.floatStyle) = p.1 ∧
        (Numeral.read p.1.toList).toOption.bind (·.value.float?) = some ⟨p.2⟩ := by
  decide +kernel

end Literal

end DocShell
