import DocShell.Proofs.Literal.NumberText
import DocShell.Proofs.Literal.Language
import DocShell.Proofs.Number.Nearest
import Mathlib.Computability.RegularExpressions

set_option autoImplicit false

/-! # Which texts are numbers, and which numbers

A text is a number if it matches the pattern `-?(0|[1-9][0-9]*)(\.[0-9]+)?([eE][+-]?[0-9]+)?`, which
is what the numerals are (`mem_pattern_iff`). A numeral without fraction and exponent is the integer
that it denotes, if that has 64 bits. Every other one is the nearest floating point number, and if
that is not finite, the text is refused where the numeral begins.
-/

namespace DocShell.Numeral

open RegularExpression (char star)

variable {t : List Char}

/-! ## The pattern -/

/-- What the expression matches, or nothing. -/
def optional (r : RegularExpression Char) : RegularExpression Char := 1 + r

/-- One of the characters. -/
def oneOf : List Char → RegularExpression Char
  | [] => 0
  | c :: cs => char c + oneOf cs

/-- A decimal digit. -/
def digit : RegularExpression Char := oneOf "0123456789".toList

/-- Zero, or digits of which the first is not zero. -/
def wholePattern : RegularExpression Char :=
  char '0' + oneOf "123456789".toList * star digit

/-- A point and digits. -/
def fractionPattern : RegularExpression Char := char '.' * (digit * star digit)

/-- The letter, a sign if there is one, and digits. -/
def exponentPattern : RegularExpression Char :=
  oneOf "eE".toList * optional (oneOf "+-".toList) * (digit * star digit)

/-- `-?(0|[1-9][0-9]*)(\.[0-9]+)?([eE][+-]?[0-9]+)?` -/
def pattern : RegularExpression Char :=
  optional (char '-') * wholePattern * optional fractionPattern * optional exponentPattern

theorem mem_char {c : Char} : t ∈ (char c).matches' ↔ t = [c] := Iff.rfl

theorem mem_add {r₁ r₂ : RegularExpression Char} :
    t ∈ (r₁ + r₂).matches' ↔ t ∈ r₁.matches' ∨ t ∈ r₂.matches' := Iff.rfl

theorem mem_mul {r₁ r₂ : RegularExpression Char} :
    t ∈ (r₁ * r₂).matches' ↔ ∃ t₁ ∈ r₁.matches', ∃ t₂ ∈ r₂.matches', t₁ ++ t₂ = t := Iff.rfl

theorem mem_optional {r : RegularExpression Char} :
    t ∈ (optional r).matches' ↔ t = [] ∨ t ∈ r.matches' := Iff.rfl

theorem mem_oneOf {cs : List Char} : t ∈ (oneOf cs).matches' ↔ ∃ c ∈ cs, t = [c] := by
  induction cs with
  | nil =>
      constructor
      · intro h
        exact absurd h (Language.notMem_zero t)
      · simp
  | cons d cs ih => rw [oneOf, mem_add, mem_char, ih, List.exists_mem_cons_iff]

theorem mem_star_oneOf {cs : List Char} : t ∈ (star (oneOf cs)).matches' ↔ ∀ c ∈ t, c ∈ cs := by
  rw [RegularExpression.matches'_star, Language.mem_kstar]
  constructor
  · rintro ⟨parts, rfl, hparts⟩ c hc
    obtain ⟨part, hpart, hc⟩ := List.mem_flatten.mp hc
    obtain ⟨d, hd, rfl⟩ := mem_oneOf.mp (hparts part hpart)
    obtain rfl := List.mem_singleton.mp hc
    exact hd
  · intro h
    refine ⟨t.map fun c => [c], ?_, fun part hpart => ?_⟩
    · rw [← List.flatMap_def, List.flatMap_singleton']
    · obtain ⟨c, hc, rfl⟩ := List.mem_map.mp hpart
      exact mem_oneOf.mpr ⟨c, h c hc, rfl⟩

/-! ## The pattern is what numerals are -/

theorem isDigit_iff {c : Char} : c.isDigit = true ↔ c ∈ "0123456789".toList := by
  constructor
  · intro h
    have hall : ∀ n < 0x3A, (Char.ofNat n).isDigit = true → Char.ofNat n ∈ "0123456789".toList := by
      decide
    have hc := hall c.toNat (Nat.lt_succ_of_le (Char.isDigit_iff_toNat.mp h).2)
    rw [Char.ofNat_toNat] at hc
    exact hc h
  · intro h
    have hall : "0123456789".toList.all Char.isDigit = true := by decide
    exact List.all_eq_true.mp hall c h

theorem mem_star_digit : t ∈ (star digit).matches' ↔ t.all Char.isDigit = true := by
  rw [digit, mem_star_oneOf, List.all_eq_true]
  simp only [isDigit_iff]

theorem mem_run_iff : t ∈ (digit * star digit).matches' ↔ IsRun t := by
  rw [mem_mul]
  constructor
  · rintro ⟨t₁, h₁, t₂, h₂, rfl⟩
    obtain ⟨c, hc, rfl⟩ := mem_oneOf.mp h₁
    refine ⟨List.cons_ne_nil c t₂, ?_⟩
    rw [List.singleton_append, List.all_cons, isDigit_iff.mpr hc, mem_star_digit.mp h₂]
    rfl
  · intro h
    obtain ⟨c, more, rfl, hc⟩ := h.exists_cons
    have hmore := h.2
    rw [List.all_cons, Bool.and_eq_true] at hmore
    exact ⟨[c], mem_oneOf.mpr ⟨c, isDigit_iff.mp hc, rfl⟩, more, mem_star_digit.mpr hmore.2, rfl⟩

theorem mem_wholePattern_iff :
    t ∈ wholePattern.matches' ↔ IsRun t ∧ ¬(t.head? = some '0' ∧ 1 < t.length) := by
  have hsplit : ∀ c, c ∈ "123456789".toList ↔ c ∈ "0123456789".toList ∧ c ≠ '0' := by
    intro c
    have hdigits : "0123456789".toList = '0' :: "123456789".toList := rfl
    have hzero : '0' ∉ "123456789".toList := by decide
    rw [hdigits, List.mem_cons]
    constructor
    · intro hc
      exact ⟨.inr hc, fun h => hzero (h ▸ hc)⟩
    · rintro ⟨hc, hne⟩
      exact hc.resolve_left hne
  rw [wholePattern, mem_add, mem_char, mem_mul]
  constructor
  · rintro (rfl | ⟨t₁, h₁, t₂, h₂, rfl⟩)
    · exact ⟨⟨by decide, by decide⟩, by decide⟩
    · obtain ⟨c, hc, rfl⟩ := mem_oneOf.mp h₁
      obtain ⟨hdigit, hne⟩ := (hsplit c).mp hc
      have hrun : IsRun ([c] ++ t₂) :=
        mem_run_iff.mp (mem_mul.mpr ⟨[c], mem_oneOf.mpr ⟨c, hdigit, rfl⟩, t₂, h₂, rfl⟩)
      exact ⟨hrun, fun h => hne (Option.some.inj h.1)⟩
  · rintro ⟨hrun, hzero⟩
    obtain ⟨c, more, rfl, hc⟩ := hrun.exists_cons
    have hmore := hrun.2
    rw [List.all_cons, Bool.and_eq_true] at hmore
    by_cases hc0 : c = '0'
    · cases more with
      | nil => exact .inl (by rw [hc0])
      | cons d more => exact absurd ⟨by rw [hc0]; rfl, by simp⟩ hzero
    · exact .inr ⟨[c], mem_oneOf.mpr ⟨c, (hsplit c).mpr ⟨isDigit_iff.mp hc, hc0⟩, rfl⟩, more,
        mem_star_digit.mpr hmore.2, rfl⟩

theorem mem_sign_iff : t ∈ (optional (char '-')).matches' ↔ ∃ negative, SignSpelled t negative := by
  rw [mem_optional, mem_char]
  constructor
  · rintro (rfl | rfl)
    · exact ⟨false, .absent⟩
    · exact ⟨true, .minus⟩
  · rintro ⟨negative, h⟩
    exact h.eq_or_eq

theorem mem_fraction_iff :
    t ∈ (optional fractionPattern).matches' ↔ ∃ ds, FractionSpelled t ds := by
  rw [mem_optional, fractionPattern, mem_mul]
  constructor
  · rintro (rfl | ⟨t₁, rfl, ds, hds, rfl⟩)
    · exact ⟨[], .absent⟩
    · exact ⟨ds, .digits (mem_run_iff.mp hds)⟩
  · rintro ⟨ds, h⟩
    cases h with
    | absent => exact .inl rfl
    | digits hds => exact .inr ⟨['.'], rfl, ds, mem_run_iff.mpr hds, rfl⟩

theorem mem_exponentSign_iff :
    t ∈ (optional (oneOf "+-".toList)).matches' ↔ ∃ negative, ExponentSignSpelled t negative := by
  rw [mem_optional, mem_oneOf]
  constructor
  · rintro (rfl | ⟨c, hc, rfl⟩)
    · exact ⟨false, .sign .absent⟩
    · rcases List.mem_pair.mp hc with rfl | rfl
      · exact ⟨false, .plus⟩
      · exact ⟨true, .sign .minus⟩
  · rintro ⟨negative, h⟩
    cases h with
    | plus => exact .inr ⟨'+', by decide, rfl⟩
    | sign h =>
        rcases h.eq_or_eq with rfl | rfl
        · exact .inl rfl
        · exact .inr ⟨'-', by decide, rfl⟩

theorem mem_exponent_iff :
    t ∈ (optional exponentPattern).matches' ↔ ∃ e, ExponentSpelled t e := by
  rw [mem_optional, exponentPattern, mem_mul]
  constructor
  · rintro (rfl | ⟨t₁, h₁, ds, hds, rfl⟩)
    · exact ⟨none, .absent⟩
    · obtain ⟨t₂, h₂, sign, hsign, rfl⟩ := mem_mul.mp h₁
      obtain ⟨letter, hletter, rfl⟩ := mem_oneOf.mp h₂
      obtain ⟨negative, hsign⟩ := mem_exponentSign_iff.mp hsign
      exact ⟨_, .digits (List.mem_pair.mp hletter) hsign (mem_run_iff.mp hds)⟩
  · rintro ⟨e, h⟩
    cases h with
    | absent => exact .inl rfl
    | @digits letter sign ds negative hletter hsign hds =>
        refine .inr ⟨letter :: sign, mem_mul.mpr ⟨[letter], ?_, sign, ?_, rfl⟩, ds,
          mem_run_iff.mpr hds, rfl⟩
        · exact mem_oneOf.mpr ⟨letter, List.mem_pair.mpr hletter, rfl⟩
        · exact mem_exponentSign_iff.mpr ⟨negative, hsign⟩

/-- The texts that match the pattern are the numerals. -/
theorem mem_pattern_iff : t ∈ pattern.matches' ↔ ∃ n, Spelled t n := by
  rw [pattern, mem_mul]
  constructor
  · rintro ⟨t₁, h₁, exponent, hexponent, rfl⟩
    obtain ⟨t₂, h₂, fraction, hfraction, rfl⟩ := mem_mul.mp h₁
    obtain ⟨sign, hsign, whole, hwhole, rfl⟩ := mem_mul.mp h₂
    obtain ⟨negative, hsign⟩ := mem_sign_iff.mp hsign
    obtain ⟨hrun, hzero⟩ := mem_wholePattern_iff.mp hwhole
    obtain ⟨ds, hfraction⟩ := mem_fraction_iff.mp hfraction
    obtain ⟨e, hexponent⟩ := mem_exponent_iff.mp hexponent
    have hspelled : Spelled _ ⟨negative, whole, ds, e⟩ :=
      .parts hsign hrun hzero hfraction hexponent
    exact ⟨_, hspelled⟩
  · rintro ⟨n, h⟩
    cases h with
    | @parts sign fraction exponent n hsign hwhole hzero hfraction hexponent =>
        refine ⟨sign ++ n.whole ++ fraction, mem_mul.mpr ⟨sign ++ n.whole, mem_mul.mpr ⟨sign, ?_,
          n.whole, ?_, rfl⟩, fraction, ?_, rfl⟩, exponent, ?_, rfl⟩
        · exact mem_sign_iff.mpr ⟨_, hsign⟩
        · exact mem_wholePattern_iff.mpr ⟨hwhole, hzero⟩
        · exact mem_fraction_iff.mpr ⟨_, hfraction⟩
        · exact mem_exponent_iff.mpr ⟨_, hexponent⟩

/-! ## What a numeral denotes -/

/-- The integer that the sign and the whole number denote. -/
def integer (n : Numeral) : Int :=
  if n.negative then -(Text.decimalValue n.whole : Int) else Text.decimalValue n.whole

/-- The number that the digits and the exponent denote, without the sign. -/
def absolute (n : Numeral) : ℚ :=
  Text.decimalValue (n.whole ++ n.fraction) * 10 ^ (n.exponent.getD 0 - n.fraction.length)

/-- An integer of 64 bits, written without fraction and exponent. -/
def IsInt64 (n : Numeral) : Prop :=
  n.fraction = [] ∧ n.exponent = none ∧ -2 ^ 63 ≤ n.integer ∧ n.integer ≤ 2 ^ 63 - 1

/-- The floating point number has the sign of the numeral and the magnitude nearest to it. -/
def RoundsTo (n : Numeral) (x : Binary64) : Prop :=
  x.negative = n.negative ∧ Binary64.IsNearest n.absolute x.magnitude

instance (n : Numeral) : Decidable n.IsInt64 := inferInstanceAs (Decidable (_ ∧ _))

variable {n : Numeral} {x : Binary64}

/-- There is one such number, and it is the one that the digits are converted to. -/
theorem roundsTo_iff : n.RoundsTo x ↔ x = n.toDecimal.toBinary64 n.negative := by
  have hnearest : Binary64.IsNearest n.absolute n.toDecimal.magnitude :=
    n.toDecimal.isNearest_magnitude
  constructor
  · rintro ⟨hnegative, hx⟩
    rw [Decimal.toBinary64, hnearest.unique hx, ← hnegative, Binary64.ofParts_negative_magnitude]
  · rintro rfl
    refine ⟨Binary64.negative_ofParts _ hnearest.1, ?_⟩
    rw [Decimal.toBinary64, Binary64.magnitude_ofParts _ hnearest.1]
    exact hnearest

theorem isWord64_iff {i : Int} : isWord64 i = true ↔ -2 ^ 63 ≤ i ∧ i ≤ 2 ^ 63 - 1 := by
  simp only [isWord64, Bool.and_eq_true, decide_eq_true_eq]
  omega

theorem toInt?_eq :
    n.toInt? = if n.fraction = [] ∧ n.exponent = none then some n.integer else none := by
  simp [toInt?, integer]

theorem toValue?_of_isInt64 (h : n.IsInt64) :
    n.toValue? = some (.int (.ofInt n.integer)) ∧ (Int64.ofInt n.integer).toInt = n.integer := by
  obtain ⟨hfraction, hexponent, hlow, hhigh⟩ := h
  constructor
  · rw [toValue?, toInt?_eq, if_pos ⟨hfraction, hexponent⟩]
    exact if_pos (isWord64_iff.mpr ⟨hlow, hhigh⟩)
  · exact Int64.toInt_ofInt_of_le (by simpa using hlow) (by omega)

theorem toValue?_of_not_isInt64 (h : ¬n.IsInt64) (hx : n.RoundsTo x) :
    n.toValue? = if x.isFinite = true then some (.float x) else none := by
  have hfloat : n.toValue? = n.toFloat? := by
    rw [toValue?, toInt?_eq]
    by_cases hinteger : n.fraction = [] ∧ n.exponent = none
    · have hword : isWord64 n.integer ≠ true := by
        rw [Ne, isWord64_iff]
        exact fun hrange => h ⟨hinteger.1, hinteger.2, hrange⟩
      simp [hinteger, hword]
    · simp [hinteger]
  rw [hfloat, roundsTo_iff.mp hx]
  rfl

/-- A text that is scanned to its end is spelled. -/
theorem spelled_of_scan_nil (h : scan t = some (n, [])) : Spelled t n := by
  obtain ⟨t', ht', rfl⟩ := spelled_of_scan h
  rwa [List.append_nil]

/-- The reader takes the whole numeral, and refuses it as a whole. -/
theorem outcome_read_append {rest : List Char} (h : Spelled t n) (hrest : IsEnd rest) :
    outcome (read (t ++ rest)) =
      match n.toValue? with
      | some v => .ok (v, rest)
      | none => .error ⟨.numberOutOfRange t, t ++ rest⟩ := by
  have hscan := scan_of_spelled h hrest
  unfold read
  split
  · rename_i hnone
    rw [hscan] at hnone
    contradiction
  · rename_i n' rest' hsome
    obtain ⟨rfl, rfl⟩ := Prod.mk.inj (Option.some.inj (hscan.symm.trans hsome))
    cases n.toValue? with
    | some v => rfl
    | none => simp

end DocShell.Numeral

namespace DocShell.Literal

open Text (trim trimStart offsetOf isBlank)

variable {text : String} {n : Numeral}

/-- A text that is a numeral with white space around it is parsed as its value, or refused where the
numeral begins. -/
theorem parse_of_spelled (h : Numeral.Spelled (trim text.toList) n) :
    parse text =
      match n.toValue? with
      | some v => .ok v
      | none => .error ⟨.numberOutOfRange (trim text.toList),
          some (offsetOf text.toList (trimStart text.toList))⟩ := by
  obtain ⟨w₁, w₂, hw₁, hw₂, htext⟩ := Text.exists_trim text.toList
  obtain ⟨c, more, hcons, hc⟩ := h.exists_cons
  have hstart : trimStart text.toList = c :: (more ++ w₂) := by
    rw [htext, List.append_assoc, hcons, List.cons_append,
      trimStart_start hw₁ (isStart_of_number hc)]
  have hblank : isBlank text.toList = false := by
    rw [Bool.eq_false_iff, Ne, ← Text.trimStart_eq_nil_iff, hstart]
    exact List.cons_ne_nil _ _
  have hend : IsEnd w₂ := isEnd_of_blank hw₂
  have hvalue : outcome (value maxDepth text.toList) = _ :=
    (outcome_value_number hstart hc).trans
      (Eq.trans (by rw [hcons, List.cons_append]) (Numeral.outcome_read_append h hend.numeral))
  cases hn : n.toValue? with
  | some v =>
      rw [hn] at hvalue
      rw [parse_of_not_blank hblank, ← whole_eq_ok_iff_derives, whole_eq_ok_iff]
      exact ⟨w₂, hvalue, hw₂⟩
  | none =>
      rw [hn] at hvalue
      rw [parse_of_fault hblank hvalue, Fault.toError, hstart, hcons, List.cons_append]

/-- Numbers are written as numerals only. -/
theorem exists_spelled_of_parse {v : Value} (h : parse text = .ok v)
    (hv : (∃ i, v = .int i) ∨ ∃ x, v = .float x) : ∃ n, Numeral.Spelled (trim text.toList) n := by
  rcases (parse_eq_ok_iff text v).mp h with ⟨-, rfl⟩ | ⟨w₁, t, w₂, m, hw₁, hw₂, htext, ht, -⟩
  · simp [Value.empty] at hv
  · rw [htext, Text.trim_append_append hw₁ ht.isFramed.isSolid hw₂]
    cases ht with
    | scalar ht =>
        cases ht with
        | number ht =>
            obtain ⟨n, hn, -⟩ := numberToken_iff.mp ht
            exact ⟨n, hn⟩
        | _ => simp at hv
    | _ => simp [Value.empty, Value.ofPairs] at hv

theorem parse_of_isInt64 (h : Numeral.Spelled (trim text.toList) n) (hn : n.IsInt64) :
    ∃ i : Int64, i.toInt = n.integer ∧ parse text = .ok (.int i) := by
  obtain ⟨hvalue, hinteger⟩ := Numeral.toValue?_of_isInt64 hn
  refine ⟨_, hinteger, ?_⟩
  rw [parse_of_spelled h, hvalue]

theorem parse_of_not_isInt64 (h : Numeral.Spelled (trim text.toList) n) {x : Binary64}
    (hx : n.RoundsTo x) (hn : ¬n.IsInt64) :
    parse text =
      if x.isFinite = true then .ok (.float x)
      else .error ⟨.numberOutOfRange (trim text.toList),
        some (offsetOf text.toList (trimStart text.toList))⟩ := by
  rw [parse_of_spelled h, Numeral.toValue?_of_not_isInt64 hn hx]
  cases x.isFinite <;> rfl

/-- The decimal text of an integer denotes that integer. -/
theorem exists_spelled_decimalInt {i : Int} (h : trim text.toList = Text.decimalInt i) :
    ∃ n, Numeral.Spelled (trim text.toList) n ∧ n.integer = i ∧
      (n.IsInt64 ↔ -2 ^ 63 ≤ i ∧ i ≤ 2 ^ 63 - 1) := by
  have hinteger : Numeral.integer ⟨i < 0, Text.decimal i.natAbs, [], none⟩ = i := by
    have htoInt := Numeral.toInt?_decimalInt i
    rw [Numeral.toInt?_eq, if_pos ⟨rfl, rfl⟩] at htoInt
    exact Option.some.inj htoInt
  refine ⟨_, h ▸ Numeral.spelled_decimalInt i, hinteger, ?_⟩
  rw [Numeral.IsInt64, hinteger]
  simp

/-- A text is parsed as a number only if it matches the pattern with the white space around it left
out. If it does, an integer of 64 bits is that integer, and every other number is the nearest
floating point number, or refused at its place if that is not finite. -/
theorem parse_number_cases (text : String) :
    ((∃ i, parse text = .ok (.int i)) ∨ (∃ x, parse text = .ok (.float x)) →
      trim text.toList ∈ Numeral.pattern.matches') ∧
    (trim text.toList ∈ Numeral.pattern.matches' ↔
      ∃ n, Numeral.Spelled (trim text.toList) n) ∧
    (∀ n, Numeral.Spelled (trim text.toList) n →
      (n.IsInt64 → ∃ i : Int64, i.toInt = n.integer ∧ parse text = .ok (.int i)) ∧
      (∃ x, n.RoundsTo x) ∧
      ∀ x, n.RoundsTo x → ¬n.IsInt64 →
        parse text =
          if x.isFinite = true then .ok (.float x)
          else .error ⟨.numberOutOfRange (trim text.toList),
            some (offsetOf text.toList (trimStart text.toList))⟩) ∧
    (∀ i : Int64, trim text.toList = Text.decimalInt i.toInt → parse text = .ok (.int i)) ∧
    (trim text.toList = "-0".toList → parse text = .ok (.int 0)) ∧
    ∀ i : Int, trim text.toList = Text.decimalInt i → i < -2 ^ 63 ∨ 2 ^ 63 ≤ i →
      (∃ x, parse text = .ok (.float x)) ∨ ∃ error, parse text = .error error := by
  refine ⟨?_, Numeral.mem_pattern_iff, ?_, ?_, ?_, ?_⟩
  · rw [Numeral.mem_pattern_iff]
    rintro (⟨i, h⟩ | ⟨x, h⟩)
    · exact exists_spelled_of_parse h (.inl ⟨i, rfl⟩)
    · exact exists_spelled_of_parse h (.inr ⟨x, rfl⟩)
  · intro n h
    exact ⟨parse_of_isInt64 h, ⟨_, Numeral.roundsTo_iff.mpr rfl⟩,
      fun x hx hn => parse_of_not_isInt64 h hx hn⟩
  · intro i htext
    obtain ⟨n, h, hinteger, hrange⟩ := exists_spelled_decimalInt htext
    have hlow := Int64.le_toInt i
    have hhigh := Int64.toInt_lt i
    obtain ⟨j, hj, hparse⟩ := parse_of_isInt64 h (hrange.mpr ⟨hlow, by omega⟩)
    rw [hparse, Int64.toInt_inj.mp (hj.trans hinteger)]
  · intro htext
    have h : Numeral.Spelled (trim text.toList) ⟨true, ['0'], [], none⟩ := by
      rw [htext]
      exact Numeral.spelled_of_scan_nil (by decide)
    obtain ⟨i, hi, hparse⟩ := parse_of_isInt64 h ⟨rfl, rfl, by decide, by decide⟩
    have hzero : i = 0 := Int64.toInt_inj.mp hi
    rw [hparse, hzero]
  · intro i htext houtside
    obtain ⟨n, h, -, hrange⟩ := exists_spelled_decimalInt htext
    have hn : ¬n.IsInt64 := by
      rw [hrange]
      omega
    have hx : n.RoundsTo (n.toDecimal.toBinary64 n.negative) := Numeral.roundsTo_iff.mpr rfl
    rw [parse_of_not_isInt64 h hx hn]
    split_ifs
    · exact .inl ⟨_, rfl⟩
    · exact .inr ⟨_, rfl⟩

/-- The least integer, with white space around it, the integer before it, and a number that is too
large. -/
theorem parse_number_cases_bounds :
    parse "\t-9223372036854775808\n" = .ok (.int .minValue) ∧
      (∃ x, Numeral.RoundsTo ⟨true, "9223372036854775809".toList, [], none⟩ x ∧
        parse "-9223372036854775809" = .ok (.float x)) ∧
      parse " 1e309" = .error ⟨.numberOutOfRange "1e309".toList, some 1⟩ := by
  have hinteger : Numeral.Spelled (trim "-9223372036854775809".toList)
      ⟨true, "9223372036854775809".toList, [], none⟩ :=
    Numeral.spelled_of_scan_nil (by decide +kernel)
  have hexponent : Numeral.Spelled (trim " 1e309".toList) ⟨false, ['1'], [], some 309⟩ :=
    Numeral.spelled_of_scan_nil (by decide +kernel)
  refine ⟨?_, ?_, ?_⟩
  · exact (parse_number_cases _).2.2.2.1 .minValue (by decide +kernel)
  · obtain ⟨-, ⟨x, hx⟩, hfloat⟩ := (parse_number_cases "-9223372036854775809").2.2.1 _ hinteger
    have hfinite : x.isFinite = true := by
      rw [Numeral.roundsTo_iff.mp hx]
      decide +kernel
    refine ⟨x, hx, ?_⟩
    rw [hfloat x hx (by decide +kernel), if_pos hfinite]
  · obtain ⟨-, ⟨x, hx⟩, hfloat⟩ := (parse_number_cases " 1e309").2.2.1 _ hexponent
    have hinfinite : ¬x.isFinite = true := by
      rw [Numeral.roundsTo_iff.mp hx]
      decide +kernel
    have htrim : trim " 1e309".toList = "1e309".toList := by decide +kernel
    have hplace : offsetOf " 1e309".toList (trimStart " 1e309".toList) = 1 := by decide +kernel
    rw [hfloat x hx (by decide +kernel), if_neg hinfinite, htrim, hplace]

end DocShell.Literal
