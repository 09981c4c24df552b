import DocShell.Proofs.Reading

set_option autoImplicit false

/-! # The spellings of a numeral

`Spelled t n` says that the text `t` is the numeral `n`: a sign, a whole number without leading
zeros, a fraction and an exponent, of which only the whole number has to be there. The scanner
finds such a text at the beginning of what it reads (`spelled_of_scan`), and it finds a given
one if nothing follows that would continue it (`scan_of_spelled`).
-/

namespace DocShell.Numeral

variable {cs rest : List Char}

/-! ## The parts -/

/-- A run of at least one decimal digit. -/
def IsRun (ds : List Char) : Prop :=
  ds ≠ [] ∧ ds.all Char.isDigit = true

/-- A minus sign or nothing. -/
inductive SignSpelled : List Char → Bool → Prop
  | absent : SignSpelled [] false
  | minus : SignSpelled ['-'] true

/-- A point and digits, or nothing. -/
inductive FractionSpelled : List Char → List Char → Prop
  | absent : FractionSpelled [] []
  | digits {ds : List Char} (hds : IsRun ds) : FractionSpelled ('.' :: ds) ds

/-- The sign of an exponent. -/
inductive ExponentSignSpelled : List Char → Bool → Prop
  | sign {t : List Char} {negative : Bool} (h : SignSpelled t negative) :
      ExponentSignSpelled t negative
  | plus : ExponentSignSpelled ['+'] false

/-- The letter, a sign and digits, or nothing. -/
inductive ExponentSpelled : List Char → Option Int → Prop
  | absent : ExponentSpelled [] none
  | digits {letter : Char} {sign ds : List Char} {negative : Bool}
      (hletter : letter = 'e' ∨ letter = 'E') (hsign : ExponentSignSpelled sign negative)
      (hds : IsRun ds) :
      ExponentSpelled (letter :: sign ++ ds)
        (some (if negative then -(Text.decimalValue ds : Int) else Text.decimalValue ds))

/-- A numeral and its text. -/
inductive Spelled : List Char → Numeral → Prop
  | parts {sign fraction exponent : List Char} {n : Numeral}
      (hsign : SignSpelled sign n.negative) (hwhole : IsRun n.whole)
      (hzero : ¬(n.whole.head? = some '0' ∧ 1 < n.whole.length))
      (hfraction : FractionSpelled fraction n.fraction)
      (hexponent : ExponentSpelled exponent n.exponent) :
      Spelled (sign ++ n.whole ++ fraction ++ exponent) n

/-- A text that does not continue a numeral. -/
def IsEnd (rest : List Char) : Prop :=
  ∀ c ∈ rest.head?, c.isDigit = false ∧ c ≠ '.' ∧ c ≠ 'e' ∧ c ≠ 'E'

/-- A text that does not begin with a digit. -/
def NoDigit (rest : List Char) : Prop :=
  ∀ c ∈ rest.head?, c.isDigit = false

/-! ## A given part is found -/

theorem digits_append {ds : List Char} (hds : ds.all Char.isDigit = true) (hrest : NoDigit rest) :
    digits (ds ++ rest) = (ds, rest) := by
  have hall : ∀ c ∈ ds, c.isDigit = true := by simpa using hds
  rw [digits, List.takeWhile_append_of_pos hall, List.dropWhile_append_of_pos hall]
  cases rest with
  | nil => simp
  | cons c rest =>
      have hc : c.isDigit = false := hrest c (by simp)
      simp [hc]

theorem sign_append {t : List Char} {negative : Bool} (h : SignSpelled t negative)
    (hrest : rest.head? ≠ some '-') : sign (t ++ rest) = (negative, rest) := by
  cases h with
  | minus => rfl
  | absent =>
      rw [List.nil_append]
      unfold sign
      split
      · simp at hrest
      · rfl

theorem IsRun.digits_append {ds : List Char} (hds : IsRun ds) (hrest : NoDigit rest) :
    digits (ds ++ rest) = (ds, rest) :=
  Numeral.digits_append hds.2 hrest

/-- A run begins with a digit, hence with no sign and no point. -/
theorem IsRun.exists_cons {ds : List Char} (hds : IsRun ds) :
    ∃ c more, ds = c :: more ∧ c.isDigit = true := by
  obtain ⟨hne, hall⟩ := hds
  obtain ⟨c, more, rfl⟩ := List.exists_cons_of_ne_nil hne
  rw [List.all_cons, Bool.and_eq_true] at hall
  exact ⟨c, more, rfl, hall.1⟩

theorem IsRun.head?_ne {ds : List Char} (hds : IsRun ds) {c : Char} (hc : c.isDigit = false) :
    (ds ++ rest).head? ≠ some c := by
  obtain ⟨d, more, rfl, hd⟩ := hds.exists_cons
  rw [List.cons_append, List.head?_cons]
  rintro ⟨rfl⟩
  rw [hc] at hd
  contradiction

theorem fractionPart_append {t ds : List Char} (h : FractionSpelled t ds) (hrest : NoDigit rest)
    (hpoint : rest.head? ≠ some '.') : fractionPart (t ++ rest) = some (ds, rest) := by
  cases h with
  | absent =>
      rw [List.nil_append]
      unfold fractionPart
      split
      · simp at hpoint
      · rfl
  | digits hds =>
      rw [List.cons_append, fractionPart, hds.digits_append hrest]
      split
      · rename_i hnil
        exact absurd (Prod.mk.inj hnil).1 hds.1
      · rename_i hcons
        rw [hcons]

theorem exponentSign_append {t : List Char} {negative : Bool}
    (h : ExponentSignSpelled t negative) (hplus : rest.head? ≠ some '+')
    (hminus : rest.head? ≠ some '-') : exponentSign (t ++ rest) = (negative, rest) := by
  cases h with
  | plus => rfl
  | sign h =>
      have hread := sign_append h hminus
      cases h with
      | minus => rfl
      | absent =>
          rw [List.nil_append] at *
          unfold exponentSign
          split
          · simp at hplus
          · exact hread

theorem exponentPart_append {t : List Char} {e : Option Int} (h : ExponentSpelled t e)
    (hrest : IsEnd rest) : exponentPart (t ++ rest) = some (e, rest) := by
  cases h with
  | absent =>
      cases rest with
      | nil => rfl
      | cons c rest =>
          obtain ⟨-, -, he, hE⟩ := hrest c (by simp)
          simp [exponentPart, he, hE]
  | @digits letter sign ds negative hletter hsign hds =>
      have hnodigit : NoDigit rest := fun c hc => (hrest c hc).1
      have hplus : (ds ++ rest).head? ≠ some '+' := hds.head?_ne (by decide)
      have hminus : (ds ++ rest).head? ≠ some '-' := hds.head?_ne (by decide)
      have hread := exponentSign_append hsign hplus hminus
      have hsplit : letter :: sign ++ ds ++ rest = letter :: (sign ++ (ds ++ rest)) := by simp
      rw [hsplit, exponentPart, if_pos hletter, exponentDigits, hread]
      simp only [hds.digits_append hnodigit]
      split
      · rename_i hnil
        exact absurd (Prod.mk.inj hnil).1 hds.1
      · rename_i hcons
        obtain ⟨rfl, rfl⟩ := Prod.mk.inj hcons
        rfl

theorem FractionSpelled.noDigit {t ds : List Char} (h : FractionSpelled t ds)
    (hrest : NoDigit rest) : NoDigit (t ++ rest) := by
  cases h with
  | absent => exact hrest
  | digits hds =>
      intro c hc
      obtain rfl : '.' = c := by simpa using hc
      decide

/-- Neither an exponent nor the end of a numeral continues a run of digits or a fraction. -/
theorem ExponentSpelled.head {t : List Char} {e : Option Int} (h : ExponentSpelled t e)
    (hrest : IsEnd rest) : ∀ c ∈ (t ++ rest).head?, c.isDigit = false ∧ c ≠ '.' := by
  cases h with
  | absent =>
      intro c hc
      exact ⟨(hrest c hc).1, (hrest c hc).2.1⟩
  | @digits letter sign ds negative hletter hsign hds =>
      intro c hc
      obtain rfl : letter = c := by simpa using hc
      rcases hletter with rfl | rfl <;> decide

/-! ## What is found is a part -/

theorem exists_sign (cs : List Char) :
    ∃ t, SignSpelled t (sign cs).1 ∧ cs = t ++ (sign cs).2 := by
  unfold sign
  split
  · exact ⟨['-'], .minus, rfl⟩
  · exact ⟨[], .absent, rfl⟩

theorem exists_digits {ds : List Char} (h : digits cs = (ds, rest)) (hne : ds ≠ []) :
    IsRun ds ∧ cs = ds ++ rest := by
  rw [digits, Prod.mk.injEq] at h
  obtain ⟨rfl, rfl⟩ := h
  exact ⟨⟨hne, List.all_takeWhile⟩, List.takeWhile_append_dropWhile.symm⟩

theorem exists_fraction {ds : List Char} (h : fractionPart cs = some (ds, rest)) :
    ∃ t, FractionSpelled t ds ∧ cs = t ++ rest := by
  unfold fractionPart at h
  split at h
  · split at h
    · contradiction
    · rename_i ds' rest' hne hdigits
      obtain ⟨rfl, rfl⟩ := Prod.mk.inj (Option.some.inj h)
      obtain ⟨hrun, rfl⟩ := exists_digits hdigits (by simpa using hne)
      exact ⟨_, .digits hrun, rfl⟩
  · obtain ⟨rfl, rfl⟩ := Prod.mk.inj (Option.some.inj h)
    exact ⟨[], .absent, rfl⟩

theorem exists_exponentSign (cs : List Char) :
    ∃ t, ExponentSignSpelled t (exponentSign cs).1 ∧ cs = t ++ (exponentSign cs).2 := by
  unfold exponentSign
  split
  · exact ⟨['+'], .plus, rfl⟩
  · obtain ⟨t, ht, hcs⟩ := exists_sign _
    exact ⟨t, .sign ht, hcs⟩

theorem exists_exponent {e : Option Int} (h : exponentPart cs = some (e, rest)) :
    ∃ t, ExponentSpelled t e ∧ cs = t ++ rest := by
  unfold exponentPart at h
  split at h
  · rename_i letter more
    split at h
    · rename_i hletter
      obtain ⟨sign, hsign, hmore⟩ := exists_exponentSign more
      simp only [exponentDigits] at h
      split at h
      · contradiction
      · rename_i ds after hne hdigits
        obtain ⟨rfl, rfl⟩ := Prod.mk.inj (Option.some.inj h)
        obtain ⟨hrun, hafter⟩ := exists_digits hdigits (by simpa using hne)
        refine ⟨_, .digits hletter hsign hrun, ?_⟩
        rw [List.cons_append, List.cons_append, List.append_assoc, ← hafter, ← hmore]
    · obtain ⟨rfl, rfl⟩ := Prod.mk.inj (Option.some.inj h)
      exact ⟨[], .absent, rfl⟩
  · obtain ⟨rfl, rfl⟩ := Prod.mk.inj (Option.some.inj h)
    exact ⟨[], .absent, rfl⟩

/-! ## Numerals -/

theorem spelled_of_scan {n : Numeral} (h : scan cs = some (n, rest)) :
    ∃ t, Spelled t n ∧ cs = t ++ rest := by
  obtain ⟨s, hs, hcs⟩ := exists_sign cs
  simp only [scan] at h
  split at h
  · contradiction
  · rename_i hwhole
    simp only [bind, Option.bind_eq_some_iff, pure, Option.some.injEq, Prod.mk.injEq] at h
    obtain ⟨⟨fraction, cs₁⟩, hfraction, ⟨exponent, cs₂⟩, hexponent, rfl, rfl⟩ := h
    rw [not_or] at hwhole
    have hpair : digits (sign cs).2 = ((digits (sign cs).2).1, (digits (sign cs).2).2) := rfl
    obtain ⟨hrun, hdigits⟩ := exists_digits hpair (fun hnil => hwhole.1 (by simp [hnil]))
    obtain ⟨f, hf, hcs₁⟩ := exists_fraction hfraction
    obtain ⟨e, he, hcs₂⟩ := exists_exponent hexponent
    refine ⟨_, .parts hs hrun hwhole.2 hf he, ?_⟩
    simp only [List.append_assoc]
    rw [← hcs₂, ← hcs₁, ← hdigits, ← hcs]

theorem scan_of_spelled {t : List Char} {n : Numeral} (h : Spelled t n) (hrest : IsEnd rest) :
    scan (t ++ rest) = some (n, rest) := by
  cases h with
  | @parts t fraction exponent n hsign hwhole hzero hfraction hexponent =>
      -- Each part ends where the next one begins, since that does not continue it.
      have hend := hexponent.head hrest
      have hnodigit : NoDigit (exponent ++ rest) := fun c hc => (hend c hc).1
      have hpoint : (exponent ++ rest).head? ≠ some '.' := fun hc => (hend '.' hc).2 rfl
      have hminus : (n.whole ++ (fraction ++ (exponent ++ rest))).head? ≠ some '-' :=
        hwhole.head?_ne (by decide)
      have hstart : ¬(n.whole.isEmpty = true ∨
          n.whole.head? = some '0' ∧ 1 < n.whole.length) := by
        rw [not_or, List.isEmpty_iff]
        exact ⟨hwhole.1, hzero⟩
      simp only [List.append_assoc, scan, sign_append hsign hminus,
        hwhole.digits_append (hfraction.noDigit hnodigit), if_neg hstart,
        fractionPart_append hfraction hnodigit hpoint, Option.bind_eq_bind, Option.bind_some,
        exponentPart_append hexponent hrest]
      rfl

/-! ## The first and the last character -/

theorem SignSpelled.eq_or_eq {t : List Char} {negative : Bool} (h : SignSpelled t negative) :
    t = [] ∨ t = ['-'] := by
  cases h with
  | absent => exact .inl rfl
  | minus => exact .inr rfl

/-- A numeral begins with its sign or with a digit. -/
theorem Spelled.exists_cons {t : List Char} {n : Numeral} (h : Spelled t n) :
    ∃ c more, t = c :: more ∧ (c = '-' ∨ c.isDigit = true) := by
  cases h with
  | parts hsign hwhole =>
      obtain ⟨c, more, hc, hdigit⟩ := hwhole.exists_cons
      rcases hsign.eq_or_eq with rfl | rfl
      · rw [hc]
        exact ⟨c, _, rfl, .inr hdigit⟩
      · exact ⟨'-', _, rfl, .inl rfl⟩

/-- A text that ends with a digit. -/
def EndsWithDigit (t : List Char) : Prop :=
  ∃ front c, t = front ++ [c] ∧ c.isDigit = true

theorem EndsWithDigit.append {t : List Char} (h : EndsWithDigit t) (front : List Char) :
    EndsWithDigit (front ++ t) := by
  obtain ⟨more, c, rfl, hc⟩ := h
  exact ⟨front ++ more, c, by rw [List.append_assoc], hc⟩

theorem IsRun.endsWithDigit {ds : List Char} (hds : IsRun ds) : EndsWithDigit ds := by
  obtain ⟨hne, hall⟩ := hds
  refine ⟨ds.dropLast, ds.getLast hne, (List.dropLast_append_getLast hne).symm, ?_⟩
  exact List.all_eq_true.mp hall _ (List.getLast_mem hne)

theorem FractionSpelled.nil_or_endsWithDigit {t ds : List Char} (h : FractionSpelled t ds) :
    t = [] ∨ EndsWithDigit t := by
  cases h with
  | absent => exact .inl rfl
  | digits hds => exact .inr (hds.endsWithDigit.append ['.'])

theorem ExponentSpelled.nil_or_endsWithDigit {t : List Char} {e : Option Int}
    (h : ExponentSpelled t e) : t = [] ∨ EndsWithDigit t := by
  cases h with
  | absent => exact .inl rfl
  | @digits letter sign ds negative hletter hsign hds =>
      exact .inr (hds.endsWithDigit.append (letter :: sign))

/-- A numeral ends with a digit. -/
theorem Spelled.endsWithDigit {t : List Char} {n : Numeral} (h : Spelled t n) :
    EndsWithDigit t := by
  cases h with
  | parts hsign hwhole hzero hfraction hexponent =>
      rcases hexponent.nil_or_endsWithDigit with rfl | hend
      · rw [List.append_nil]
        rcases hfraction.nil_or_endsWithDigit with rfl | hend
        · rw [List.append_nil]
          exact hwhole.endsWithDigit.append _
        · exact hend.append _
      · exact hend.append _

/-! ## The characters of a numeral -/

/-- Digits, signs, the point and the letter of an exponent. -/
def isNumeralChar (c : Char) : Bool :=
  c.isDigit || ['-', '+', '.', 'e', 'E'].contains c

theorem IsRun.all_isNumeralChar {ds : List Char} (hds : IsRun ds) :
    ds.all isNumeralChar = true := by
  refine List.all_eq_true.mpr fun c hc => ?_
  rw [isNumeralChar, List.all_eq_true.mp hds.2 c hc, Bool.true_or]

theorem SignSpelled.all_isNumeralChar {t : List Char} {negative : Bool}
    (h : SignSpelled t negative) : t.all isNumeralChar = true := by
  cases h with
  | absent => rfl
  | minus => rfl

theorem FractionSpelled.all_isNumeralChar {t ds : List Char} (h : FractionSpelled t ds) :
    t.all isNumeralChar = true := by
  cases h with
  | absent => rfl
  | digits hds => exact hds.all_isNumeralChar

theorem ExponentSignSpelled.all_isNumeralChar {t : List Char} {negative : Bool}
    (h : ExponentSignSpelled t negative) : t.all isNumeralChar = true := by
  cases h with
  | sign h => exact h.all_isNumeralChar
  | plus => rfl

theorem ExponentSpelled.all_isNumeralChar {t : List Char} {e : Option Int}
    (h : ExponentSpelled t e) : t.all isNumeralChar = true := by
  cases h with
  | absent => rfl
  | digits hletter hsign hds =>
      rw [List.all_append, hds.all_isNumeralChar, List.all_cons, hsign.all_isNumeralChar]
      rcases hletter with rfl | rfl
      · rfl
      · rfl

theorem Spelled.all_isNumeralChar {t : List Char} {n : Numeral} (h : Spelled t n) :
    t.all isNumeralChar = true := by
  cases h with
  | parts hsign hwhole _ hfraction hexponent =>
      rw [List.all_append, List.all_append, List.all_append, hsign.all_isNumeralChar,
        hwhole.all_isNumeralChar, hfraction.all_isNumeralChar, hexponent.all_isNumeralChar]
      rfl

/-! ## The reader -/

theorem outcome_read_iff {v : Value} :
    outcome (read cs) = .ok (v, rest) ↔
      ∃ n, scan cs = some (n, rest) ∧ n.toValue? = some v := by
  unfold read
  split
  · rename_i h
    simp [h]
  · rename_i n after h
    split
    · rename_i w hw
      simp [h, hw, and_comm]
    · rename_i hw
      simp [h, hw]

end DocShell.Numeral
