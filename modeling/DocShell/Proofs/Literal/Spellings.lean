import DocShell.Proofs.Literal.Language

set_option autoImplicit false

/-! # Strings decode exactly their spellings

`Spelling` lists the ways to write one character in a string, and `Spells` puts them one after the
other, with line breaks after a backslash between them. Both speak of characters and their codes
only, not of how strings are read. They are the pieces that the reader takes (`spelled_iff`), so a
text between two quotes is a literal for a string if and only if it spells that string.

What has been spelled is read as that, whatever follows (`outcome_body_append`). A text therefore
cannot be saved by what comes after it: a raw line break, and one half of a surrogate pair
without the other, are refused wherever they stand.
-/

namespace DocShell.Quoted

open Text (hexValue? hexNumber? isHex isBlank)

variable {quote : Char} {cs digits front rest opening b s : List Char} {code n : Nat}

/-! ## Hexadecimal numbers -/

/-- The hexadecimal digits in the order of their values. -/
def lowerDigits : List Char := "0123456789abcdef".toList

/-- The same in upper case. -/
def upperDigits : List Char := "0123456789ABCDEF".toList

/-- The digit has the value, in lower or in upper case. -/
def IsDigitFor (c : Char) (value : Nat) : Prop :=
  lowerDigits[value]? = some c ∨ upperDigits[value]? = some c

/-- The text is a hexadecimal number, the most significant digit first. -/
def IsHexFor (digits : List Char) (code : Nat) : Prop :=
  ∃ values, List.Forall₂ IsDigitFor digits values ∧ code = Nat.ofDigits 16 values.reverse

theorem IsDigitFor.lt {c : Char} {value : Nat} (h : IsDigitFor c value) : value < 16 := by
  rcases h with h | h
  · exact (List.getElem?_eq_some_iff.mp h).1
  · exact (List.getElem?_eq_some_iff.mp h).1

theorem isDigitFor_iff {c : Char} {value : Nat} :
    IsDigitFor c value ↔ hexValue? c = some value := by
  constructor
  · intro h
    have hall : ∀ n < 16, lowerDigits[n]?.all (hexValue? · == some n) = true ∧
        upperDigits[n]?.all (hexValue? · == some n) = true := by
      decide
    obtain ⟨hlower, hupper⟩ := hall value h.lt
    rcases h with h | h
    · simpa [h] using hlower
    · simpa [h] using hupper
  · intro h
    -- A digit is one of the first characters of ASCII, of which there are few enough to try all.
    have hall : ∀ n < 0x67, (hexValue? (Char.ofNat n)).all (fun value =>
        lowerDigits[value]? == some (Char.ofNat n) ||
          upperDigits[value]? == some (Char.ofNat n)) = true := by
      decide +kernel
    have hhex : isHex c = true := by rw [isHex, h, Option.isSome_some]
    have hc := hall c.toNat (Nat.lt_succ_of_le (Text.toNat_of_isHex hhex).2)
    rw [Char.ofNat_toNat, h] at hc
    simpa [IsDigitFor] using hc

/-- Reading on from a number that has been read multiplies it. -/
theorem foldl_hexValue {values : List Nat} (h : List.Forall₂ IsDigitFor digits values) (m : Nat) :
    digits.foldl (fun n d => 16 * n + (hexValue? d).getD 0) m =
      Nat.ofDigits 16 values.reverse + 16 ^ digits.length * m := by
  induction h generalizing m with
  | nil => simp
  | @cons d value digits values hd hdigits ih =>
      rw [List.foldl_cons, ih, isDigitFor_iff.mp hd, Option.getD_some, List.reverse_cons,
        Nat.ofDigits_append, List.length_reverse, ← hdigits.length_eq, Nat.ofDigits_singleton,
        List.length_cons]
      ring

theorem exists_values (h : digits.all isHex = true) :
    ∃ values, List.Forall₂ IsDigitFor digits values := by
  induction digits with
  | nil => exact ⟨[], .nil⟩
  | cons d digits ih =>
      rw [List.all_cons, Bool.and_eq_true] at h
      obtain ⟨value, hvalue⟩ := Option.isSome_iff_exists.mp h.1
      obtain ⟨values, hvalues⟩ := ih h.2
      exact ⟨value :: values, .cons (isDigitFor_iff.mpr hvalue) hvalues⟩

theorem all_isHex_of_forall₂ {values : List Nat} (h : List.Forall₂ IsDigitFor digits values) :
    digits.all isHex = true := by
  induction h with
  | nil => rfl
  | cons hd _ ih => rw [List.all_cons, ih, isHex, isDigitFor_iff.mp hd, Option.isSome_some]; rfl

theorem hexNumber?_eq_some_iff (hlength : digits.length = n) :
    hexNumber? n digits = some code ↔ IsHexFor digits code := by
  subst hlength
  simp only [hexNumber?, List.take_length, true_and]
  constructor
  · intro h
    split_ifs at h with hhex
    obtain ⟨values, hvalues⟩ := exists_values hhex
    refine ⟨values, hvalues, ?_⟩
    rw [foldl_hexValue hvalues, Nat.mul_zero, Nat.add_zero, Option.some.injEq] at h
    exact h.symm
  · rintro ⟨values, hvalues, rfl⟩
    rw [if_pos (all_isHex_of_forall₂ hvalues), foldl_hexValue hvalues, Nat.mul_zero, Nat.add_zero]

instance (digits : List Char) (code : Nat) : Decidable (IsHexFor digits code) :=
  decidable_of_iff _ (hexNumber?_eq_some_iff rfl)

theorem lt_of_forall₂ {values : List Nat} (h : List.Forall₂ IsDigitFor digits values) :
    ∀ value ∈ values, value < 16 := by
  induction h with
  | nil => simp
  | cons hd _ ih => exact List.forall_mem_cons.mpr ⟨hd.lt, ih⟩

theorem IsHexFor.lt (h : IsHexFor digits code) : code < 16 ^ digits.length := by
  obtain ⟨values, hvalues, rfl⟩ := h
  have hlt : ∀ value ∈ values.reverse, value < 16 := by simpa using lt_of_forall₂ hvalues
  have hbound := Nat.ofDigits_lt_base_pow_length (by decide) hlt
  rwa [List.length_reverse, ← hvalues.length_eq] at hbound

/-! ## Spellings -/

/-- The letters that stand for a control character after a backslash. -/
def letterEscapes : List (Char × Char) :=
  [('n', '\n'), ('t', '\t'), ('r', '\r'), ('b', '\x08'), ('f', '\x0c'), ('v', '\x0b'),
    ('0', '\x00')]

/-- A code of the first half of a surrogate pair. -/
def IsHigh (code : Nat) : Prop := 0xD800 ≤ code ∧ code < 0xDC00

/-- A code of the second half of a surrogate pair. -/
def IsLow (code : Nat) : Prop := 0xDC00 ≤ code ∧ code < 0xE000

instance (code : Nat) : Decidable (IsHigh code) := inferInstanceAs (Decidable (_ ∧ _))

instance (code : Nat) : Decidable (IsLow code) := inferInstanceAs (Decidable (_ ∧ _))

/-- A way to write one character in a string. No character has a surrogate for its code, so the
four digits of a code point escape are none. -/
inductive Spelling (quote : Char) : List Char → Char → Prop
  | self {c : Char} (hquote : c ≠ quote) (hslash : c ≠ '\\') (hfeed : c ≠ '\n')
      (hreturn : c ≠ '\r') : Spelling quote [c] c
  | letter {l c : Char} (h : (l, c) ∈ letterEscapes) : Spelling quote ['\\', l] c
  | byte {digits : List Char} {c : Char} (hlength : digits.length = 2)
      (hcode : IsHexFor digits c.toNat) : Spelling quote ('\\' :: 'x' :: digits) c
  | code {digits : List Char} {c : Char} (hlength : digits.length = 4)
      (hcode : IsHexFor digits c.toNat) : Spelling quote ('\\' :: 'u' :: digits) c
  | pair {digits₁ digits₂ : List Char} {high low : Nat} {c : Char} (hlength₁ : digits₁.length = 4)
      (hlength₂ : digits₂.length = 4) (hcode₁ : IsHexFor digits₁ high)
      (hcode₂ : IsHexFor digits₂ low) (hhigh : IsHigh high) (hlow : IsLow low)
      (hc : c.toNat = 0x10000 + (high - 0xD800) * 0x400 + (low - 0xDC00)) :
      Spelling quote ('\\' :: 'u' :: digits₁ ++ '\\' :: 'u' :: digits₂) c
  | other {c : Char} (h : c ∉ "ntrbfv0xu\n\r".toList) : Spelling quote ['\\', c] c

/-- The ways to go on in the next line, which spell nothing. -/
def continuations : List (List Char) := [['\\', '\n'], ['\\', '\r'], ['\\', '\r', '\n']]

/-- Spellings and continuations one after the other, and the characters that they spell. A
carriage return and the line feed after it are one line break. -/
inductive Spells (quote : Char) : List Char → List Char → Prop
  | nil : Spells quote [] []
  | char {p b s : List Char} {c : Char} (hp : Spelling quote p c) (hb : Spells quote b s) :
      Spells quote (p ++ b) (c :: s)
  | continuation {p b s : List Char} (hp : p ∈ continuations)
      (hbreak : p = ['\\', '\r'] → b.head? ≠ some '\n') (hb : Spells quote b s) :
      Spells quote (p ++ b) s

/-! ## The pieces that the reader takes -/

theorem isHighSurrogate_iff : isHighSurrogate code = true ↔ IsHigh code := by
  simp [isHighSurrogate, IsHigh]

theorem isLowSurrogate_iff : isLowSurrogate code = true ↔ IsLow code := by
  simp [isLowSurrogate, IsLow]

theorem toNat_ofNat {n : Nat} (h : n.isValidChar) : (Char.ofNat n).toNat = n := by
  rw [Char.ofNat, dif_pos h]
  rfl

theorem isValidChar_toNat (c : Char) : c.toNat.isValidChar := c.valid

theorem escaped_of_mem {l c : Char} (h : (l, c) ∈ letterEscapes) :
    escaped l = c ∧ l ≠ 'x' ∧ l ≠ 'u' ∧ l ≠ '\n' ∧ l ≠ '\r' := by
  have hall : ∀ p ∈ letterEscapes,
      escaped p.1 = p.2 ∧ p.1 ≠ 'x' ∧ p.1 ≠ 'u' ∧ p.1 ≠ '\n' ∧ p.1 ≠ '\r' := by
    decide
  exact hall (l, c) h

/-- A backslash and another character than `x`, `u` and a line break spell one character. -/
theorem spelling_escaped {c : Char} (hx : c ≠ 'x') (hu : c ≠ 'u') (hfeed : c ≠ '\n')
    (hreturn : c ≠ '\r') : Spelling quote ['\\', c] (escaped c) := by
  by_cases hletter : c ∈ letterEscapes.map Prod.fst
  · obtain ⟨⟨l, d⟩, hmem, rfl⟩ := List.mem_map.mp hletter
    rw [(escaped_of_mem hmem).1]
    exact .letter hmem
  · have hother : c ∉ "ntrbfv0xu\n\r".toList := by
      simp [letterEscapes] at hletter
      simp [hletter, hx, hu, hfeed, hreturn]
    have hself : escaped c = c := by
      simp [letterEscapes] at hletter
      simp [escaped, hletter]
    rw [hself]
    exact .other hother

/-- A piece of a string is a spelling of its character, or a continuation. -/
theorem piece_iff {p out : List Char} :
    Piece quote p out ↔ (∃ c, out = [c] ∧ Spelling quote p c) ∨ out = [] ∧ p ∈ continuations := by
  constructor
  · intro h
    cases h with
    | plain hquote hslash hfeed hreturn => exact .inl ⟨_, rfl, .self hquote hslash hfeed hreturn⟩
    | escape hx hu hfeed hreturn => exact .inl ⟨_, rfl, spelling_escaped hx hu hfeed hreturn⟩
    | @byte digits code hlength hcode =>
        have hhex := (hexNumber?_eq_some_iff hlength).mp hcode
        have hlt := hhex.lt
        rw [hlength] at hlt
        refine .inl ⟨_, rfl, .byte hlength ?_⟩
        rwa [toNat_ofNat (.inl (by omega))]
    | @code digits code hlength hcode hhigh hlow =>
        have hhex := (hexNumber?_eq_some_iff hlength).mp hcode
        have hlt := hhex.lt
        rw [hlength] at hlt
        have hvalid : code.isValidChar := by
          simp [isHighSurrogate, isLowSurrogate] at hhigh hlow
          unfold Nat.isValidChar
          omega
        refine .inl ⟨_, rfl, .code hlength ?_⟩
        rwa [toNat_ofNat hvalid]
    | @pair digits₁ digits₂ high low hlength₁ hlength₂ hcode₁ hcode₂ hhigh hlow =>
        rw [isHighSurrogate_iff] at hhigh
        rw [isLowSurrogate_iff] at hlow
        have hvalid : (0x10000 + (high - 0xD800) * 0x400 + (low - 0xDC00)).isValidChar := by
          unfold IsHigh at hhigh
          unfold IsLow at hlow
          unfold Nat.isValidChar
          omega
        exact .inl ⟨_, rfl, .pair hlength₁ hlength₂ ((hexNumber?_eq_some_iff hlength₁).mp hcode₁)
          ((hexNumber?_eq_some_iff hlength₂).mp hcode₂) hhigh hlow (toNat_ofNat hvalid)⟩
    | feed => exact .inr ⟨rfl, by simp [continuations]⟩
    | carriage => exact .inr ⟨rfl, by simp [continuations]⟩
    | carriageFeed => exact .inr ⟨rfl, by simp [continuations]⟩
  · rintro (⟨c, rfl, h⟩ | ⟨rfl, h⟩)
    · cases h with
      | self hquote hslash hfeed hreturn => exact .plain hquote hslash hfeed hreturn
      | letter h =>
          obtain ⟨rfl, hx, hu, hfeed, hreturn⟩ := escaped_of_mem h
          exact .escape hx hu hfeed hreturn
      | byte hlength hcode =>
          have hpiece : Piece quote _ _ :=
            .byte hlength ((hexNumber?_eq_some_iff hlength).mpr hcode)
          rwa [Char.ofNat_toNat] at hpiece
      | code hlength hcode =>
          have hvalid := isValidChar_toNat c
          unfold Nat.isValidChar at hvalid
          have hpiece : Piece quote _ _ :=
            .code hlength ((hexNumber?_eq_some_iff hlength).mpr hcode)
              (by simp [isHighSurrogate]; omega) (by simp [isLowSurrogate]; omega)
          rwa [Char.ofNat_toNat] at hpiece
      | @pair digits₁ digits₂ high low c hlength₁ hlength₂ hcode₁ hcode₂ hhigh hlow hc =>
          have hpiece : Piece quote _ _ :=
            .pair hlength₁ hlength₂ ((hexNumber?_eq_some_iff hlength₁).mpr hcode₁)
              ((hexNumber?_eq_some_iff hlength₂).mpr hcode₂) (isHighSurrogate_iff.mpr hhigh)
              (isLowSurrogate_iff.mpr hlow)
          rwa [joinSurrogates, ← hc, Char.ofNat_toNat] at hpiece
      | @other c h =>
          have hself : escaped c = c := by
            simp at h
            simp [escaped, h]
          have hpiece : Piece quote ['\\', c] [escaped c] := by
            simp at h
            exact .escape (by simp [h]) (by simp [h]) (by simp [h]) (by simp [h])
          rwa [hself] at hpiece
    · simp only [continuations, List.mem_cons, List.not_mem_nil, or_false] at h
      rcases h with rfl | rfl | rfl
      · exact .feed
      · exact .carriage
      · exact .carriageFeed

/-- The second character of a spelling that begins with a backslash is no line break. -/
theorem Spelling.ne_carriage {p : List Char} {c : Char} (h : Spelling quote p c) :
    p ≠ ['\\', '\r'] := by
  rintro rfl
  cases h with
  | letter h => simp [letterEscapes] at h
  | other h => simp at h

theorem spelled_iff : Spelled quote b s ↔ Spells quote b s := by
  constructor
  · intro h
    induction h with
    | nil => exact .nil
    | @cons p out b s hp hbreak _ ih =>
        rcases piece_iff.mp hp with ⟨c, rfl, hspelling⟩ | ⟨rfl, hcontinuation⟩
        · exact .char hspelling ih
        · exact .continuation hcontinuation hbreak ih
  · intro h
    induction h with
    | nil => exact .nil
    | @char p b s c hp _ ih =>
        exact .cons (piece_iff.mpr (.inl ⟨c, rfl, hp⟩)) (fun h => absurd h hp.ne_carriage) ih
    | @continuation p b s hp hbreak _ ih =>
        have hpiece : Piece quote p [] := piece_iff.mpr (.inr ⟨rfl, hp⟩)
        exact .cons hpiece hbreak ih

/-! ## What cannot go on a string -/

/-- A text that no spelling begins with, after what has been spelled: a line break that stands for
itself, or one half of a surrogate pair without the other. -/
inductive Unspellable (front : List Char) : List Char → Prop
  | carriage {rest : List Char} : Unspellable front ('\r' :: rest)
  | feed {rest : List Char} (hfront : ¬['\\', '\r'] <:+ front) : Unspellable front ('\n' :: rest)
  | low {digits rest : List Char} {code : Nat} (hlength : digits.length = 4)
      (hcode : IsHexFor digits code) (hlow : IsLow code) :
      Unspellable front ('\\' :: 'u' :: digits ++ rest)
  | high {digits rest : List Char} {code : Nat} (hlength : digits.length = 4)
      (hcode : IsHexFor digits code) (hhigh : IsHigh code)
      (hrest : ∀ digits₂ rest₂ low, rest = '\\' :: 'u' :: digits₂ ++ rest₂ →
        digits₂.length = 4 → IsHexFor digits₂ low → ¬IsLow low) :
      Unspellable front ('\\' :: 'u' :: digits ++ rest)

/-- What has been spelled is read as that, whatever follows. Only a carriage return at its end
would take a line feed with it. -/
theorem outcome_body_append (hquote : isQuote quote = true) (h : Spelled quote front s)
    (hbreak : ['\\', '\r'] <:+ front → cs.head? ≠ some '\n') :
    outcome (body quote opening (front ++ cs)) =
      (outcome (body quote opening cs)).map (Prod.map (s ++ ·) id) := by
  induction h with
  | nil =>
      rw [List.nil_append]
      cases outcome (body quote opening cs) <;> rfl
  | @cons p out b s hp hpbreak _ ih =>
      have hnext : p = ['\\', '\r'] → (b ++ cs).head? ≠ some '\n' := by
        intro hpeq
        cases b with
        | nil => exact hbreak (by simp [hpeq])
        | cons c b => simpa using hpbreak hpeq
      have hrest := ih fun hsuffix => hbreak (hsuffix.trans (List.suffix_append p b))
      rw [List.append_assoc, outcome_body_piece hquote hp hnext, hrest]
      rcases outcome (body quote opening cs) with fault | ⟨t, after⟩
      · rfl
      · simp [Except.map]

/-- If a text is spelled and its beginning is too, the rest is. -/
theorem Spelled.exists_of_append (hquote : isQuote quote = true) {s' : List Char}
    (hfront : Spelled quote front s) (hbreak : ['\\', '\r'] <:+ front → rest.head? ≠ some '\n')
    (h : Spelled quote (front ++ rest) s') : ∃ s, Spelled quote rest s := by
  have hread : outcome (body quote [] (front ++ rest ++ [quote])) = .ok (s', []) :=
    (outcome_body_iff hquote).mpr ⟨front ++ rest, rfl, h⟩
  have hquoteBreak : ['\\', '\r'] <:+ front → (rest ++ [quote]).head? ≠ some '\n' := by
    intro hsuffix
    cases rest with
    | nil => rcases isQuote_iff.mp hquote with rfl | rfl <;> simp
    | cons c rest => simpa using hbreak hsuffix
  rw [List.append_assoc, outcome_body_append hquote hfront hquoteBreak] at hread
  obtain ⟨s₂, hs₂, -⟩ := map_eq_ok_iff.mp hread
  obtain ⟨b, hb, hspelled⟩ := (outcome_body_iff hquote).mp hs₂
  have heq : rest = b := List.append_cancel_right hb
  exact ⟨s₂, heq ▸ hspelled⟩

theorem Spelled.exists_piece (h : Spelled quote b s) (hne : b ≠ []) :
    ∃ p out rest, Piece quote p out ∧ b = p ++ rest := by
  cases h with
  | nil => contradiction
  | @cons p out b s hp => exact ⟨p, out, b, hp, rfl⟩

theorem Piece.exists_cons {p out : List Char} (h : Piece quote p out) :
    ∃ c more, p = c :: more ∧ c ≠ '\n' ∧ c ≠ '\r' := by
  cases h with
  | plain _ _ hfeed hreturn => exact ⟨_, [], rfl, hfeed, hreturn⟩
  | _ => exact ⟨'\\', _, rfl, by decide, by decide⟩

theorem IsHexFor.unique {code' : Nat} (h : IsHexFor digits code) (h' : IsHexFor digits code') :
    code = code' := by
  rw [← hexNumber?_eq_some_iff rfl] at h h'
  exact Option.some.inj (h.symm.trans h')

/-- After the escape of a surrogate that is not completed, nothing can be spelled. -/
theorem not_piece_of_surrogate {p out after : List Char} (hlength : digits.length = 4)
    (hcode : IsHexFor digits code) (hsurrogate : IsHigh code ∨ IsLow code)
    (hrest : IsHigh code → ∀ digits₂ rest₂ low, rest = '\\' :: 'u' :: digits₂ ++ rest₂ →
      digits₂.length = 4 → IsHexFor digits₂ low → ¬IsLow low)
    (h : '\\' :: 'u' :: digits ++ rest = p ++ after) : ¬Piece quote p out := by
  intro hp
  cases hp with
  | plain _ hslash => exact hslash (List.cons.inj h).1.symm
  | escape _ hu => simp [hu.symm] at h
  | byte => simp at h
  | @code digits' code' hlength' hcode' hhigh hlow =>
      simp only [List.cons_append, List.cons.injEq, true_and] at h
      obtain ⟨rfl, -⟩ := List.append_inj h (hlength.trans hlength'.symm)
      obtain rfl := hcode.unique ((hexNumber?_eq_some_iff hlength').mp hcode')
      rcases hsurrogate with hsurrogate | hsurrogate
      · rw [isHighSurrogate_iff.mpr hsurrogate] at hhigh
        contradiction
      · rw [isLowSurrogate_iff.mpr hsurrogate] at hlow
        contradiction
  | @pair digits₁ digits₂ high low hlength₁ hlength₂ hcode₁ hcode₂ hhigh hlow =>
      simp only [List.cons_append, List.append_assoc, List.cons.injEq, true_and] at h
      obtain ⟨rfl, hnext⟩ := List.append_inj h (hlength.trans hlength₁.symm)
      obtain rfl := hcode.unique ((hexNumber?_eq_some_iff hlength₁).mp hcode₁)
      exact hrest (isHighSurrogate_iff.mp hhigh) digits₂ after low hnext hlength₂
        ((hexNumber?_eq_some_iff hlength₂).mp hcode₂) (isLowSurrogate_iff.mp hlow)
  | feed => simp at h
  | carriage => simp at h
  | carriageFeed => simp at h

theorem Unspellable.not_spelled (h : Unspellable front rest) : ¬Spelled quote rest s := by
  intro hs
  have hne : rest ≠ [] := by cases h <;> simp
  obtain ⟨p, out, after, hp, heq⟩ := hs.exists_piece hne
  cases h with
  | carriage =>
      obtain ⟨c, more, rfl, -, hreturn⟩ := hp.exists_cons
      exact hreturn (List.cons.inj heq).1.symm
  | feed =>
      obtain ⟨c, more, rfl, hfeed, -⟩ := hp.exists_cons
      exact hfeed (List.cons.inj heq).1.symm
  | low hlength hcode hlow =>
      refine not_piece_of_surrogate hlength hcode (.inr hlow) (fun hhigh => ?_) heq hp
      unfold IsHigh at hhigh
      unfold IsLow at hlow
      omega
  | high hlength hcode hhigh hrest =>
      exact not_piece_of_surrogate hlength hcode (.inl hhigh) (fun _ => hrest) heq hp

/-! ## Strings as literals -/

/-- A text between two equal quotes is a literal for a string if it spells one, and no literal
otherwise. -/
theorem parse_quoted_eq_ok_iff (hquote : isQuote quote = true) {v : Value} :
    Literal.parse (String.ofList (quote :: b ++ [quote])) = .ok v ↔
      ∃ s, v = .string s ∧ Spelled quote b s.toList := by
  have hspace : Text.isSpace quote = false := Literal.isSpace_of_isQuote hquote
  have hblank : isBlank (quote :: b ++ [quote]) = false := by
    rw [List.cons_append, Text.isBlank_cons, hspace, Bool.false_and]
  have htrim : Text.trimStart (quote :: b ++ [quote]) = quote :: (b ++ [quote]) :=
    Text.trimStart_cons_of_not_space hspace _
  rw [Literal.parse_of_not_blank (by rwa [String.toList_ofList]), String.toList_ofList,
    ← Literal.whole_eq_ok_iff_derives, Literal.whole_eq_ok_iff,
    Literal.outcome_value_quote htrim hquote]
  constructor
  · rintro ⟨rest, hread, hrest⟩
    obtain ⟨s, hs, rfl⟩ := map_eq_ok_iff.mp hread
    obtain ⟨b', hb', hspelled⟩ := (outcome_text_iff hquote).mp hs
    -- The text ends with a quote, so if something followed the string it would not be blank.
    rcases List.eq_nil_or_concat rest with rfl | ⟨front, c, rfl⟩
    · obtain rfl := List.append_cancel_right hb'
      exact ⟨s, rfl, hspelled⟩
    · rw [List.concat_eq_append, ← List.cons_append, ← List.append_assoc] at hb'
      obtain ⟨-, hc⟩ := List.append_inj' hb' rfl
      obtain rfl := (List.cons.inj hc).1
      simp [hspace] at hrest
  · rintro ⟨s, rfl, hspelled⟩
    have hread : outcome (text quote (b ++ [quote])) = .ok (s, []) :=
      (outcome_text_iff hquote).mpr ⟨b, rfl, hspelled⟩
    exact ⟨[], map_eq_ok_iff.mpr ⟨s, hread, rfl⟩, Text.isBlank_nil⟩

theorem Unspellable.head?_ne (h : Unspellable front rest) :
    ['\\', '\r'] <:+ front → rest.head? ≠ some '\n' := by
  intro hsuffix
  cases h with
  | feed hfront => exact absurd hsuffix hfront
  | carriage => simp
  | low => simp
  | high => simp

/-- Between two equal quotes, a text is a literal for a string if and only if it spells that
string. A raw line break, or one half of a surrogate pair without the other, is never accepted,
whatever was spelled before it and whatever follows. -/
theorem parse_string_iff_spells (hquote : quote = '"' ∨ quote = '\x27') (b : List Char) :
    (∀ s : String, Literal.parse (String.ofList (quote :: b ++ [quote])) = .ok (.string s) ↔
      Spells quote b s.toList) ∧
    ∀ front rest s, b = front ++ rest → Spells quote front s → Unspellable front rest →
      ∃ error, Literal.parse (String.ofList (quote :: b ++ [quote])) = .error error := by
  rw [← isQuote_iff] at hquote
  constructor
  · intro s
    rw [parse_quoted_eq_ok_iff hquote, ← spelled_iff]
    constructor
    · rintro ⟨t, heq, ht⟩
      obtain rfl := Value.string.inj heq
      exact ht
    · intro hs
      exact ⟨s, rfl, hs⟩
  · rintro front rest s rfl hfront hrest
    cases hparse : Literal.parse (String.ofList (quote :: (front ++ rest) ++ [quote])) with
    | error error => exact ⟨error, rfl⟩
    | ok v =>
        obtain ⟨t, -, ht⟩ := (parse_quoted_eq_ok_iff hquote).mp hparse
        obtain ⟨s', hs'⟩ := (spelled_iff.mpr hfront).exists_of_append hquote hrest.head?_ne ht
        exact absurd hs' hrest.not_spelled

/-- A byte escape, a surrogate pair in digits of both cases, a line break and an escaped quote; and
a high surrogate with no low one after it. -/
theorem parse_string_iff_spells_pair :
    Literal.parse (String.ofList
        ('\x27' :: "\\x41\\uD83d\\uDe00\\\r\n\\\x27".toList ++ ['\x27'])) =
      .ok (.string "A😀'") ∧
    ∃ error, Literal.parse (String.ofList
        ('\x27' :: ("\\\r".toList ++ "\\ud83d\\u0041".toList) ++ ['\x27'])) =
      .error error := by
  have hbyte : Spelling '\x27' ('\\' :: 'x' :: "41".toList) 'A' := .byte rfl (by decide +kernel)
  have hhigh : IsHexFor "D83d".toList 0xD83D := by decide +kernel
  have hlow : IsHexFor "De00".toList 0xDE00 := by decide +kernel
  have hpair : Spelling '\x27'
      ('\\' :: 'u' :: "D83d".toList ++ '\\' :: 'u' :: "De00".toList) '😀' :=
    .pair rfl rfl hhigh hlow (by decide) (by decide) (by decide)
  have hquote : Spelling '\x27' ['\\', '\x27'] '\x27' := .other (by decide)
  have hbreak : ['\\', '\r', '\n'] ∈ continuations := by decide
  have hreturn : ['\\', '\r'] ∈ continuations := by decide
  have hspells := Spells.char hbyte (.char hpair
    (.continuation hbreak (by simp) (.char hquote .nil)))
  have hfront : Spells '\x27' "\\\r".toList [] := .continuation hreturn (by simp) .nil
  have hrest : Unspellable "\\\r".toList ('\\' :: 'u' :: "d83d".toList ++ "\\u0041".toList) := by
    refine .high rfl (by decide +kernel : IsHexFor _ 0xD83D) (by decide) ?_
    intro digits₂ rest₂ low heq hlength hcode
    have hdigits : "0041".toList ++ [] = digits₂ ++ rest₂ := (List.cons.inj (List.cons.inj heq).2).2
    obtain ⟨rfl, -⟩ := List.append_inj hdigits hlength.symm
    obtain rfl := hcode.unique (by decide +kernel : IsHexFor _ 0x41)
    decide
  exact ⟨((parse_string_iff_spells (.inr rfl) _).1 _).mpr hspells,
    (parse_string_iff_spells (.inr rfl) _).2 _ _ _ rfl hfront hrest⟩

end DocShell.Quoted
