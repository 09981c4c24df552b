import DocShell.Proofs.Reading

set_option autoImplicit false

/-! # The spellings of a string

What stands between two quotes is a list of pieces. A piece spells one character, or none
where it continues the string in the next line. `Spelled` says what a text spells, without
saying how it is read, and `outcome_body_iff` that the reader of strings reads exactly that. A
string therefore ends at its closing quote whatever follows.
-/

namespace DocShell.Quoted

variable {quote c : Char} {cs rest opening b s : List Char}

/-! ## Pieces -/

/-- A piece of a string and what it spells. -/
inductive Piece (quote : Char) : List Char → List Char → Prop
  | plain {c : Char} (hquote : c ≠ quote) (hslash : c ≠ '\\') (hfeed : c ≠ '\n')
      (hreturn : c ≠ '\r') : Piece quote [c] [c]
  | escape {c : Char} (hx : c ≠ 'x') (hu : c ≠ 'u') (hfeed : c ≠ '\n') (hreturn : c ≠ '\r') :
      Piece quote ['\\', c] [escaped c]
  | byte {digits : List Char} {code : Nat} (hlen : digits.length = 2)
      (hcode : Text.hexNumber? 2 digits = some code) :
      Piece quote ('\\' :: 'x' :: digits) [Char.ofNat code]
  | code {digits : List Char} {code : Nat} (hlen : digits.length = 4)
      (hcode : Text.hexNumber? 4 digits = some code) (hhigh : isHighSurrogate code = false)
      (hlow : isLowSurrogate code = false) :
      Piece quote ('\\' :: 'u' :: digits) [Char.ofNat code]
  | pair {digits₁ digits₂ : List Char} {high low : Nat} (hlen₁ : digits₁.length = 4)
      (hlen₂ : digits₂.length = 4) (hcode₁ : Text.hexNumber? 4 digits₁ = some high)
      (hcode₂ : Text.hexNumber? 4 digits₂ = some low) (hhigh : isHighSurrogate high = true)
      (hlow : isLowSurrogate low = true) :
      Piece quote ('\\' :: 'u' :: digits₁ ++ '\\' :: 'u' :: digits₂) [joinSurrogates high low]
  | feed : Piece quote ['\\', '\n'] []
  | carriage : Piece quote ['\\', '\r'] []
  | carriageFeed : Piece quote ['\\', '\r', '\n'] []

/-- The pieces of a string one after the other, and what they spell. A carriage return and the
line feed after it are one line break. -/
inductive Spelled (quote : Char) : List Char → List Char → Prop
  | nil : Spelled quote [] []
  | cons {p out b s : List Char} (hp : Piece quote p out)
      (hbreak : p = ['\\', '\r'] → b.head? ≠ some '\n') (hb : Spelled quote b s) :
      Spelled quote (p ++ b) (out ++ s)

/-! ## What the reader does with a piece -/

theorem hexNumber?_append {n : Nat} {digits : List Char} (h : digits.length = n)
    (rest : List Char) : Text.hexNumber? n (digits ++ rest) = Text.hexNumber? n digits := by
  subst h
  simp [Text.hexNumber?]

/-- The digits of a number stand at the beginning of the text. -/
theorem exists_digits {n code : Nat} (h : Text.hexNumber? n cs = some code) :
    ∃ digits, digits.length = n ∧ cs = digits ++ cs.drop n ∧
      Text.hexNumber? n digits = some code := by
  have hlen : (cs.take n).length = n := by
    simp only [Text.hexNumber?] at h
    split at h
    · rename_i hd
      exact hd.1
    · contradiction
  refine ⟨cs.take n, hlen, (List.take_append_drop n cs).symm, ?_⟩
  rw [← hexNumber?_append hlen (cs.drop n), List.take_append_drop]
  exact h

theorem outcome_escape_cons :
    outcome (escape opening (c :: cs)) =
      if c = 'x' then (byteEscape cs).map (Prod.map some id)
      else if c = 'u' then (codeEscape cs).map (Prod.map some id)
      else if c = '\n' then .ok (none, cs)
      else if c = '\r' then .ok (none, afterReturn cs)
      else .ok (some (escaped c), cs) := by
  rw [escape]
  split_ifs
  · split <;> rename_i h <;> simp [h, Except.map]
  · split <;> rename_i h <;> simp [h, Except.map]
  · rfl
  · rfl
  · rfl

theorem outcome_body_cons :
    outcome (body quote opening (c :: cs)) =
      if c = quote then .ok ([], cs)
      else if c = '\n' ∨ c = '\r' then .error ⟨.unterminatedString, opening⟩
      else if c = '\\' then
        (outcome (escape opening cs)).bind fun (spelled, after) =>
          (outcome (body quote opening after)).map (Prod.map (spelled.toList ++ ·) id)
      else (outcome (body quote opening cs)).map (Prod.map (c :: ·) id) := by
  rw [body]
  split_ifs
  · rfl
  · rfl
  · cases hescape : escape opening cs with
    | error fault => rfl
    | ok spelled =>
        simp only [outcome_ok, Except.bind]
        cases body quote opening spelled.rest <;> rfl
  · cases body quote opening cs <;> rfl

theorem byteEscape_eq_ok_iff {d : Char} :
    byteEscape cs = .ok (d, rest) ↔
      ∃ digits code, digits.length = 2 ∧ Text.hexNumber? 2 digits = some code ∧
        d = Char.ofNat code ∧ cs = digits ++ rest := by
  unfold byteEscape
  constructor
  · intro h
    split at h
    · contradiction
    · rename_i code hcode
      obtain ⟨digits, hlen, hcs, hdigits⟩ := exists_digits hcode
      simp only [Except.ok.injEq, Prod.mk.injEq] at h
      exact ⟨digits, code, hlen, hdigits, h.1.symm, h.2 ▸ hcs⟩
  · rintro ⟨digits, code, hlen, hcode, rfl, rfl⟩
    rw [hexNumber?_append hlen, hcode]
    simp [← hlen]

/-- The digits of a code point escape, without or with the second half of a surrogate pair. -/
theorem codeEscape_eq_ok_iff {d : Char} :
    codeEscape cs = .ok (d, rest) ↔
      (∃ digits code, digits.length = 4 ∧ Text.hexNumber? 4 digits = some code ∧
        isHighSurrogate code = false ∧ isLowSurrogate code = false ∧ d = Char.ofNat code ∧
        cs = digits ++ rest) ∨
      ∃ digits₁ digits₂ high low, digits₁.length = 4 ∧ digits₂.length = 4 ∧
        Text.hexNumber? 4 digits₁ = some high ∧ Text.hexNumber? 4 digits₂ = some low ∧
        isHighSurrogate high = true ∧ isLowSurrogate low = true ∧
        d = joinSurrogates high low ∧ cs = digits₁ ++ '\\' :: 'u' :: digits₂ ++ rest := by
  constructor
  · intro h
    unfold codeEscape at h
    split at h
    · contradiction
    · rename_i high hcode
      obtain ⟨digits, hlen, hcs, hdigits⟩ := exists_digits hcode
      split at h
      · rename_i hhigh
        split at h
        -- After a high surrogate there has to be the escape of a low one.
        · rename_i ds hdrop
          split at h
          · contradiction
          · rename_i low hcode₂
            obtain ⟨digits₂, hlen₂, hds, hdigits₂⟩ := exists_digits hcode₂
            split at h
            · rename_i hlow
              simp only [Except.ok.injEq, Prod.mk.injEq] at h
              refine .inr ⟨digits, digits₂, high, low, hlen, hlen₂, hdigits, hdigits₂, hhigh, hlow,
                h.1.symm, ?_⟩
              rw [hcs, hdrop, hds, h.2]
              simp
            · contradiction
        · contradiction
      · rename_i hhigh
        split at h
        · contradiction
        · rename_i hlow
          simp only [Except.ok.injEq, Prod.mk.injEq] at h
          exact .inl ⟨digits, high, hlen, hdigits, by simpa using hhigh, by simpa using hlow,
            h.1.symm, h.2 ▸ hcs⟩
  · rintro (⟨digits, code, hlen, hcode, hhigh, hlow, rfl, rfl⟩ |
      ⟨digits₁, digits₂, high, low, hlen₁, hlen₂, hcode₁, hcode₂, hhigh, hlow, hd, rfl⟩)
    · unfold codeEscape
      rw [hexNumber?_append hlen, hcode]
      simp [hhigh, hlow, ← hlen]
    · have hdrop : (digits₁ ++ '\\' :: 'u' :: digits₂ ++ rest).drop 4 =
          '\\' :: 'u' :: (digits₂ ++ rest) := by simp [← hlen₁]
      unfold codeEscape
      rw [List.append_assoc, hexNumber?_append hlen₁, ← List.append_assoc, hcode₁]
      simp only [hhigh, if_true, hdrop]
      rw [hexNumber?_append hlen₂, hcode₂, hd]
      simp [hlow, ← hlen₂]

/-- What follows a backslash is the rest of a piece. -/
theorem piece_of_escape (quote : Char) {spelled : Option Char}
    (h : outcome (escape opening cs) = .ok (spelled, rest)) :
    ∃ p, Piece quote ('\\' :: p) spelled.toList ∧ cs = p ++ rest ∧
      (p = ['\r'] → rest.head? ≠ some '\n') := by
  cases cs with
  | nil => simp [escape] at h
  | cons c cs =>
      rw [outcome_escape_cons] at h
      split_ifs at h with hx hu hfeed hreturn
      · obtain ⟨d, hd, rfl⟩ := map_eq_ok_iff.mp h
        obtain ⟨digits, code, hlen, hcode, rfl, rfl⟩ := byteEscape_eq_ok_iff.mp hd
        exact ⟨'x' :: digits, .byte hlen hcode, by simp [hx], by simp⟩
      · obtain ⟨d, hd, rfl⟩ := map_eq_ok_iff.mp h
        rcases codeEscape_eq_ok_iff.mp hd with
          ⟨digits, code, hlen, hcode, hhigh, hlow, rfl, rfl⟩ |
          ⟨digits₁, digits₂, high, low, hlen₁, hlen₂, hcode₁, hcode₂, hhigh, hlow, hjoin, rfl⟩
        · exact ⟨'u' :: digits, .code hlen hcode hhigh hlow, by simp [hu], by simp⟩
        · refine ⟨'u' :: digits₁ ++ '\\' :: 'u' :: digits₂, ?_, by simp [hu], by simp⟩
          rw [hjoin]
          exact .pair hlen₁ hlen₂ hcode₁ hcode₂ hhigh hlow
      · simp only [Except.ok.injEq, Prod.mk.injEq] at h
        obtain ⟨rfl, rfl⟩ := h
        exact ⟨['\n'], .feed, by simp [hfeed], by simp⟩
      · simp only [Except.ok.injEq, Prod.mk.injEq] at h
        obtain ⟨rfl, rfl⟩ := h
        -- A line feed right after the carriage return belongs to it.
        unfold afterReturn
        split
        · exact ⟨['\r', '\n'], .carriageFeed, by simp [hreturn], by simp⟩
        · rename_i hnot
          refine ⟨['\r'], .carriage, by simp [hreturn], fun _ hhead => ?_⟩
          obtain ⟨more, rfl⟩ := List.head?_eq_some_iff.mp hhead
          exact hnot more rfl
      · simp only [Except.ok.injEq, Prod.mk.injEq] at h
        obtain ⟨rfl, rfl⟩ := h
        exact ⟨[c], .escape hx hu hfeed hreturn, by simp, by simp [hreturn]⟩

/-- A piece is read as a whole, and gives what it spells. -/
theorem outcome_body_piece (hquote : isQuote quote = true) {p out : List Char}
    (hp : Piece quote p out) (hbreak : p = ['\\', '\r'] → cs.head? ≠ some '\n') :
    outcome (body quote opening (p ++ cs)) =
      (outcome (body quote opening cs)).map (Prod.map (out ++ ·) id) := by
  have hslash : '\\' ≠ quote := by rcases isQuote_iff.mp hquote with rfl | rfl <;> decide
  cases hp with
  | plain hq hs hf hr =>
      simp [outcome_body_cons, hq, hs, hf, hr]
  | escape hx hu hf hr =>
      simp [outcome_body_cons, outcome_escape_cons, hslash, hx, hu, hf, hr, Except.bind]
  | @byte digits code hlen hcode =>
      have h : byteEscape (digits ++ cs) = .ok (Char.ofNat code, cs) :=
        byteEscape_eq_ok_iff.mpr ⟨digits, code, hlen, hcode, rfl, rfl⟩
      simp [outcome_body_cons, outcome_escape_cons, hslash, h, Except.bind, Except.map]
  | @code digits code hlen hcode hhigh hlow =>
      have h : codeEscape (digits ++ cs) = .ok (Char.ofNat code, cs) :=
        codeEscape_eq_ok_iff.mpr (.inl ⟨digits, code, hlen, hcode, hhigh, hlow, rfl, rfl⟩)
      simp [outcome_body_cons, outcome_escape_cons, hslash, h, Except.bind, Except.map]
  | @pair digits₁ digits₂ high low hlen₁ hlen₂ hcode₁ hcode₂ hhigh hlow =>
      have h : codeEscape (digits₁ ++ '\\' :: 'u' :: (digits₂ ++ cs)) =
          .ok (joinSurrogates high low, cs) :=
        codeEscape_eq_ok_iff.mpr (.inr ⟨digits₁, digits₂, high, low, hlen₁, hlen₂, hcode₁, hcode₂,
          hhigh, hlow, rfl, by simp⟩)
      simp [outcome_body_cons, outcome_escape_cons, hslash, h, Except.bind, Except.map]
  | feed =>
      simp [outcome_body_cons, outcome_escape_cons, hslash, Except.bind]
  | carriage =>
      have hafter : afterReturn cs = cs := by
        unfold afterReturn
        split
        · simp at hbreak
        · rfl
      simp [outcome_body_cons, outcome_escape_cons, hslash, Except.bind, hafter]
  | carriageFeed =>
      simp [outcome_body_cons, outcome_escape_cons, hslash, Except.bind, afterReturn]

/-! ## Strings -/

/-- The reader of strings reads the pieces up to the first quote that is no part of one. -/
theorem outcome_body_iff (hquote : isQuote quote = true) :
    outcome (body quote opening cs) = .ok (s, rest) ↔
      ∃ b, cs = b ++ quote :: rest ∧ Spelled quote b s := by
  constructor
  · intro h
    -- A piece may be several characters long, so the induction is on the length of the text.
    induction hn : cs.length using Nat.strong_induction_on generalizing cs s with
    | _ n ih =>
        cases cs with
        | nil => simp [body] at h
        | cons c cs =>
            rw [outcome_body_cons] at h
            split_ifs at h with hend hbreak hslash
            · simp only [Except.ok.injEq, Prod.mk.injEq] at h
              obtain ⟨rfl, rfl⟩ := h
              exact ⟨[], by simp [hend], .nil⟩
            · cases hescape : outcome (escape opening cs) with
              | error fault => simp [hescape, Except.bind] at h
              | ok result =>
                  obtain ⟨spelled, after⟩ := result
                  simp only [hescape, Except.bind] at h
                  obtain ⟨s', hs', rfl⟩ := map_eq_ok_iff.mp h
                  have hlen := length_lt_of_outcome hescape
                  obtain ⟨b, rfl, hb⟩ := ih after.length (by simp at hn; omega) hs' rfl
                  obtain ⟨p, hp, rfl, hp'⟩ := piece_of_escape quote hescape
                  refine ⟨'\\' :: p ++ b, by simp [hslash], .cons hp ?_ hb⟩
                  intro hreturn hhead
                  refine hp' (List.cons.inj hreturn).2 ?_
                  rw [List.head?_append, hhead]
                  rfl
            · obtain ⟨s', hs', rfl⟩ := map_eq_ok_iff.mp h
              obtain ⟨b, rfl, hb⟩ := ih cs.length (by simp at hn; omega) hs' rfl
              rw [not_or] at hbreak
              have hpiece : Piece quote [c] [c] := .plain hend hslash hbreak.1 hbreak.2
              exact ⟨[c] ++ b, rfl, .cons hpiece (by simp [hslash]) hb⟩
  · rintro ⟨b, rfl, hb⟩
    induction hb with
    | nil => simp [outcome_body_cons]
    | @cons p out b s hp hbreak hb ih =>
        -- What follows the piece is another piece or the closing quote, which is no line feed.
        have hnext : p = ['\\', '\r'] → (b ++ quote :: rest).head? ≠ some '\n' := by
          intro hp
          cases b with
          | nil =>
              rcases isQuote_iff.mp hquote with rfl | rfl <;> simp
          | cons c b => simpa using hbreak hp
        rw [List.append_assoc, outcome_body_piece hquote hp hnext, ih]
        rfl

/-- A string ends at its closing quote, whatever follows. -/
theorem outcome_text_iff (hquote : isQuote quote = true) {t : String} :
    outcome (text quote cs) = .ok (t, rest) ↔
      ∃ b, cs = b ++ quote :: rest ∧ Spelled quote b t.toList := by
  rw [text, outcome_map_map_within, map_eq_ok_iff]
  constructor
  · rintro ⟨s, hs, rfl⟩
    rw [String.toList_ofList]
    exact (outcome_body_iff hquote).mp hs
  · intro h
    exact ⟨t.toList, (outcome_body_iff hquote).mpr h, String.ofList_toList⟩

end DocShell.Quoted
