import DocShell.Proofs.Cursor.Mirror
import DocShell.Proofs.Literal.Faults
import DocShell.Proofs.Literal.Spellings

set_option autoImplicit false

/-! # Strings, numbers and words in place

Each action of a token mirrors the reader of that token. The cursor is moved by one byte for a
digit and for a character of a word, by two for the beginning of an escape, and by the number of
its digits for a hexadecimal number; all of these are characters of one byte.
-/

namespace DocShell

namespace Text

variable {c : Char} {cs source part rest : List Char} {stop : Nat}

theorem utf8Size_eq_one (h : c.toNat < 0x80) : c.utf8Size = 1 := by
  rw [Char.utf8Size_eq_one_iff, UInt32.le_iff_toNat_le]
  exact Nat.le_of_lt_succ h

theorem isHex_of_isDigit (h : c.isDigit = true) : isHex c = true := by
  rw [isHex, hexValue?, if_pos h, Option.isSome_some]

/-- A slice that begins with a tail is the beginning of that tail. -/
theorem prefix_of_slice? (h : cs <:+ source)
    (hslice : slice? source (offsetOf source cs) stop = some part) : ∃ rest, cs = part ++ rest := by
  obtain ⟨before, rfl⟩ := h
  simp only [slice?, offsetOf_append, cut?_append, Option.bind_eq_bind, Option.bind_some] at hslice
  split_ifs at hslice
  obtain ⟨⟨front, rest⟩, hcut, hfront⟩ := Option.bind_eq_some_iff.mp hslice
  obtain rfl : front = part := Option.some.inj hfront
  exact ⟨rest, (eq_of_cut? hcut).1⟩

end Text

theorem Quoted.lt_of_hexNumber? {cs : List Char} {n code : Nat}
    (h : Text.hexNumber? n cs = some code) : code < 16 ^ n := by
  obtain ⟨digits, hlength, -, hdigits⟩ := exists_digits h
  have hlt := ((hexNumber?_eq_some_iff hlength).mp hdigits).lt
  rwa [hlength] at hlt

/-- The digits of a hexadecimal number are as many bytes. -/
theorem Quoted.size_of_hexNumber? {digits : List Char} {n code : Nat} (hlength : digits.length = n)
    (h : Text.hexNumber? n digits = some code) : Text.size digits = n := by
  obtain ⟨values, hvalues, -⟩ := (hexNumber?_eq_some_iff hlength).mp h
  rw [ObjectId.size_eq_length (all_isHex_of_forall₂ hvalues), hlength]

/-- The head of a text that is not of the form of a pattern. -/
theorem head?_ne_of_forall {c : Char} {cs : List Char} (h : ∀ rest, cs = c :: rest → False) :
    cs.head? ≠ some c := by
  intro hhead
  obtain ⟨rest, rfl⟩ := List.head?_eq_some_iff.mp hhead
  exact h rest rfl

namespace Cursor

variable {α β : Type} {source cs rest start : List Char} {quote c : Char} {d code n turns : Nat}

/-! ## Escapes -/

theorem charOf?_of_isValidChar (h : code.isValidChar) : charOf? code = some (Char.ofNat code) :=
  if_pos h

/-- The two halves of a pair make the code of a character. -/
theorem charOf?_of_pair {high low : Nat} (hhigh : Quoted.isHighSurrogate high = true)
    (hlow : Quoted.isLowSurrogate low = true) :
    charOf? (0x10000 + (high - 0xD800) * 0x400 + (low - 0xDC00)) =
      some (Quoted.joinSurrogates high low) := by
  simp only [Quoted.isHighSurrogate, Quoted.isLowSurrogate, Bool.and_eq_true,
    decide_eq_true_eq] at hhigh hlow
  rw [charOf?_of_isValidChar, Quoted.joinSurrogates]
  unfold Nat.isValidChar
  omega

/-- A code of four digits is that of a character if it is no half of a pair. -/
theorem isValidChar_of_lt (h : code < 16 ^ 4) (hhigh : ¬Quoted.isHighSurrogate code = true)
    (hlow : ¬Quoted.isLowSurrogate code = true) : code.isValidChar := by
  simp only [Quoted.isHighSurrogate, Quoted.isLowSurrogate, Bool.and_eq_true,
    decide_eq_true_eq] at hhigh hlow
  unfold Nat.isValidChar
  omega

theorem charOf?_of_isLowSurrogate (h : Quoted.isLowSurrogate code = true) :
    charOf? code = none := by
  simp only [Quoted.isLowSurrogate, Bool.and_eq_true, decide_eq_true_eq] at h
  unfold charOf? Nat.isValidChar
  rw [if_neg (by omega)]

theorem mirrors_takeHex (h : cs <:+ source) (hcode : Text.hexNumber? n cs = some code) :
    Mirrors source (takeHex source n) cs d d (.ok (some code, cs.drop n)) := by
  obtain ⟨digits, hlength, hcs, hdigits⟩ := Quoted.exists_digits hcode
  have hsize := Quoted.size_of_hexNumber? hlength hdigits
  rw [hcs] at h
  have hslice := Text.slice?_offsetOf h
  rw [← Text.offsetOf_add_size h, hsize, ← hcs] at hslice
  refine mirrors_here.andThen fun _ => ?_
  rw [hslice, Option.bind_some, hdigits]
  have hadvance := mirrors_advance h hsize (d := d)
  rw [← hcs] at hadvance
  exact hadvance.andThen fun _ => .pure (some code)

/-- Too few digits leave the cursor where it is, even if the slice would end inside of a
character. -/
theorem mirrors_takeHex_none (h : cs <:+ source) (hcode : Text.hexNumber? n cs = none) :
    Mirrors source (takeHex source n) cs d d (.ok (none, cs)) := by
  refine mirrors_here.andThen fun _ => ?_
  have hnone : (Text.slice? source (Text.offsetOf source cs) (Text.offsetOf source cs + n)).bind
      (Text.hexNumber? n) = none := by
    rw [Option.bind_eq_none_iff]
    intro part hslice
    rw [Option.eq_none_iff_forall_ne_some]
    intro code hpart
    obtain ⟨rest, rfl⟩ := Text.prefix_of_slice? h hslice
    obtain ⟨digits, hlength, hdigits, -⟩ := Quoted.exists_digits hpart
    rw [hdigits, List.append_assoc, Quoted.hexNumber?_append hlength] at hcode
    rw [hdigits, Quoted.hexNumber?_append hlength, hcode] at hpart
    contradiction
  rw [hnone]
  exact .pure none

theorem mirrors_byteEscape (h : cs <:+ source) :
    Mirrors source (byteEscape source) cs d d (Quoted.byteEscape cs) := by
  refine mirrors_here.andThen fun _ => ?_
  unfold Quoted.byteEscape
  cases hcode : Text.hexNumber? 2 cs with
  | none => exact (mirrors_takeHex_none h hcode).andThen fun _ => mirrors_refuseAt
  | some code =>
      have hvalid : code.isValidChar :=
        .inl (Nat.lt_trans (Quoted.lt_of_hexNumber? hcode) (by decide))
      refine (mirrors_takeHex h hcode).andThen fun _ => ?_
      rw [Option.bind_some, charOf?_of_isValidChar hvalid]
      exact .pure (Char.ofNat code)

theorem mirrors_hexQuad (h : cs <:+ source) (hcode : Text.hexNumber? 4 cs = some code) :
    Mirrors source (hexQuad source) cs d d (.ok (code, cs.drop 4)) :=
  mirrors_here.andThen fun _ => (mirrors_takeHex h hcode).andThen fun _ => .pure code

theorem mirrors_hexQuad_none (h : cs <:+ source) (hcode : Text.hexNumber? 4 cs = none) :
    Mirrors source (hexQuad source) cs d d (.error ⟨.badCodeEscape, cs⟩) :=
  mirrors_here.andThen fun _ => (mirrors_takeHex_none h hcode).andThen fun _ => mirrors_refuseAt

/-- The second half of a surrogate pair, after the four digits of the first, which begin at
`first`. -/
def lowHalf (first : List Char) : List Char → Except Fault (Nat × List Char)
  | '\\' :: 'u' :: cs =>
    match Text.hexNumber? 4 cs with
    | none => .error ⟨.badCodeEscape, cs⟩
    | some low =>
      if Quoted.isLowSurrogate low then .ok (low, cs.drop 4)
      else .error ⟨.unpairedSurrogate, first⟩
  | _ => .error ⟨.unpairedSurrogate, first⟩

theorem lowHalf_of_ne {first : List Char} (h : ∀ ds, cs = '\\' :: 'u' :: ds → False) :
    lowHalf first cs = .error ⟨.unpairedSurrogate, first⟩ := by
  unfold lowHalf
  split
  · exact (h _ rfl).elim
  · rfl

theorem isLowSurrogate_of_lowHalf {first : List Char} {low : Nat}
    (h : lowHalf first cs = .ok (low, rest)) : Quoted.isLowSurrogate low = true := by
  unfold lowHalf at h
  split at h
  · split at h
    · contradiction
    · split_ifs at h with hlow
      obtain ⟨rfl, -⟩ := Prod.mk.inj (Except.ok.inj h)
      exact hlow
  · contradiction

/-- The reader of code point escapes, by its two halves. -/
theorem codeEscape_eq (cs : List Char) :
    Quoted.codeEscape cs =
      match Text.hexNumber? 4 cs with
      | none => .error ⟨.badCodeEscape, cs⟩
      | some high =>
        if Quoted.isHighSurrogate high then
          (lowHalf cs (cs.drop 4)).map (Prod.map (Quoted.joinSurrogates high) id)
        else if Quoted.isLowSurrogate high then .error ⟨.badCodeEscape, cs⟩
        else .ok (Char.ofNat high, cs.drop 4) := by
  unfold Quoted.codeEscape
  cases Text.hexNumber? 4 cs with
  | none => rfl
  | some high =>
      dsimp only
      split_ifs
      · split
        · rename_i ds hds
          rw [hds, lowHalf]
          cases Text.hexNumber? 4 ds with
          | none => rfl
          | some low =>
              dsimp only
              split_ifs
              · rfl
              · rfl
        · rename_i hne
          rw [lowHalf_of_ne hne]
          rfl
      · rfl
      · rfl

theorem mirrors_lowSurrogate (h : cs <:+ source) :
    Mirrors source (lowSurrogate source (Text.offsetOf source start)) cs d d
      (lowHalf start cs) := by
  have htail : Mirrors source (tailFrom source (Text.offsetOf source cs)) cs d d (.ok (cs, cs)) :=
    mirrors_tailFrom h
  unfold lowHalf
  split
  · rename_i cs
    refine mirrors_here.andThen fun _ => htail.andThen fun _ => ?_
    have hmark : ['\\', 'u'] ++ cs <:+ source := h
    refine (mirrors_advance hmark rfl).andThen fun hcs => ?_
    cases hcode : Text.hexNumber? 4 cs with
    | none => exact (mirrors_hexQuad_none (hcs.trans h) hcode).stop _
    | some low =>
        refine (mirrors_hexQuad (hcs.trans h) hcode).andThen fun _ => ?_
        dsimp only
        split_ifs
        · exact .pure low
        · exact mirrors_refuseAt
  · rename_i hne
    have hbegins : ¬['\\', 'u'].isPrefixOf cs = true := by
      rw [List.isPrefixOf_iff_prefix]
      rintro ⟨rest, rfl⟩
      exact hne rest rfl
    refine mirrors_here.andThen fun _ => htail.andThen fun _ => ?_
    rw [if_neg hbegins]
    exact mirrors_refuseAt

theorem mirrors_codePoint (h : cs <:+ source) :
    Mirrors source (codePoint source (Text.offsetOf source cs)) cs d d
      (match Text.hexNumber? 4 cs with
      | none => .error ⟨.badCodeEscape, cs⟩
      | some high =>
        if Quoted.isHighSurrogate high then
          (lowHalf cs (cs.drop 4)).map
            (Prod.map (fun low => 0x10000 + (high - 0xD800) * 0x400 + (low - 0xDC00)) id)
        else .ok (high, cs.drop 4)) := by
  cases hhigh : Text.hexNumber? 4 cs with
  | none => exact (mirrors_hexQuad_none h hhigh).stop _
  | some high =>
      refine (mirrors_hexQuad h hhigh).andThen fun hdrop => ?_
      dsimp only
      split_ifs
      · exact (mirrors_lowSurrogate (hdrop.trans h)).map _
      · exact .pure high

/-- The code of an escape is that of a character unless it is half of a surrogate pair. -/
theorem mirrors_codeEscape (h : cs <:+ source) :
    Mirrors source (codeEscape source) cs d d (Quoted.codeEscape cs) := by
  refine mirrors_here.andThen fun _ => ?_
  have hpoint := mirrors_codePoint h (d := d)
  rw [codeEscape_eq]
  cases hcode : Text.hexNumber? 4 cs with
  | none =>
      rw [hcode] at hpoint
      exact hpoint.stop _
  | some high =>
      rw [hcode] at hpoint
      dsimp only at hpoint ⊢
      split_ifs at hpoint ⊢ with hhigh hlow
      · cases hpair : lowHalf cs (cs.drop 4) with
        | error fault =>
            rw [hpair] at hpoint
            exact hpoint.stop _
        | ok p =>
            rw [hpair] at hpoint
            simp only [Except.map, Prod.map, id] at hpoint
            refine hpoint.andThen fun _ => ?_
            rw [charOf?_of_pair hhigh (isLowSurrogate_of_lowHalf hpair)]
            exact .pure _
      · refine hpoint.andThen fun _ => ?_
        rw [charOf?_of_isLowSurrogate hlow]
        exact mirrors_refuseAt
      · refine hpoint.andThen fun _ => ?_
        have hvalid := isValidChar_of_lt (Quoted.lt_of_hexNumber? hcode) hhigh hlow
        rw [charOf?_of_isValidChar hvalid]
        exact .pure _

theorem mirrors_escape (h : cs <:+ source) :
    Mirrors source (escape source (Text.offsetOf source start)) cs d d
      (outcome (Quoted.escape start cs)) := by
  cases cs with
  | nil => exact mirrors_bump_nil.andThen fun _ => mirrors_refuseAt
  | cons c cs =>
      have hcs : cs <:+ source := (List.suffix_cons c cs).trans h
      refine (mirrors_bump_cons h).andThen fun _ => ?_
      rw [Quoted.outcome_escape_cons]
      dsimp only
      split_ifs
      · exact (mirrors_byteEscape hcs).map some
      · exact (mirrors_codeEscape hcs).map some
      · exact .pure none
      · unfold Quoted.afterReturn
        split
        · exact (mirrors_eat_cons hcs).andThen fun _ => .pure none
        · rename_i hne
          exact (mirrors_eat_of_ne hcs (head?_ne_of_forall hne)).andThen fun _ => .pure none
      · exact .pure (some (Quoted.escaped c))

/-! ## Strings -/

/-- What a reader of characters gives, after a string that has been read before. -/
def after (s : String) (result : Except Fault (List Char × List Char)) :
    Except Fault (String × List Char) :=
  result.map (Prod.map (fun t => s ++ String.ofList t) id)

theorem after_spelled (s : String) (spelled : Option Char)
    (result : Except Fault (List Char × List Char)) :
    after (spelled.elim s s.push) result =
      after s (result.map (Prod.map (spelled.toList ++ ·) id)) := by
  have happend : ∀ t : List Char, spelled.elim s s.push ++ String.ofList t =
      s ++ String.ofList (spelled.toList ++ t) := by
    intro t
    apply String.toList_injective
    cases spelled <;> simp
  simp only [after, map_map, happend]

theorem after_push (s : String) (c : Char) (result : Except Fault (List Char × List Char)) :
    after (s.push c) result = after s (result.map (Prod.map (c :: ·) id)) :=
  after_spelled s (some c) result

/-- The loop keeps the string that has been read, where the reader of tails puts each character
in front of what it reads next. -/
theorem mirrors_stringBody (h : Within source turns cs) (s : String) :
    Mirrors source (stringBody source quote (Text.offsetOf source start) turns s) cs d d
      (after s (outcome (Quoted.body quote start cs))) := by
  induction turns generalizing cs s with
  | zero => exact h.turns_ne_zero.elim
  | succ turns ih =>
      rw [stringBody]
      cases cs with
      | nil =>
          rw [Quoted.body]
          exact mirrors_bump_nil.andThen fun _ => mirrors_refuseAt
      | cons c cs =>
          refine (mirrors_bump_cons h.suffix).andThen fun hcs => ?_
          rw [Quoted.outcome_body_cons]
          dsimp only
          split_ifs
          · have hnil : s ++ String.ofList [] = s := by simp
            simp only [after, Except.map, Prod.map, id, hnil]
            exact .pure s
          · exact mirrors_refuseAt
          · have hescape : Mirrors source (escape source (Text.offsetOf source start)) cs d d _ :=
              mirrors_escape h.tail.suffix
            refine hescape.bind_map fun spelled rest hread hrest => ?_
            have hshorter := length_lt_of_outcome hread
            have hnext := h.step (hrest.trans hcs) (Nat.lt_succ_of_lt hshorter)
            show Mirrors _ _ _ _ _ (after s _)
            rw [← after_spelled]
            cases spelled with
            | none => exact ih hnext s
            | some e => exact ih hnext (s.push e)
          · rw [← after_push]
            exact ih (h.step hcs (Nat.lt_succ_self cs.length)) (s.push c)

theorem after_empty (result : Except Fault (List Char × List Char)) :
    after "" result = result.map (Prod.map String.ofList id) := by
  simp only [after, String.empty_append]

/-- A string is read from its first character on, whichever that is. -/
theorem mirrors_string_cons (h : Within source turns (c :: cs)) :
    Mirrors source (string source turns quote) (c :: cs) d d
      ((outcome (Quoted.body quote (c :: cs) cs)).map (Prod.map String.ofList id)) := by
  refine mirrors_here.andThen fun _ => (mirrors_bump_cons h.suffix).andThen fun _ => ?_
  rw [← after_empty]
  exact mirrors_stringBody h.tail ""

theorem mirrors_string_nil (h : Within source turns []) :
    Mirrors source (string source turns quote) [] d d (.error ⟨.unterminatedString, []⟩) := by
  have hbody : Mirrors source (stringBody source quote (Text.offsetOf source []) turns "") [] d d
      (after "" (outcome (Quoted.body quote [] []))) := mirrors_stringBody h ""
  rw [Quoted.body] at hbody
  exact mirrors_here.andThen fun _ => mirrors_bump_nil.andThen fun _ => hbody

theorem mirrors_string (h : Within source turns (quote :: cs)) :
    Mirrors source (string source turns quote) (quote :: cs) d d
      (outcome (Quoted.text quote cs)) := by
  rw [Quoted.text, outcome_map_map_within]
  exact mirrors_string_cons h

/-! ## Numbers -/

theorem size_digits (cs : List Char) :
    Text.size (Numeral.digits cs).1 = (Numeral.digits cs).1.length :=
  ObjectId.size_eq_length
    (List.all_eq_true.mpr fun _ hc => Text.isHex_of_isDigit (List.mem_takeWhile_imp hc))

theorem mirrors_takeDigits (h : Within source turns cs) :
    Mirrors source (takeDigits source turns) cs d d
      (.ok ((Numeral.digits cs).1.length, (Numeral.digits cs).2)) := by
  have hwidth : ∀ c : Char, c.isDigit = true → c.utf8Size = 1 :=
    fun c hc => Text.utf8Size_of_isHex (Text.isHex_of_isDigit hc)
  have hsplit : (Numeral.digits cs).1 ++ (Numeral.digits cs).2 = cs :=
    List.takeWhile_append_dropWhile
  have hadd := Text.offsetOf_add_size (hsplit.symm ▸ h.suffix)
  rw [hsplit, size_digits] at hadd
  have hcount : (Numeral.digits cs).1.length =
      Text.offsetOf source (Numeral.digits cs).2 - Text.offsetOf source cs := by
    omega
  rw [hcount]
  exact mirrors_here.andThen fun _ => (mirrors_skipWhile hwidth h).andThen fun _ =>
    mirrors_here.andThen fun _ => .pure _

theorem mirrors_someDigits {ds : List Char} (h : Within source turns cs)
    (hdigits : Numeral.digits cs = (ds, rest)) (hne : ds ≠ []) :
    Mirrors source (someDigits source turns n) cs d d (.ok ((), rest)) := by
  have htake := mirrors_takeDigits h (d := d)
  rw [hdigits] at htake
  refine htake.andThen fun _ => ?_
  rw [if_neg (List.length_eq_zero_iff.not.mpr hne)]
  exact .pure ()

theorem mirrors_someDigits_nil (h : Within source turns cs)
    (hdigits : Numeral.digits cs = ([], rest)) :
    Mirrors source (someDigits source turns (Text.offsetOf source start)) cs d d
      (.error ⟨.badNumber, start⟩) := by
  have htake := mirrors_takeDigits h (d := d)
  rw [hdigits] at htake
  exact htake.andThen fun _ => mirrors_refuseAt

/-- What is refused of a number is refused where the number begins. -/
def partOf (start : List Char) : Option (α × List Char) → Except Fault (Unit × List Char)
  | some (_, rest) => .ok ((), rest)
  | none => .error ⟨.badNumber, start⟩

theorem mirrors_fractionPart (h : Within source turns cs) :
    Mirrors source (fractionPart source turns (Text.offsetOf source start)) cs d d
      (partOf start (Numeral.fractionPart cs)) := by
  unfold Numeral.fractionPart
  split
  · rename_i cs
    refine (mirrors_eat_cons h.suffix).andThen fun _ => ?_
    rw [if_pos rfl]
    split
    · exact mirrors_someDigits_nil h.tail ‹_›
    · rename_i ds rest hne hdigits
      exact mirrors_someDigits h.tail hdigits (by simpa using hne)
  · rename_i hne
    exact (mirrors_eat_of_ne h.suffix (head?_ne_of_forall hne)).andThen fun _ => .pure ()

/-- An optional minus sign. -/
theorem mirrors_eat_minus (h : cs <:+ source) :
    Mirrors source (eat source '-') cs d d (.ok (Numeral.sign cs)) := by
  unfold Numeral.sign
  split
  · exact mirrors_eat_cons h
  · exact mirrors_eat_of_ne h (head?_ne_of_forall ‹_›)

theorem mirrors_exponentSign (h : cs <:+ source) :
    Mirrors source (exponentSign source) cs d d (.ok (Numeral.exponentSign cs)) := by
  unfold Numeral.exponentSign
  split
  · exact (mirrors_eat_cons h).andThen fun _ => .pure false
  · exact (mirrors_eat_of_ne h (head?_ne_of_forall ‹_›)).andThen fun _ => mirrors_eat_minus h

theorem mirrors_exponentPart (h : Within source turns cs) :
    Mirrors source (exponentPart source turns (Text.offsetOf source start)) cs d d
      (partOf start (Numeral.exponentPart cs)) := by
  refine (mirrors_peek h.suffix).andThen fun _ => ?_
  cases cs with
  | nil => exact .pure ()
  | cons c cs =>
      rw [List.head?_cons, Numeral.exponentPart]
      dsimp only
      split_ifs
      · refine (mirrors_bump_cons h.suffix).andThen fun _ => ?_
        rcases hread : Numeral.exponentSign cs with ⟨negative, after⟩
        have hsign := mirrors_exponentSign h.tail.suffix (d := d)
        rw [hread] at hsign
        refine hsign.andThen fun hafter => ?_
        simp only [Numeral.exponentDigits, hread]
        split
        · exact mirrors_someDigits_nil (h.tail.of_suffix hafter) ‹_›
        · rename_i ds rest hne hdigits
          exact mirrors_someDigits (h.tail.of_suffix hafter) hdigits (by simpa using hne)
      · exact .pure ()

theorem mirrors_wholePart (h : Within source turns cs) :
    Mirrors source (wholePart source turns (Text.offsetOf source start)) cs d d
      (let (whole, rest) := Numeral.digits (Numeral.sign cs).2
      if whole.isEmpty ∨ (whole.head? = some '0' ∧ 1 < whole.length) then
        .error ⟨.badNumber, start⟩
      else .ok ((), rest)) := by
  refine (mirrors_eat_minus h.suffix).andThen fun hsign => mirrors_here.andThen fun _ => ?_
  have hafter : Within source turns (Numeral.sign cs).2 := h.of_suffix hsign
  have htake := mirrors_takeDigits hafter (d := d)
  rcases hdigits : Numeral.digits (Numeral.sign cs).2 with ⟨whole, rest⟩
  rw [hdigits] at htake
  refine htake.andThen fun _ => ?_
  cases whole with
  | nil => exact mirrors_refuseAt
  | cons first more =>
      -- The digits that were counted are looked at again where they begin.
      obtain ⟨-, hcs⟩ := Numeral.exists_digits hdigits (List.cons_ne_nil first more)
      have hhead : (Numeral.sign cs).2.head? = some first := by rw [hcs]; rfl
      have htail : Mirrors source (tailFrom source (Text.offsetOf source (Numeral.sign cs).2)) rest
          d d _ := mirrors_tailFrom hafter.suffix
      simp only [List.length_cons, Nat.succ_ne_zero, if_false, List.isEmpty_cons,
        Bool.false_eq_true, false_or, List.head?_cons]
      split_ifs with hlong hbad hbad
      · refine htail.andThen fun _ => ?_
        rw [hhead, if_pos hbad.1]
        exact mirrors_refuseAt
      · refine htail.andThen fun _ => ?_
        rw [hhead, if_neg fun hzero => hbad ⟨hzero, hlong⟩]
        exact .pure ()
      · exact (hlong hbad.2).elim
      · exact .pure ()

theorem mirrors_skipNumeral (h : Within source turns cs) :
    Mirrors source (skipNumeral source turns (Text.offsetOf source start)) cs d d
      (partOf start (Numeral.scan cs)) := by
  have hwhole : Mirrors source (wholePart source turns (Text.offsetOf source start)) cs d d _ :=
    mirrors_wholePart h
  rcases hdigits : Numeral.digits (Numeral.sign cs).2 with ⟨whole, rest⟩
  simp only [Numeral.scan, hdigits] at hwhole ⊢
  split_ifs at hwhole ⊢ with hbad
  · exact hwhole.stop _
  · refine hwhole.andThen fun hrest => ?_
    have hrest := h.of_suffix hrest
    have hfraction :
        Mirrors source (fractionPart source turns (Text.offsetOf source start)) rest d d _ :=
      mirrors_fractionPart hrest
    cases hpart : Numeral.fractionPart rest with
    | none =>
        rw [hpart] at hfraction
        exact hfraction.stop _
    | some p =>
        rw [hpart] at hfraction
        refine hfraction.andThen fun hafter => ?_
        have hexponent :
            Mirrors source (exponentPart source turns (Text.offsetOf source start)) p.2 d d _ :=
          mirrors_exponentPart (hrest.of_suffix hafter)
        cases hlast : Numeral.exponentPart p.2 with
        | none =>
            rw [hlast] at hexponent
            simpa [partOf, hlast] using hexponent
        | some q =>
            rw [hlast] at hexponent
            simpa [partOf, hlast] using hexponent

theorem outcome_numeral_read (cs : List Char) :
    outcome (Numeral.read cs) =
      match Numeral.scan cs with
      | none => .error ⟨.badNumber, cs⟩
      | some (n, rest) =>
        match n.toValue? with
        | some v => .ok (v, rest)
        | none => .error ⟨.numberOutOfRange (cs.take (cs.length - rest.length)), cs⟩ := by
  unfold Numeral.read
  split
  · rename_i hscan
    rw [hscan]
    rfl
  · rename_i n rest hscan
    simp only [hscan]
    cases n.toValue? <;> rfl

theorem numeralValue?_of_spelled {t : List Char} {m : Numeral} (h : Numeral.Spelled t m) :
    numeralValue? t = m.toValue? := by
  have hscan : Numeral.scan (t ++ []) = some (m, []) :=
    Numeral.scan_of_spelled h fun c hc => nomatch hc
  rw [List.append_nil] at hscan
  rw [numeralValue?, hscan]
  rfl

theorem mirrors_number (h : Within source turns cs) :
    Mirrors source (number source turns) cs d d (outcome (Numeral.read cs)) := by
  refine mirrors_here.andThen fun _ => ?_
  have hskip : Mirrors source (skipNumeral source turns (Text.offsetOf source cs)) cs d d _ :=
    mirrors_skipNumeral h
  rw [outcome_numeral_read]
  cases hscan : Numeral.scan cs with
  | none =>
      rw [hscan] at hskip
      exact hskip.stop _
  | some p =>
      obtain ⟨m, rest⟩ := p
      rw [hscan] at hskip
      obtain ⟨t, ht, rfl⟩ := Numeral.spelled_of_scan hscan
      have htext : (t ++ rest).take ((t ++ rest).length - rest.length) = t := by simp
      refine hskip.andThen fun _ => mirrors_here.andThen fun _ => ?_
      refine (mirrors_slice h.suffix).andThen fun _ => ?_
      rw [numeralValue?_of_spelled ht]
      dsimp only
      rw [htext]
      cases m.toValue? with
      | none => exact mirrors_refuseAt
      | some v => exact .pure v

/-! ## Words and keys -/

theorem mirrors_takeWord (h : Within source turns cs) :
    Mirrors source (takeWord source turns) cs d d (.ok (Word.leading cs, Word.after cs)) := by
  have hwidth : ∀ c, Word.isWordChar c = true → c.utf8Size = 1 := fun c hc =>
    Text.utf8Size_eq_one (Nat.lt_of_le_of_lt (Word.toNat_of_isWordChar hc).2 (by decide))
  have hslice : Mirrors source
      (slice source (Text.offsetOf source cs) (Text.offsetOf source (Word.after cs)))
      (Word.after cs) d d (.ok (Word.leading cs, Word.after cs)) := by
    have hwhole : Word.leading cs ++ Word.after cs <:+ source := by
      rw [Word.leading_append_after]
      exact h.suffix
    have hpart : Mirrors source _ (Word.after cs) d d _ := mirrors_slice hwhole
    rwa [Word.leading_append_after] at hpart
  exact mirrors_here.andThen fun _ => (mirrors_skipWhile hwidth h).andThen fun _ =>
    mirrors_here.andThen fun _ => hslice

/-- The key at the beginning of a text. -/
def leadingKey : List Char → Except Fault (String × List Char)
  | [] => .error ⟨.noKey none, []⟩
  | c :: rest =>
    if Quoted.isQuote c then outcome (Quoted.text c rest)
    else if Word.isWordChar c then
      .ok (String.ofList (Word.leading (c :: rest)), Word.after (c :: rest))
    else .error ⟨.noKey (some c), c :: rest⟩

/-- The reader of keys passes over white space, which the cursor has passed when it comes to
one. -/
theorem outcome_key_read (cs : List Char) :
    outcome (Key.read cs) = leadingKey (Text.trimStart cs) := by
  unfold Key.read
  split
  · rename_i hnil
    rw [hnil]
    rfl
  · rename_i c rest hcons
    simp only [hcons, leadingKey]
    split_ifs <;> simp

theorem mirrors_key (h : Within source turns cs) :
    Mirrors source (key source turns) cs d d (leadingKey cs) := by
  refine (mirrors_peek h.suffix).andThen fun _ => ?_
  cases cs with
  | nil => exact mirrors_refuse
  | cons c rest =>
      rw [List.head?_cons, leadingKey]
      dsimp only
      split_ifs
      · exact mirrors_string h
      · exact (mirrors_takeWord h).andThen fun _ => .pure _
      · exact mirrors_refuse

theorem mirrors_objectIdCall (h : Within source turns cs) :
    Mirrors source (objectIdCall source turns (Text.offsetOf source start)) cs d d
      (outcome (Literal.identifierCall start cs)) := by
  unfold Literal.identifierCall
  refine (mirrors_expect '(' h).outcome_bind fun opened hopened => ?_
  refine (mirrors_skipSpace (h.of_suffix hopened)).andThen fun htrim => ?_
  have hrest : Within source turns (Text.trimStart opened.rest) :=
    h.of_suffix (htrim.trans hopened)
  split
  · rename_i hnil
    rw [hnil]
    exact (mirrors_peek List.nil_suffix).andThen fun _ => mirrors_refuse
  · rename_i c rest hcons
    refine (mirrors_peek_of_eq hrest.suffix hcons).andThen fun _ => ?_
    rw [hcons] at hrest
    dsimp only
    split_ifs
    · refine (mirrors_string hrest).outcome_bind fun hex hhex => ?_
      refine (mirrors_expect ')' (hrest.of_suffix hhex)).outcome_bind fun closed hclosed => ?_
      cases hid : ObjectId.ofHex hex.value with
      | error reason => exact mirrors_refuseAt
      | ok id => exact .pure (Value.objectId id)
    · exact mirrors_refuse

theorem mirrors_construction (h : Within source turns cs) :
    Mirrors source (construction source turns) cs d d (outcome (Literal.construction cs)) := by
  have hstart : Within source turns (Text.trimStart cs) := h.of_suffix (Text.trimStart_suffix cs)
  unfold Literal.construction
  refine (mirrors_skipSpace h).andThen fun _ => mirrors_here.andThen fun _ => ?_
  refine (mirrors_takeWord hstart).andThen fun _ => ?_
  dsimp only
  split_ifs
  · rw [outcome_map_within]
    exact mirrors_objectIdCall (hstart.of_suffix (Word.after_suffix _))
  · exact mirrors_refuseAt

theorem mirrors_keyword (hlt : (Word.after cs).length < cs.length)
    (h : Within source turns cs) :
    Mirrors source (keyword source turns) cs d d (outcome (Literal.keyword cs hlt)) := by
  have hafter : Within source turns (Word.after cs) := h.of_suffix (Word.after_suffix cs)
  unfold Literal.keyword
  refine mirrors_here.andThen fun _ => (mirrors_takeWord h).andThen fun _ => ?_
  dsimp only
  split_ifs
  · exact .pure (Value.bool true)
  · exact .pure (Value.bool false)
  · exact .pure Value.null
  · rw [outcome_map_within]
    exact mirrors_objectIdCall hafter
  · rw [outcome_map_within]
    exact mirrors_construction hafter
  · exact mirrors_refuseAt

end Cursor

end DocShell
