import DocShell.Proofs.Arguments.Language
import DocShell.Proofs.Literal.Language

set_option autoImplicit false

/-! # Literals are balanced

The scan of an argument list and the reader of literals know nothing of each other. What they
have in common is that every literal is balanced text without a comma outside its brackets and
strings (`Denotes.balanced`), so an argument list is never cut inside a literal: literals with
commas between them are cut into these literals, and each is read from its argument as it would
be from its own text.
-/

namespace DocShell

open Text (isBlank)
open Arguments (Balanced StringBody)

variable {commas : Bool} {t : List Char}

/-! ## Strings -/

namespace Quoted

variable {quote : Char}

theorem all_isHex_of_hexNumber? {n code : Nat} {digits : List Char} (hlength : digits.length = n)
    (h : Text.hexNumber? n digits = some code) : digits.all Text.isHex = true := by
  subst hlength
  simp only [Text.hexNumber?, List.take_length] at h
  split_ifs at h with hdigits
  exact hdigits.2

theorem stringBody_of_isHex (hquote : isQuote quote = true) (h : t.all Text.isHex = true) :
    StringBody quote t := by
  induction t with
  | nil => exact .nil
  | cons c t ih =>
      rw [List.all_cons, Bool.and_eq_true] at h
      refine .plain ?_ ?_ (ih h.2)
      · rintro rfl
        rcases isQuote_iff.mp hquote with rfl | rfl
        · exact absurd h.1 (by decide)
        · exact absurd h.1 (by decide)
      · rintro rfl
        exact absurd h.1 (by decide)

/-- No piece of a string ends it. -/
theorem Piece.stringBody {p out : List Char} (hquote : isQuote quote = true)
    (h : Piece quote p out) : StringBody quote p := by
  cases h with
  | plain hne hslash => exact .plain hne hslash .nil
  | escape => exact .escape .nil
  | byte hlength hcode =>
      exact .escape (stringBody_of_isHex hquote (all_isHex_of_hexNumber? hlength hcode))
  | code hlength hcode =>
      exact .escape (stringBody_of_isHex hquote (all_isHex_of_hexNumber? hlength hcode))
  | pair hlength₁ hlength₂ hcode₁ hcode₂ =>
      -- Each half begins with a backslash, which takes the letter with it.
      have hfirst := stringBody_of_isHex hquote (all_isHex_of_hexNumber? hlength₁ hcode₁)
      have hsecond := stringBody_of_isHex hquote (all_isHex_of_hexNumber? hlength₂ hcode₂)
      exact .escape (hfirst.append (.escape hsecond))
  | feed => exact .escape .nil
  | carriage => exact .escape .nil
  | carriageFeed =>
      refine .escape (.plain ?_ (by decide) .nil)
      rintro rfl
      exact absurd hquote (by decide)

theorem Spelled.stringBody {b s : List Char} (hquote : isQuote quote = true)
    (h : Spelled quote b s) : StringBody quote b := by
  induction h with
  | nil => exact .nil
  | cons hp _ _ ih => exact (hp.stringBody hquote).append ih

end Quoted

/-! ## Words and numbers -/

theorem balanced_of_word (h : t.all Word.isWordChar = true) : Balanced commas t :=
  Arguments.balanced_of_class (by decide) h

theorem Numeral.Spelled.balanced {n : Numeral} (h : Spelled t n) : Balanced commas t :=
  Arguments.balanced_of_class (by decide) h.all_isNumeralChar

/-! ## Literals -/

namespace Literal

variable {n : Nat}

theorem StringToken.balanced {s : String} (h : StringToken t s) : Balanced commas t := by
  obtain ⟨quote, b, hquote, rfl, hb⟩ := stringToken_iff.mp h
  exact .string hquote (hb.stringBody hquote) .nil

theorem NumberToken.balanced {v : Value} (h : NumberToken t v) : Balanced commas t := by
  obtain ⟨n, ht, -⟩ := numberToken_iff.mp h
  exact ht.balanced

theorem KeyToken.balanced {key : String} (h : KeyToken t key) : Balanced commas t := by
  cases h with
  | quoted h => exact h.balanced
  | bare _ hall => exact balanced_of_word hall

theorem balanced_enclosed {opening closing : Char}
    (hclosing : Arguments.closing? opening = some closing) (h : Balanced true t) :
    Balanced commas (opening :: t ++ [closing]) :=
  .bracket hclosing h .nil

theorem IdentifierCall.balanced {id : ObjectId} (h : IdentifierCall t id) :
    Balanced commas t := by
  cases h with
  | @call w₁ w₂ t w₃ s hw₁ hw₂ ht hw₃ =>
      have hname : Balanced commas "ObjectId".toList := balanced_of_word (by decide)
      have hinside : Balanced true (w₂ ++ t ++ w₃) :=
        ((Arguments.balanced_of_blank hw₂).append ht.balanced).append
          (Arguments.balanced_of_blank hw₃)
      have hcall : Balanced commas ('(' :: (w₂ ++ t ++ w₃) ++ [')']) :=
        balanced_enclosed (by decide) hinside
      have hall := (hname.append (Arguments.balanced_of_blank hw₁)).append hcall
      simpa only [List.append_assoc, List.cons_append] using hall

theorem Scalar.balanced {v : Value} (h : Scalar t v) : Balanced commas t := by
  cases h with
  | null => exact balanced_of_word (by decide)
  | yes => exact balanced_of_word (by decide)
  | no => exact balanced_of_word (by decide)
  | string ht => exact ht.balanced
  | number ht => exact ht.balanced
  | identifier ht => exact ht.balanced
  | construction hw _ ht =>
      have hnew : Balanced commas "new".toList := balanced_of_word (by decide)
      exact (hnew.append (Arguments.balanced_of_blank hw)).append ht.balanced

theorem Separated.balanced {α : Type} {Item : List Char → α → Nat → Prop} {as : List α}
    (hitem : ∀ t a n, Item t a n → Balanced true t) (h : Separated Item t as n) :
    Balanced true t := by
  induction h with
  | last hw₁ ha hw₂ =>
      exact ((Arguments.balanced_of_blank hw₁).append (hitem _ _ _ ha)).append
        (Arguments.balanced_of_blank hw₂)
  | more hw₁ ha hw₂ _ ih =>
      exact (((Arguments.balanced_of_blank hw₁).append (hitem _ _ _ ha)).append
        (Arguments.balanced_of_blank hw₂)).append (.comma ih)

theorem Field.balanced {Item : List Char → Value → Nat → Prop} {p : String × Value}
    (hitem : ∀ t v n, Item t v n → Balanced true t) (h : Field Item t p n) : Balanced true t := by
  cases h with
  | @field k w₁ w₂ t key v n hk hw₁ hw₂ hv =>
      have hcolon : Balanced true (':' :: w₂) :=
        .ordinary (by decide) (Arguments.balanced_of_blank hw₂)
      exact ((hk.balanced.append (Arguments.balanced_of_blank hw₁)).append hcolon).append
        (hitem t v n hv)

/-- A literal is balanced, and its commas stand inside its brackets and strings. -/
theorem Denotes.balanced {v : Value} (h : Denotes t v n) : Balanced false t := by
  -- Literals inside a container may have commas around them, the container itself may not.
  refine Denotes.induction (P := fun t _ _ => Balanced false t) ?_ ?_ ?_ ?_ ?_ h
  · intro t v ht
    exact ht.balanced
  · intro w hw
    exact balanced_enclosed (by decide) (Arguments.balanced_of_blank hw)
  · intro t vs n hvs
    exact balanced_enclosed (by decide) (hvs.balanced fun t v n hv => hv.2.inside)
  · intro w hw
    exact balanced_enclosed (by decide) (Arguments.balanced_of_blank hw)
  · intro t pairs n hpairs
    refine balanced_enclosed (by decide) (hpairs.balanced fun t p n hp => ?_)
    exact hp.balanced fun t v n hv => hv.2.inside

/-- White space around a literal is balanced like the literal. -/
theorem Derives.balanced {v : Value} (h : Derives t v) : Balanced false t := by
  obtain ⟨w₁, t, w₂, n, hw₁, hw₂, rfl, ht, -⟩ := h
  exact ((Arguments.balanced_of_blank hw₁).append ht.balanced).append
    (Arguments.balanced_of_blank hw₂)

theorem parse_ofList_iff {v : Value} (hblank : isBlank t = false) :
    parse (String.ofList t) = .ok v ↔ Derives t v := by
  rw [parse_of_not_blank (by rwa [String.toList_ofList]), String.toList_ofList]

/-- The white space around a text that is not blank does not matter to its value. -/
theorem parse_trim_eq_ok_iff {v : Value} (hblank : isBlank t = false) :
    parse (String.ofList (Text.trim t)) = .ok v ↔ parse (String.ofList t) = .ok v := by
  have htrim : isBlank (Text.trim t) = false := (Text.isSolid_trim hblank).not_blank
  rw [parse_ofList_iff htrim, parse_ofList_iff hblank, derives_trim_iff]

end Literal

/-! ## Lists of literals -/

namespace Arguments

/-- Literals with commas between them are the arguments of the list that they make up: there are
as many arguments as literals, each is its literal without the white space around it, at its
place in the list, and it is read as the same value. -/
theorem split_literals (texts : List (List Char)) (hne : texts ≠ [])
    (h : ∀ t ∈ texts, isBlank t = false ∧ ∃ v, Literal.parse (String.ofList t) = .ok v) :
    ∃ fragments, split (List.intercalate [','] texts) = .ok fragments ∧
      fragments.length = texts.length ∧
      ∀ i t f, texts[i]? = some t → fragments[i]? = some f →
        IsCut (joinSegments (texts.take i)) t f ∧ f.IsAt (List.intercalate [','] texts) ∧
        Literal.parse f.text = Literal.parse (String.ofList t) := by
  have hblank : ∀ t ∈ texts, isBlank t = false := fun t ht => (h t ht).1
  have hbalanced : ∀ t ∈ texts, Balanced false t := by
    intro t ht
    obtain ⟨hnot, v, hv⟩ := h t ht
    exact ((Literal.parse_ofList_iff hnot).mp hv).balanced
  have hsplit := split_intercalate hne hbalanced hblank
  obtain ⟨hlength, hcut⟩ := (eq_tile_iff hblank).mp rfl
  refine ⟨tile 0 texts, hsplit, hlength, ?_⟩
  intro i t f ht hf
  have hisCut := hcut i t f ht hf
  refine ⟨hisCut, isAt_of_split hsplit (List.mem_of_getElem? hf), ?_⟩
  obtain ⟨hnot, v, hv⟩ := h t (List.mem_of_getElem? ht)
  rw [hisCut.text_eq, hv]
  exact (Literal.parse_trim_eq_ok_iff hnot).mpr hv

/-- Quotes after backslashes and by their code, commas and brackets in strings and keys, and a
string that goes on in the next line. -/
theorem split_literals_escaped :
    ∃ texts fragments, texts.length = 3 ∧ split (List.intercalate [','] texts) = .ok fragments ∧
      fragments.length = texts.length ∧
      ∀ i t f, texts[i]? = some t → fragments[i]? = some f →
        IsCut (joinSegments (texts.take i)) t f ∧ f.IsAt (List.intercalate [','] texts) ∧
        Literal.parse f.text = Literal.parse (String.ofList t) := by
  have hread : ∀ t ∈ ["\u3000'it\\'s, \\x27' ".toList,
      "\x7b 'a,\\\\': [ObjectId(\"559d3e5b8152eefd4e9bed45\"), '\x7d'] \x7d".toList,
      "\"\\ud83d\\ude00\\\"\\\r\n,(\"".toList],
      isBlank t = false ∧ (Literal.parse (String.ofList t)).isOk = true := by
    decide +kernel
  obtain ⟨fragments, hfragments⟩ := split_literals _ (by simp) fun t ht =>
    ⟨(hread t ht).1, Except.exists_of_isOk (hread t ht).2⟩
  exact ⟨_, fragments, rfl, hfragments⟩

end Arguments

end DocShell
