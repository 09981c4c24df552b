import DocShell.Proofs.Literal.RoundTrip

set_option autoImplicit false

/-! # The canonical text of a value has no control characters

Line breaks and other control characters enter a value through strings and keys, raw or by an
escape. None of them is left in the canonical text of the value (`Value.controlFree_chars`): a
control character in a string is spelled by an escape, a key that holds one is quoted, and all else
that is printed is visible ASCII. No property of the value is needed for this.
-/

namespace DocShell

/-! ## Texts without control characters -/

namespace Text

variable {cs ds : List Char}

/-- No character of the text is a control character. -/
def ControlFree (cs : List Char) : Prop :=
  ∀ c ∈ cs, isControl c = false

instance (cs : List Char) : Decidable (ControlFree cs) :=
  List.decidableBAll _ cs

@[simp] theorem controlFree_nil : ControlFree [] :=
  List.forall_mem_nil _

@[simp] theorem controlFree_cons {c : Char} :
    ControlFree (c :: cs) ↔ isControl c = false ∧ ControlFree cs :=
  List.forall_mem_cons

@[simp] theorem controlFree_append : ControlFree (cs ++ ds) ↔ ControlFree cs ∧ ControlFree ds :=
  List.forall_mem_append

theorem controlFree_flatMap {α : Type} {f : α → List Char} {as : List α}
    (h : ∀ a ∈ as, ControlFree (f a)) : ControlFree (as.flatMap f) := by
  intro c hc
  obtain ⟨a, ha, hca⟩ := List.mem_flatMap.mp hc
  exact h a ha c hca

/-- A text without control characters has no line break. -/
theorem ControlFree.not_mem (h : ControlFree cs) {c : Char} (hc : isControl c = true) : c ∉ cs := by
  intro hmem
  rw [h c hmem] at hc
  contradiction

/-- The visible characters of ASCII are no control characters. -/
theorem isControl_of_visible {c : Char} (hlow : 0x20 ≤ c.toNat) (hhigh : c.toNat < 0x7F) :
    isControl c = false := by
  simp only [isControl, Bool.or_eq_false_iff, Bool.and_eq_false_iff, decide_eq_false_iff_not]
  omega

theorem controlFree_of_isHex (h : cs.all isHex = true) : ControlFree cs := by
  intro c hc
  have hrange := toNat_of_isHex (List.all_eq_true.mp h c hc)
  exact isControl_of_visible (by omega) (by omega)

theorem controlFree_of_isWordChar (h : cs.all Word.isWordChar = true) : ControlFree cs := by
  intro c hc
  have hrange := Word.toNat_of_isWordChar (List.all_eq_true.mp h c hc)
  exact isControl_of_visible (by omega) (by omega)

end Text

open Text (ControlFree)

/-! ## Tokens -/

/-- Control characters are spelled by their code. -/
theorem Quoted.controlFree_spelling (c : Char) : ControlFree (spelling c) := by
  unfold spelling
  split_ifs with hquote hslash hfeed hreturn htab hcontrol
  · decide
  · decide
  · decide
  · decide
  · decide
  · have hdigits := Text.controlFree_of_isHex (Text.all_isHex_hexPadded 4 c.toNat)
    exact Text.controlFree_cons.mpr ⟨by decide, Text.controlFree_cons.mpr ⟨by decide, hdigits⟩⟩
  · simpa using hcontrol

theorem Quoted.controlFree_chars (s : List Char) : ControlFree (chars s) := by
  have hspelled : ControlFree (s.flatMap spelling) :=
    Text.controlFree_flatMap fun c _ => controlFree_spelling c
  have hquote : Text.isControl '"' = false := by decide
  simp [chars, hspelled, hquote]

theorem Key.controlFree_chars (key : String) : ControlFree (chars key) := by
  unfold chars
  split_ifs with hbare
  · rw [Word.isBare, Bool.and_eq_true] at hbare
    exact Text.controlFree_of_isWordChar hbare.2
  · exact Quoted.controlFree_chars key.toList

theorem ObjectId.controlFree_chars (id : ObjectId) : ControlFree id.chars := by
  have hopen : ControlFree "ObjectId(\"".toList := by decide
  have hclose : ControlFree "\")".toList := by decide
  have hhex := Text.controlFree_of_isHex id.all_hex
  have hall := Text.controlFree_append.mpr ⟨Text.controlFree_append.mpr ⟨hopen, hhex⟩, hclose⟩
  exact hall

theorem Numeral.Spelled.controlFree {t : List Char} {n : Numeral} (h : Spelled t n) :
    ControlFree t := by
  intro c hc
  have hchar := List.all_eq_true.mp h.all_isNumeralChar c hc
  rw [isNumeralChar, Bool.or_eq_true] at hchar
  rcases hchar with hdigit | hmark
  · have hword : Word.isWordChar c = true := Literal.isWordChar_of_isDigit hdigit
    have hrange := Word.toNat_of_isWordChar hword
    exact Text.isControl_of_visible (by omega) (by omega)
  · have hall : ControlFree ['-', '+', '.', 'e', 'E'] := by decide
    exact hall c (List.contains_iff_mem.mp hmark)

theorem Literal.NumberToken.controlFree {t : List Char} {v : Value} (h : NumberToken t v) :
    ControlFree t := by
  obtain ⟨n, ht, -⟩ := numberToken_iff.mp h
  exact ht.controlFree

/-- A floating point number is printed as a numeral or, if it is not finite, as a name. -/
theorem Literal.controlFree_float (x : Binary64) : ControlFree (x.chars floatStyle) := by
  by_cases hfinite : x.isFinite = true
  · exact (numberToken_float floatStyle hfinite).controlFree
  · rw [Bool.not_eq_true] at hfinite
    rcases chars_of_not_isFinite floatStyle hfinite with hchars | hchars | hchars
    · rw [hchars]
      decide
    · rw [hchars]
      decide
    · rw [hchars]
      decide

theorem Literal.controlFree_fieldChars {f : String × Value} (h : ControlFree f.2.chars) :
    ControlFree (fieldChars f) := by
  have hcolon : ControlFree [':', ' '] := by decide
  rw [fieldChars]
  simpa [Key.controlFree_chars, h] using hcolon

/-! ## Values -/

theorem isControl_of_mark : ∀ c ∈ ['[', ']', '{', '}', ',', ' '], Text.isControl c = false := by
  show ControlFree ['[', ']', '{', '}', ',', ' ']
  decide

/-- The canonical text of a value has no control characters, whatever its strings hold. -/
theorem Value.controlFree_chars (v : Value) : ControlFree v.chars := by
  induction v using Value.induction with
  | null => decide
  | bool b =>
      cases b with
      | true => decide
      | false => decide
  | int i => exact (Literal.numberToken_int i).controlFree
  | float x => exact Literal.controlFree_float x
  | string s => exact Quoted.controlFree_chars s.toList
  | objectId id => exact id.controlFree_chars
  | array items ih =>
      cases items with
      | nil => decide
      | cons v items =>
          have hfirst := ih v (List.mem_cons_self ..)
          have hrest : ControlFree (items.flatMap fun v => ',' :: ' ' :: v.chars) := by
            refine Text.controlFree_flatMap fun u hu => ?_
            have hu := ih u (List.mem_cons_of_mem v hu)
            simp [hu, isControl_of_mark]
          rw [Value.chars, Literal.itemsChars_eq]
          simp [hfirst, hrest, isControl_of_mark]
  | object fields ih =>
      cases fields with
      | nil => decide
      | cons f fields =>
          have hfirst := Literal.controlFree_fieldChars (ih f (List.mem_cons_self ..))
          have hrest :
              ControlFree (fields.flatMap fun f => ',' :: ' ' :: Literal.fieldChars f) := by
            refine Text.controlFree_flatMap fun g hg => ?_
            have hg := Literal.controlFree_fieldChars (ih g (List.mem_cons_of_mem f hg))
            simp [hg, isControl_of_mark]
          have hchars : Value.chars (.object (f :: fields)) = '{' :: ' ' :: (Literal.fieldChars f ++
              (fields.flatMap fun f => ',' :: ' ' :: Literal.fieldChars f) ++ [' ', '}']) := by
            simp [Value.chars, Literal.fieldsChars_eq, Literal.fieldChars]
          rw [hchars]
          simp [hfirst, hrest, isControl_of_mark]

end DocShell
