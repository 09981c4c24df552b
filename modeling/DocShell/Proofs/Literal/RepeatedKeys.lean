import DocShell.Proofs.Literal.Nesting
import DocShell.Proofs.Literal.Spellings

set_option autoImplicit false

/-! # Objects in which keys are written again

An object is written as fields with commas between them. The keys of two fields may be spelled
differently and be the same key, since a key is what its spelling stands for. Then the key
keeps the place of the first of these fields and has the value of the last one.

The text of the fields is a text of the grammar for their keys and values
(`separated_fieldTexts`), so the object is the one that setting them from left to right makes.
-/

namespace DocShell.Literal

open Text (isBlank)

variable {t : List Char} {key : String}

/-! ## Keys -/

/-- The ways to write a key: as a bare word, or in quotes by the spellings of its characters. -/
inductive KeySpelling : List Char → String → Prop
  | bare {t : List Char} (hne : t ≠ []) (hall : t.all Word.isWordChar = true) :
      KeySpelling t (String.ofList t)
  | quoted {quote : Char} {b : List Char} {key : String}
      (hquote : quote = '"' ∨ quote = '\x27') (hb : Quoted.Spells quote b key.toList) :
      KeySpelling (quote :: (b ++ [quote])) key

theorem keyToken_iff : KeyToken t key ↔ KeySpelling t key := by
  constructor
  · intro h
    cases h with
    | bare hne hall => exact .bare hne hall
    | quoted h =>
        obtain ⟨quote, b, hquote, rfl, hb⟩ := stringToken_iff.mp h
        exact .quoted (Quoted.isQuote_iff.mp hquote) (Quoted.spelled_iff.mp hb)
  · intro h
    cases h with
    | bare hne hall => exact .bare hne hall
    | @quoted quote b key hquote hb =>
        have hspelled := Quoted.spelled_iff.mpr hb
        exact .quoted (stringToken_iff.mpr
          ⟨quote, b, Quoted.isQuote_iff.mpr hquote, rfl, hspelled⟩)

/-! ## Fields -/

/-- A field as it is written: a key in one of its spellings, and a text that is not blank and
is parsed as the value. -/
structure WrittenField where
  keyText : List Char
  key : String
  valueText : List Char
  value : Value
  spelled : KeySpelling keyText key
  not_blank : isBlank valueText = false
  parsed : parse (String.ofList valueText) = .ok value

namespace WrittenField

/-- The text of a field. -/
def text (f : WrittenField) : List Char :=
  f.keyText ++ ':' :: f.valueText

/-- The key and the value of a field. -/
def pair (f : WrittenField) : String × Value :=
  (f.key, f.value)

/-- The text of a field is one of the grammar, before white space. -/
theorem exists_field (f : WrittenField) :
    ∃ t w n, f.text = t ++ w ∧ isBlank w = true ∧ Field Denotes t f.pair n := by
  obtain ⟨w₁, t, w₂, n, hw₁, hw₂, htext, ht, -⟩ := (parse_ofList_iff f.not_blank).mp f.parsed
  refine ⟨f.keyText ++ [] ++ ':' :: w₁ ++ t, w₂, n, ?_, hw₂, ?_⟩
  · rw [text, htext]
    simp
  · exact .field (keyToken_iff.mpr f.spelled) rfl hw₁ ht

end WrittenField

/-- The text of fields with commas between them, in braces. -/
def objectText (fields : List WrittenField) : List Char :=
  '{' :: List.intercalate [','] (fields.map (·.text)) ++ ['}']

theorem separated_fieldTexts {fields : List WrittenField} (hne : fields ≠ []) :
    ∃ n, Separated (Field Denotes) (List.intercalate [','] (fields.map (·.text)))
      (fields.map (·.pair)) n := by
  induction fields with
  | nil => contradiction
  | cons f fields ih =>
      obtain ⟨t, w, n, htext, hw, hf⟩ := f.exists_field
      cases fields with
      | nil =>
          have hlast : Separated (Field Denotes) ([] ++ t ++ w) [f.pair] n := .last rfl hf hw
          refine ⟨n, ?_⟩
          rwa [List.map_singleton, List.intercalate_singleton, htext]
      | cons g fields =>
          obtain ⟨m, hmore⟩ := ih (List.cons_ne_nil g fields)
          have hall : Separated (Field Denotes) ([] ++ t ++ w ++ ',' ::
              List.intercalate [','] ((g :: fields).map (·.text)))
              (f.pair :: (g :: fields).map (·.pair)) (max n m) := .more rfl hf hw hmore
          refine ⟨max n m, ?_⟩
          rwa [List.map_cons, Text.intercalate_cons (by simp), htext]

/-- Keys that are repeated, in whatever spelling, have the place where they are written first
and the value that is written last. -/
theorem parse_object_repeated (fields : List WrittenField) (hne : fields ≠ [])
    (hnesting : Brackets.nesting (objectText fields) ≤ 128) :
    ∃ object : Fields, parse (String.ofList (objectText fields)) = .ok (.object object) ∧
      object.keys = (fields.map (·.key)).eraseDups ∧
      ∀ front f back, fields = front ++ f :: back → (∀ g ∈ back, g.key ≠ f.key) →
        (Value.object object).get? f.key = some f.value := by
  obtain ⟨n, hfields⟩ := separated_fieldTexts hne
  have hobject : Denotes (objectText fields) (.ofPairs (fields.map (·.pair))) (n + 1) :=
    .object hfields
  rw [hobject.nesting_eq] at hnesting
  refine ⟨Fields.ofPairs (fields.map (·.pair)), ?_, ?_, ?_⟩
  · exact (parse_of_denotes (by rwa [String.toList_ofList])).1 hnesting
  · rw [Fields.keys_ofPairs, Fields.keys, List.map_map]
    rfl
  · rintro front f back rfl hlast
    have hnotMem : f.pair.1 ∉ Fields.keys (back.map (·.pair)) := by
      simpa [Fields.keys, WrittenField.pair, eq_comm] using hlast
    rw [List.map_append, List.map_cons]
    exact Fields.get?_ofPairs hnotMem

/-- One key bare and again by the code of its character, and another one between the two. -/
theorem parse_object_repeated_code :
    ∃ object : Fields,
      parse (String.ofList "\x7ba: null,'b':[] ,\"\\x61\":true\x7d".toList) =
        .ok (.object object) ∧
      object.keys = ["a", "b"] ∧ (Value.object object).get? "a" = some (.bool true) ∧
      (Value.object object).get? "b" = some (.array []) := by
  have hparsed : ∀ w₁ t w₂ n v, isBlank w₁ = true → Denotes t v n → n ≤ 128 →
      isBlank w₂ = true → parse (String.ofList (w₁ ++ t ++ w₂)) = .ok v := by
    intro w₁ t w₂ n v hw₁ ht hn hw₂
    have hderives : Derives (w₁ ++ t ++ w₂) v := ⟨w₁, t, w₂, n, hw₁, hw₂, rfl, ht, hn⟩
    exact (parse_ofList_iff hderives.not_blank).mpr hderives
  have hself : Quoted.Spelling '\x27' ['b'] 'b' :=
    .self (by decide) (by decide) (by decide) (by decide)
  have hbyte : Quoted.Spelling '"' ('\\' :: 'x' :: "61".toList) 'a' :=
    .byte rfl (by decide +kernel)
  have hquoted : KeySpelling ('\x27' :: (['b'] ++ ['\x27'])) "b" :=
    .quoted (.inr rfl) (.char hself .nil)
  have hcode : KeySpelling ('"' :: ('\\' :: 'x' :: "61".toList ++ ['"'])) "a" :=
    .quoted (.inl rfl) (.char hbyte .nil)
  have hbare : KeySpelling ['a'] "a" := .bare (by decide) (by decide)
  have hnull := hparsed [' '] _ [] 0 _ rfl (.scalar .null) (by decide) rfl
  have harray := hparsed [] _ [' '] 1 _ rfl (.emptyArray (w := []) rfl) (by decide) rfl
  have hyes := hparsed [] _ [] 0 _ rfl (.scalar .yes) (by decide) rfl
  have hnesting : Brackets.nesting "\x7ba: null,'b':[] ,\"\\x61\":true\x7d".toList ≤ 128 := by
    decide +kernel
  have hfirst : ["a", "b", "a"].eraseDups = ["a", "b"] := by decide +kernel
  obtain ⟨object, hparse, hkeys, hlast⟩ := parse_object_repeated
    [⟨_, _, _, _, hbare, rfl, hnull⟩, ⟨_, _, _, _, hquoted, rfl, harray⟩,
      ⟨_, _, _, _, hcode, rfl, hyes⟩] (by simp) hnesting
  refine ⟨object, hparse, hkeys.trans hfirst, ?_, ?_⟩
  · exact hlast [_, _] _ [] rfl (by simp)
  · exact hlast [_] _ [_] rfl (by simp)

end DocShell.Literal
