import DocShell.Proofs.Literal.Language
import DocShell.Proofs.Literal.Printed

set_option autoImplicit false

/-! # The canonical text of a value is read as that value or not at all

The canonical text of a value is parsed as that very value if all numbers in it are finite and
it is not nested too deep, and refused otherwise. One half is that the text is a literal and
literals are read. The other half follows the reader through the text: it takes the items of a
container one after the other, so a container that is read has only items that are read.
-/

namespace DocShell.Literal

open Text (isBlank)

variable {α : Type} {room : Nat}

/-! ## What is read has distinct keys and finite numbers -/

theorem Separated.exists_of_mem {Item : List Char → α → Nat → Prop} {t : List Char} {as : List α}
    {n : Nat} (h : Separated Item t as n) {a : α} (ha : a ∈ as) : ∃ t m, Item t a m ∧ m ≤ n := by
  induction h with
  | @last w₁ t w₂ b n hw₁ hb hw₂ =>
      obtain rfl := List.mem_singleton.mp ha
      exact ⟨t, n, hb, le_rfl⟩
  | @more w₁ t w₂ ts b bs n m hw₁ hb hw₂ hbs ih =>
      rcases List.mem_cons.mp ha with rfl | ha
      · exact ⟨t, n, hb, le_max_left n m⟩
      · obtain ⟨t', k, hk, hle⟩ := ih ha
        exact ⟨t', k, hk, le_trans hle (le_max_right n m)⟩

/-- What a value needs for its text to be read back, with so much room for nesting. -/
structure IsReadable (v : Value) (room : Nat) : Prop where
  keysDistinct : v.keysDistinct = true
  allFinite : v.allFinite = true
  depth_le : v.depth ≤ room

theorem IsReadable.mono {v : Value} {n m : Nat} (h : IsReadable v n) (hle : n ≤ m) :
    IsReadable v m :=
  ⟨h.keysDistinct, h.allFinite, le_trans h.depth_le hle⟩

theorem IsReadable.array {items : List Value} (h : ∀ v ∈ items, IsReadable v room) :
    IsReadable (.array items) (room + 1) where
  keysDistinct := Value.keysDistinct_array_iff.mpr fun v hv => (h v hv).keysDistinct
  allFinite := Value.allFinite_array_iff.mpr fun v hv => (h v hv).allFinite
  depth_le := Value.depth_array_le_iff.mpr fun v hv => (h v hv).depth_le

theorem IsReadable.object {fields : Fields} (hnodup : (Fields.keys fields).Nodup)
    (h : ∀ f ∈ fields, IsReadable f.2 room) : IsReadable (.object fields) (room + 1) where
  keysDistinct := Value.keysDistinct_object_iff.mpr ⟨hnodup, fun f hf => (h f hf).keysDistinct⟩
  allFinite := Value.allFinite_object_iff.mpr fun f hf => (h f hf).allFinite
  depth_le := Value.depth_object_le_iff.mpr fun f hf => (h f hf).depth_le

theorem NumberToken.isReadable {t : List Char} {v : Value} (h : NumberToken t v) :
    IsReadable v 0 := by
  obtain ⟨n, -, hv⟩ := numberToken_iff.mp h
  have hfloat : ∀ v, n.toFloat? = some v → IsReadable v 0 := by
    intro v hv
    simp only [Numeral.toFloat?] at hv
    split_ifs at hv with hfinite
    obtain rfl := Option.some.inj hv
    exact ⟨rfl, hfinite, le_rfl⟩
  unfold Numeral.toValue? at hv
  split at hv
  · split_ifs at hv
    · obtain rfl := Option.some.inj hv
      exact ⟨rfl, rfl, le_rfl⟩
    · exact hfloat v hv
  · exact hfloat v hv

theorem Scalar.isReadable {t : List Char} {v : Value} (h : Scalar t v) : IsReadable v 0 := by
  cases h with
  | number ht => exact ht.isReadable
  | null => exact ⟨rfl, rfl, le_rfl⟩
  | yes => exact ⟨rfl, rfl, le_rfl⟩
  | no => exact ⟨rfl, rfl, le_rfl⟩
  | string => exact ⟨rfl, rfl, le_rfl⟩
  | identifier => exact ⟨rfl, rfl, le_rfl⟩
  | construction => exact ⟨rfl, rfl, le_rfl⟩

/-- What a literal denotes can be printed and read back, with no more room than the literal
needs. -/
theorem Denotes.isReadable {t : List Char} {v : Value} {n : Nat} (h : Denotes t v n) :
    IsReadable v n := by
  refine Denotes.induction (P := fun _ v n => IsReadable v n) ?_ ?_ ?_ ?_ ?_ h
  · intro t v ht
    exact ht.isReadable
  · intro w _
    exact .array (by simp)
  · intro t vs n hvs
    refine .array fun v hv => ?_
    obtain ⟨t, m, ⟨-, hv⟩, hm⟩ := hvs.exists_of_mem hv
    exact hv.mono hm
  · intro w _
    exact .object List.nodup_nil (by simp)
  · intro t pairs n hpairs
    refine .object (Fields.nodup_keys_ofPairs pairs) fun f hf => ?_
    obtain ⟨t, m, hfield, hm⟩ := hpairs.exists_of_mem (Fields.mem_of_mem_ofPairs hf)
    cases hfield with
    | field _ _ _ hv => exact hv.2.mono hm

/-! ## What is refused -/

/-- The reader reads the text, whatever stands around it, as the given value, but only under
the given condition; otherwise it refuses it. -/
def Decides (reader : Reader α) (t : List Char) (a : α) (condition : Prop) : Prop :=
  ∀ w rest, isBlank w = true → IsEnd rest → ∀ x after,
    outcome (reader (w ++ t ++ rest)) = .ok (x, after) ↔ condition ∧ x = a ∧ after = rest

theorem Decides.of_ok {reader : Reader α} {t : List Char} {a : α} {condition : Prop}
    (hok : condition → ∀ w rest, isBlank w = true → IsEnd rest →
      outcome (reader (w ++ t ++ rest)) = .ok (a, rest))
    (honly : ∀ w rest, isBlank w = true → IsEnd rest → ∀ x after,
      outcome (reader (w ++ t ++ rest)) = .ok (x, after) → condition) :
    Decides reader t a condition := by
  intro w rest hw hrest x after
  constructor
  · intro h
    have hcondition := honly w rest hw hrest x after h
    rw [hok hcondition w rest hw hrest] at h
    obtain ⟨rfl, rfl⟩ := Prod.mk.inj (Except.ok.inj h)
    exact ⟨hcondition, rfl, rfl⟩
  · rintro ⟨hcondition, rfl, rfl⟩
    exact hok hcondition w after hw hrest

/-- If items are read, then each of them is. -/
theorem Decides.items {reader : Reader α} {chars : α → List Char} {condition : α → Prop}
    {container : Container} {w₁ w₂ rest after : List Char} {a : α} {as xs : List α}
    (h : ∀ b ∈ a :: as, Decides reader (chars b) b (condition b)) (hw₁ : isBlank w₁ = true)
    (hw₂ : isBlank w₂ = true)
    (hitems : outcome (Reader.items container reader (w₁ ++ chars a ++
      ((as.flatMap fun b => ',' :: ' ' :: chars b) ++ (w₂ ++ container.closing :: rest)))) =
        .ok (xs, after)) : ∀ b ∈ a :: as, condition b := by
  induction as generalizing a w₁ xs with
  | nil =>
      obtain ⟨x, after', hitem, -⟩ := Reader.outcome_items_iff.mp hitems
      have hend : IsEnd (w₂ ++ container.closing :: rest) :=
        isEnd_blank_append hw₂ (isEnd_closing container)
      have hcondition := ((h a (by simp) w₁ _ hw₁ hend x after').mp hitem).1
      simpa using hcondition
  | cons b as ih =>
      obtain ⟨x, after', hitem, hmore⟩ := Reader.outcome_items_iff.mp hitems
      have hend : IsEnd (((b :: as).flatMap fun b => ',' :: ' ' :: chars b) ++
          (w₂ ++ container.closing :: rest)) := by
        rw [List.flatMap_cons]
        exact isEnd_cons (by decide) (by decide)
      obtain ⟨hcondition, rfl, rfl⟩ := (h a (by simp) w₁ _ hw₁ hend x after').mp hitem
      have htrim : Text.trimStart (((b :: as).flatMap fun b => ',' :: ' ' :: chars b) ++
          (w₂ ++ container.closing :: rest)) =
          ',' :: ([' '] ++ chars b ++ ((as.flatMap fun b => ',' :: ' ' :: chars b) ++
            (w₂ ++ container.closing :: rest))) := by
        rw [List.flatMap_cons, List.cons_append, List.cons_append,
          Text.trimStart_cons_of_not_space (by decide)]
        simp
      -- The first item leaves the comma, so the items did not end with it.
      rcases hmore with ⟨hclose, -⟩ | ⟨next, ys, hcomma, -, hys, -⟩
      · rw [htrim] at hclose
        have hne : ',' ≠ container.closing := by cases container <;> decide
        exact absurd (List.cons.inj hclose).1 hne
      · rw [htrim] at hcomma
        obtain ⟨-, rfl⟩ := List.cons.inj hcomma
        have hrest := ih (fun c hc => h c (List.mem_cons_of_mem x hc)) isBlank_space hys
        intro c hc
        rcases List.mem_cons.mp hc with rfl | hc
        · exact hcondition
        · exact hrest c hc

/-- If the contents of a container are read, then each item is. -/
theorem Decides.contents {reader : Reader α} {chars : α → List Char} {condition : α → Prop}
    {container : Container} {w₁ w₂ rest after : List Char} {a : α} {as xs : List α}
    (h : ∀ b ∈ a :: as, Decides reader (chars b) b (condition b))
    (hstart : ∃ c more, chars a = c :: more ∧ isStart c = true) (hw₁ : isBlank w₁ = true)
    (hw₂ : isBlank w₂ = true)
    (hcontents : outcome (Reader.contents container reader (w₁ ++ chars a ++
      (as.flatMap fun b => ',' :: ' ' :: chars b) ++ w₂ ++ container.closing :: rest)) =
        .ok (xs, after)) : ∀ b ∈ a :: as, condition b := by
  obtain ⟨c, more, hc, hstart⟩ := hstart
  rcases Reader.outcome_contents_iff.mp hcontents with ⟨hclose, -⟩ | ⟨-, hitems⟩
  · simp only [List.append_assoc, hc, List.cons_append, trimStart_start hw₁ hstart] at hclose
    exact absurd (List.cons.inj hclose).1 (ne_closing_of_isStart hstart container)
  · rw [List.append_assoc, List.append_assoc (w₁ ++ chars a)] at hitems
    exact Decides.items h hw₁ hw₂ hitems

theorem Decides.field {reader : Reader Value} {f : String × Value} {condition : Prop}
    (h : Decides reader f.2.chars f.2 condition) :
    Decides (field reader) (fieldChars f) f condition := by
  rintro w rest hw hrest ⟨key, v⟩ after
  have hsplit : w ++ fieldChars f ++ rest =
      w ++ Key.chars f.1 ++ ':' :: ([' '] ++ f.2.chars ++ rest) := by
    simp [fieldChars]
  have hcolon : IsEnd (':' :: ([' '] ++ f.2.chars ++ rest)) := isEnd_cons (by decide) (by decide)
  have hkey := (keyToken_chars f.1).read hw hcolon
  have hvalue := h [' '] rest isBlank_space hrest v after
  rw [hsplit, outcome_field_iff]
  constructor
  · rintro ⟨colon, next, hread, htrim, hv⟩
    rw [hkey] at hread
    obtain ⟨rfl, rfl⟩ := Prod.mk.inj (Except.ok.inj hread)
    rw [Text.trimStart_cons_of_not_space (by decide)] at htrim
    obtain ⟨-, rfl⟩ := List.cons.inj htrim
    obtain ⟨hcondition, rfl, rfl⟩ := hvalue.mp hv
    exact ⟨hcondition, rfl, rfl⟩
  · rintro ⟨hcondition, hf, rfl⟩
    obtain ⟨rfl, rfl⟩ := Prod.mk.inj hf
    refine ⟨_, _, hkey, ?_, hvalue.mpr ⟨hcondition, rfl, rfl⟩⟩
    rw [Text.trimStart_cons_of_not_space (by decide)]

theorem chars_of_not_isFinite {x : Binary64} (style : FloatStyle) (h : x.isFinite = false) :
    x.chars style = style.nan.toList ∨ x.chars style = style.infinity.toList ∨
      x.chars style = style.negativeInfinity.toList := by
  unfold Binary64.chars
  rw [h, if_pos (c := (!false) = true) rfl]
  split_ifs
  · exact .inl rfl
  · exact .inr (.inr rfl)
  · exact .inr (.inl rfl)

/-- What stands for a number that is not finite is no literal. -/
theorem isFinite_of_value {x : Binary64} {v : Value} {w rest after : List Char}
    (hw : isBlank w = true) (hrest : IsEnd rest)
    (h : outcome (value room (w ++ x.chars floatStyle ++ rest)) = .ok (v, after)) :
    x.isFinite = true := by
  by_contra hfinite
  rw [Bool.not_eq_true] at hfinite
  -- The first two are words that mean nothing; the third begins like a number.
  rcases chars_of_not_isFinite floatStyle hfinite with hchars | hchars | hchars
  · have herror : outcome (value room (w ++ floatStyle.nan.toList ++ rest)) = .error _ :=
      value_of_word hw (by decide) (by decide) hrest.word
    rw [hchars, herror] at h
    contradiction
  · have herror : outcome (value room (w ++ floatStyle.infinity.toList ++ rest)) = .error _ :=
      value_of_word hw (by decide) (by decide) hrest.word
    rw [hchars, herror] at h
    contradiction
  · have htrim : Text.trimStart (w ++ floatStyle.negativeInfinity.toList ++ rest) =
        '-' :: ("inf".toList ++ rest) := by
      rw [List.append_assoc]
      exact trimStart_start hw (by decide)
    rw [hchars, outcome_value_number htrim (.inl rfl)] at h
    obtain ⟨n, hscan, -⟩ := Numeral.outcome_read_iff.mp h
    exact absurd hscan (by simp [Numeral.scan, Numeral.sign, Numeral.digits])

/-- The text of every value begins like a literal. -/
theorem exists_chars_eq_cons (v : Value) :
    ∃ c more, v.chars = c :: more ∧ isStart c = true := by
  cases v with
  | null => exact ⟨'n', _, rfl, by decide⟩
  | bool b => cases b <;> exact ⟨_, _, rfl, by decide⟩
  | int i =>
      obtain ⟨c, more, hc, hstart⟩ := (numberToken_int i).exists_cons
      exact ⟨c, more, hc, isStart_of_number hstart⟩
  | float x =>
      by_cases hfinite : x.isFinite = true
      · obtain ⟨c, more, hc, hstart⟩ := (numberToken_float floatStyle hfinite).exists_cons
        exact ⟨c, more, hc, isStart_of_number hstart⟩
      · rw [Bool.not_eq_true] at hfinite
        rcases chars_of_not_isFinite floatStyle hfinite with hchars | hchars | hchars
        · exact ⟨'N', _, hchars, by decide⟩
        · exact ⟨'i', _, hchars, by decide⟩
        · exact ⟨'-', _, hchars, by decide⟩
  | string s => exact ⟨'"', _, rfl, by decide⟩
  | array items => cases items <;> exact ⟨'[', _, rfl, by decide⟩
  | object fields =>
      rcases fields with _ | ⟨⟨key, v⟩, fields⟩
      · exact ⟨'{', _, rfl, by decide⟩
      · exact ⟨'{', _, rfl, by decide⟩
  | objectId id => exact ⟨'O', _, objectId_chars_eq id, by decide⟩

theorem exists_fieldChars_eq_cons (f : String × Value) :
    ∃ c more, fieldChars f = c :: more ∧ isStart c = true := by
  obtain ⟨c, more, hc, hstart⟩ := (keyToken_chars f.1).exists_cons
  exact ⟨c, more ++ ':' :: ' ' :: f.2.chars, by rw [fieldChars, hc, List.cons_append], hstart⟩

theorem value_chars {v : Value} (hkeys : v.keysDistinct = true) :
    v.allFinite = true ∧ v.depth ≤ room → ∀ w rest, isBlank w = true → IsEnd rest →
      outcome (value room (w ++ v.chars ++ rest)) = .ok (v, rest) := by
  rintro ⟨hfinite, hdepth⟩
  exact complete_value room _ _ _ (denotes_chars v hkeys hfinite) hdepth

/-- The canonical text of a value is read if and only if all its numbers are finite and there is
room for its nesting. -/
theorem decides_chars (v : Value) (hkeys : v.keysDistinct = true) (room : Nat) :
    Decides (value room) v.chars v (v.allFinite = true ∧ v.depth ≤ room) := by
  induction v using Value.induction generalizing room with
  | null => exact .of_ok (value_chars hkeys) fun _ _ _ _ _ _ _ => ⟨rfl, Nat.zero_le _⟩
  | bool b => exact .of_ok (value_chars hkeys) fun _ _ _ _ _ _ _ => ⟨rfl, Nat.zero_le _⟩
  | int i => exact .of_ok (value_chars hkeys) fun _ _ _ _ _ _ _ => ⟨rfl, Nat.zero_le _⟩
  | string s => exact .of_ok (value_chars hkeys) fun _ _ _ _ _ _ _ => ⟨rfl, Nat.zero_le _⟩
  | objectId id => exact .of_ok (value_chars hkeys) fun _ _ _ _ _ _ _ => ⟨rfl, Nat.zero_le _⟩
  | float x =>
      refine .of_ok (value_chars hkeys) fun w rest hw hrest v after h => ?_
      exact ⟨isFinite_of_value hw hrest h, Nat.zero_le _⟩
  | array items ih =>
      refine .of_ok (value_chars hkeys) fun w rest hw _ u after h => ?_
      cases items with
      | nil =>
          obtain ⟨room, vs, rfl, -⟩ := (value_array_iff (t := []) hw).mp h
          exact ⟨rfl, Nat.le_add_left 1 room⟩
      | cons v items =>
          have hchars : Value.chars (.array (v :: items)) = '[' :: ([] ++ v.chars ++
              (items.flatMap fun v => ',' :: ' ' :: v.chars) ++ []) ++ [']'] := by
            simp [Value.chars, itemsChars_eq]
          rw [hchars] at h
          -- The array was read, so there was room for it, and each item was read with one level
          -- less.
          obtain ⟨room, vs, rfl, hcontents, -⟩ := (value_array_iff hw).mp h
          have hall := Decides.contents
            (fun v hv => ih v hv (Value.keysDistinct_array_iff.mp hkeys v hv) room)
            (exists_chars_eq_cons v) Text.isBlank_nil Text.isBlank_nil hcontents
          exact ⟨Value.allFinite_array_iff.mpr fun v hv => (hall v hv).1,
            Value.depth_array_le_iff.mpr fun v hv => (hall v hv).2⟩
  | object fields ih =>
      refine .of_ok (value_chars hkeys) fun w rest hw _ u after h => ?_
      cases fields with
      | nil =>
          obtain ⟨room, vs, rfl, -⟩ := (value_object_iff (t := []) hw).mp h
          exact ⟨rfl, Nat.le_add_left 1 room⟩
      | cons f fields =>
          have hchars : Value.chars (.object (f :: fields)) = '{' :: ([' '] ++ fieldChars f ++
              (fields.flatMap fun f => ',' :: ' ' :: fieldChars f) ++ [' ']) ++ ['}'] := by
            simp [Value.chars, fieldsChars_eq, fieldChars]
          rw [hchars] at h
          obtain ⟨room, pairs, rfl, hcontents, -⟩ := (value_object_iff hw).mp h
          have hinside := (Value.keysDistinct_object_iff.mp hkeys).2
          have hall := Decides.contents
            (fun f hf => (ih f hf (hinside f hf) room).field)
            (exists_fieldChars_eq_cons f) isBlank_space isBlank_space hcontents
          exact ⟨Value.allFinite_object_iff.mpr fun f hf => (hall f hf).1,
            Value.depth_object_le_iff.mpr fun f hf => (hall f hf).2⟩

/-! ## The round trip -/

theorem toList_text (v : Value) : v.text.toList = v.chars := by
  rw [Value.text, String.toList_ofList]

theorem derives_chars {v : Value} (hkeys : v.keysDistinct = true) (hfinite : v.allFinite = true)
    (hdepth : v.depth ≤ 128) : Derives v.chars v :=
  ⟨[], v.chars, [], v.depth, rfl, rfl, by simp, denotes_chars v hkeys hfinite, hdepth⟩

theorem not_blank_text (v : Value) : isBlank v.text.toList = false := by
  obtain ⟨c, more, hc, hstart⟩ := exists_chars_eq_cons v
  rw [toList_text, hc, Text.isBlank_cons, isSpace_of_isStart hstart, Bool.false_and]

/-- The canonical text of a value is parsed as that value if its numbers are finite and it is
not nested too deep; otherwise it is refused. -/
theorem parse_text (v : Value) (hkeys : v.keysDistinct = true) :
    (v.allFinite = true ∧ v.depth ≤ 128 → parse v.text = .ok v) ∧
      (¬(v.allFinite = true ∧ v.depth ≤ 128) → ∃ error, parse v.text = .error error) := by
  constructor
  · rintro ⟨hfinite, hdepth⟩
    rw [parse_of_not_blank (not_blank_text v), toList_text]
    exact derives_chars hkeys hfinite hdepth
  · intro hcondition
    cases hparse : parse v.text with
    | error error => exact ⟨error, rfl⟩
    | ok u =>
        rw [parse_of_not_blank (not_blank_text v), ← whole_eq_ok_iff_derives, whole_eq_ok_iff,
          toList_text] at hparse
        obtain ⟨rest, hvalue, -⟩ := hparse
        have hdecides := decides_chars v hkeys maxDepth [] [] rfl isEnd_nil u rest
        rw [List.nil_append, List.append_nil] at hdecides
        exact absurd (hdecides.mp hvalue).1 hcondition

/-- A negative zero, the least integer, a key and a string that need escapes; and a number that
is not finite, deep inside. -/
theorem parse_text_mixed :
    parse (Value.text (.object [("a \"b\"", .array [.float ⟨0x8000000000000000⟩, .int .minValue]),
        ("$c", .object [("", .string "x\n\u0001é")])])) =
      .ok (.object [("a \"b\"", .array [.float ⟨0x8000000000000000⟩, .int .minValue]),
        ("$c", .object [("", .string "x\n\u0001é")])]) ∧
    ∃ error, parse (Value.text (.array [.null, .object [("x", .float ⟨0x7FF8000000000000⟩)]])) =
      .error error := by
  refine ⟨(parse_text _ (by decide +kernel)).1 (by decide +kernel), ?_⟩
  exact (parse_text _ (by decide +kernel)).2 (by decide +kernel)

end DocShell.Literal
