import DocShell.Json
import DocShell.Proofs.Literal.Nesting

set_option autoImplicit false

/-! # JSON text is a literal

The JSON text of a value, on one line or on several, is a literal, and what it denotes is the
value with identifiers and numbers that are not finite replaced as JSON has to replace them
(`denotes_json`). The proof is in two steps. A value and its expansion have the same JSON text
(`jsonChars_expand`). And a value that is its own expansion is denoted by its JSON text: strings,
keys and numbers are tokens of the grammar although they are spelled in another way than in
canonical text, and line breaks and indentation are white space.
-/

namespace DocShell

open Text (isBlank)

/-! ## Expansion -/

namespace Value

theorem expandItems_eq (items : List Value) : expandItems items = items.map expand := by
  induction items with
  | nil => rfl
  | cons v items ih => rw [expandItems, ih, List.map_cons]

theorem expandFields_eq (fields : Fields) :
    expandFields fields = fields.map fun f => (f.1, f.2.expand) := by
  induction fields with
  | nil => rfl
  | cons f fields ih => rw [expandFields, ih, List.map_cons]

theorem expand_array (items : List Value) : expand (array items) = array (items.map expand) := by
  rw [expand, expandItems_eq]

theorem expand_object (fields : Fields) :
    expand (object fields) = object (fields.map fun f => (f.1, f.2.expand)) := by
  rw [expand, expandFields_eq]

theorem keys_map_expand (fields : Fields) :
    Fields.keys (fields.map fun f => (f.1, f.2.expand)) = Fields.keys fields := by
  rw [Fields.keys, List.map_map]
  rfl

/-- There is nothing left to replace. -/
theorem expand_expand (v : Value) : v.expand.expand = v.expand := by
  induction v using Value.induction with
  | null => rfl
  | bool b => rfl
  | int i => rfl
  | string s => rfl
  | objectId id => rfl
  | float x =>
      by_cases hfinite : x.isFinite = true
      · simp [expand, hfinite]
      · simp [expand, hfinite]
  | array items ih =>
      rw [expand_array, expand_array, List.map_map]
      exact congrArg array (List.map_congr_left ih)
  | object fields ih =>
      rw [expand_object, expand_object, List.map_map]
      refine congrArg object (List.map_congr_left fun f hf => ?_)
      exact Prod.ext rfl (ih f hf)

/-- Keys are not touched. -/
theorem keysDistinct_expand {v : Value} (h : v.keysDistinct = true) :
    v.expand.keysDistinct = true := by
  induction v using Value.induction with
  | null => exact h
  | bool b => exact h
  | int i => exact h
  | string s => exact h
  | objectId id => rfl
  | float x => by_cases hfinite : x.isFinite = true <;> simp [expand, hfinite] <;> rfl
  | array items ih =>
      rw [expand_array, keysDistinct_array_iff, List.forall_mem_map]
      intro v hv
      exact ih v hv (keysDistinct_array_iff.mp h v hv)
  | object fields ih =>
      obtain ⟨hnodup, hinside⟩ := keysDistinct_object_iff.mp h
      rw [expand_object, keysDistinct_object_iff, keys_map_expand, List.forall_mem_map]
      exact ⟨hnodup, fun f hf => ih f hf (hinside f hf)⟩

/-! ## The texts of items and fields -/

theorem jsonItems_eq (layout : JsonLayout) (level : Nat) (items : List Value) :
    jsonItems layout level items = items.map (jsonChars layout level) := by
  induction items with
  | nil => rfl
  | cons v items ih => rw [jsonItems, ih, List.map_cons]

/-- The JSON text of a field. -/
def jsonField (layout : JsonLayout) (level : Nat) (f : String × Value) : List Char :=
  Json.member layout f.1 (f.2.jsonChars layout level)

theorem jsonFields_eq (layout : JsonLayout) (level : Nat) (fields : Fields) :
    jsonFields layout level fields = fields.map (jsonField layout level) := by
  induction fields with
  | nil => rfl
  | cons f fields ih =>
      rw [jsonFields, ih, List.map_cons]
      rfl

/-- JSON text tells a value up to its expansion. -/
theorem jsonChars_expand (layout : JsonLayout) (level : Nat) (v : Value) :
    v.expand.jsonChars layout level = v.jsonChars layout level := by
  induction v using Value.induction generalizing level with
  | null => rfl
  | bool b => rfl
  | int i => rfl
  | string s => rfl
  | objectId id => rfl
  | float x =>
      by_cases hfinite : x.isFinite = true
      · rw [expand, if_pos hfinite]
      · rw [expand, if_neg hfinite, jsonChars, jsonChars]
        rw [Bool.not_eq_true] at hfinite
        -- All numbers that are not finite have the text of `null`.
        rcases Literal.chars_of_not_isFinite Json.floatStyle hfinite with hchars | hchars | hchars
        · rw [hchars]
          rfl
        · rw [hchars]
          rfl
        · rw [hchars]
          rfl
  | array items ih =>
      rw [expand_array, jsonChars, jsonChars, jsonItems_eq, jsonItems_eq, List.map_map]
      have hitems : items.map (jsonChars layout (level + 1) ∘ expand) =
          items.map (jsonChars layout (level + 1)) :=
        List.map_congr_left fun v hv => ih v hv (level + 1)
      rw [hitems]
  | object fields ih =>
      rw [expand_object, jsonChars, jsonChars, jsonFields_eq, jsonFields_eq, List.map_map]
      have hfields : fields.map (jsonField layout (level + 1) ∘ fun f => (f.1, f.2.expand)) =
          fields.map (jsonField layout (level + 1)) := by
        refine List.map_congr_left fun f hf => ?_
        show Json.member layout f.1 (f.2.expand.jsonChars layout (level + 1)) = _
        rw [ih f hf (level + 1)]
        rfl
      rw [hfields]

end Value

/-! ## Tokens -/

namespace Json

/-- Each character is spelled by one piece. -/
theorem piece_spelling (c : Char) : Quoted.Piece '"' (spelling c) [c] := by
  unfold spelling
  split_ifs with hquote hslash hback htab hfeed hform hreturn hcontrol
  · subst hquote
    exact .escape (by decide) (by decide) (by decide) (by decide)
  · subst hslash
    exact .escape (by decide) (by decide) (by decide) (by decide)
  · subst hback
    exact .escape (c := 'b') (by decide) (by decide) (by decide) (by decide)
  · subst htab
    exact .escape (c := 't') (by decide) (by decide) (by decide) (by decide)
  · subst hfeed
    exact .escape (c := 'n') (by decide) (by decide) (by decide) (by decide)
  · subst hform
    exact .escape (c := 'f') (by decide) (by decide) (by decide) (by decide)
  · subst hreturn
    exact .escape (c := 'r') (by decide) (by decide) (by decide) (by decide)
  · exact Quoted.piece_hexPadded (by omega)
  · exact .plain hquote hslash hfeed hreturn

theorem spelling_ne_return (c : Char) : spelling c ≠ ['\\', '\r'] := by
  unfold spelling
  split_ifs <;> simp

theorem isBlank_indent (layout : JsonLayout) (level : Nat) :
    isBlank (indent layout level) = true := by
  cases layout with
  | compact => rfl
  | pretty =>
      rw [indent, Text.isBlank_cons, Text.isBlank_iff.mpr]
      · decide
      · intro c hc
        rw [List.eq_of_mem_replicate hc]
        decide

/-- What stands between the brackets, where there is an item. -/
theorem bracketed_map {α : Type} (layout : JsonLayout) (level : Nat) (container : Container)
    (chars : α → List Char) (a : α) (as : List α) :
    bracketed layout level container ((a :: as).map chars) =
      container.opening :: (indent layout (level + 1) ++ chars a ++
        (as.flatMap fun b => ',' :: indent layout (level + 1) ++ chars b) ++
        indent layout level) ++ [container.closing] := by
  rw [List.map_cons, bracketed, List.flatMap_map]
  simp only [List.append_assoc, List.cons_append]

end Json

namespace Literal

theorem stringToken_quoted (s : String) : StringToken (Json.quoted s.toList) s := by
  have hspelled : Quoted.Spelled '"' (s.toList.flatMap Json.spelling) s.toList :=
    Quoted.spelled_flatMap Json.piece_spelling Json.spelling_ne_return s.toList
  exact stringToken_iff.mpr ⟨'"', _, by decide, rfl, hspelled⟩

theorem field_member (layout : JsonLayout) {Item : List Char → Value → Nat → Prop} {t : List Char}
    {v : Value} {n : Nat} (key : String) (hv : Item t v n) :
    Field Item (Json.member layout key t) (key, v) n := by
  have hkey : KeyToken (Json.quoted key.toList) key := .quoted (stringToken_quoted key)
  cases layout with
  | compact =>
      have hfield := Field.field hkey Text.isBlank_nil Text.isBlank_nil hv
      simpa [Json.member] using hfield
  | pretty =>
      have hfield := Field.field hkey Text.isBlank_nil isBlank_space hv
      simpa [Json.member] using hfield

/-! ## Values -/

/-- The JSON text of a value that is its own expansion is a literal for it. -/
theorem denotes_jsonChars (layout : JsonLayout) (level : Nat) (v : Value)
    (hkeys : v.keysDistinct = true) (hexpand : v.expand = v) :
    Denotes (v.jsonChars layout level) v v.depth := by
  induction v using Value.induction generalizing level with
  | null => exact .scalar .null
  | bool b =>
      cases b with
      | true => exact .scalar .yes
      | false => exact .scalar .no
  | int i => exact .scalar (.number (numberToken_int i))
  | float x =>
      have hfinite : x.isFinite = true := by
        by_contra hfinite
        simp [Value.expand, hfinite] at hexpand
      exact .scalar (.number (numberToken_float _ hfinite))
  | string s => exact .scalar (.string (stringToken_quoted s))
  | objectId id => contradiction
  | array items ih =>
      rw [Value.expand_array, Value.array.injEq] at hexpand
      have hall : ∀ v ∈ items, Denotes (v.jsonChars layout (level + 1)) v v.depth := by
        intro v hv
        exact ih v hv (level + 1) (Value.keysDistinct_array_iff.mp hkeys v hv)
          (List.map_inj_left.mp (hexpand.trans (List.map_id items).symm) v hv)
      rw [Value.jsonChars, Value.jsonItems_eq, depth_array_eq]
      cases items with
      | nil => exact .emptyArray Text.isBlank_nil
      | cons v items =>
          rw [Json.bracketed_map]
          exact .array (separated_flatMap (Json.isBlank_indent layout (level + 1))
            (Json.isBlank_indent layout (level + 1)) (Json.isBlank_indent layout level) hall)
  | object fields ih =>
      obtain ⟨hnodup, hinside⟩ := Value.keysDistinct_object_iff.mp hkeys
      rw [Value.expand_object, Value.object.injEq] at hexpand
      have hall : ∀ f ∈ fields,
          Field Denotes (Value.jsonField layout (level + 1) f) f f.2.depth := by
        intro f hf
        have hself := List.map_inj_left.mp (hexpand.trans (List.map_id fields).symm) f hf
        have hv := ih f hf (level + 1) (hinside f hf) (congrArg Prod.snd hself)
        exact field_member layout f.1 hv
      rw [Value.jsonChars, Value.jsonFields_eq, depth_object_eq]
      cases fields with
      | nil => exact .emptyObject Text.isBlank_nil
      | cons f fields =>
          have hobject := Denotes.object (separated_flatMap
            (Json.isBlank_indent layout (level + 1)) (Json.isBlank_indent layout (level + 1))
            (Json.isBlank_indent layout level) hall)
          -- The keys are distinct, so no field is set twice and the order is that of the text.
          rw [Value.ofPairs, Fields.ofPairs_of_nodup_keys hnodup] at hobject
          rw [Json.bracketed_map]
          exact hobject

/-- The JSON text of a value is a literal for its expansion. -/
theorem denotes_json (layout : JsonLayout) {v : Value} (hkeys : v.keysDistinct = true) :
    Denotes (v.json layout).toList v.expand v.expand.depth := by
  rw [Value.json, String.toList_ofList, ← Value.jsonChars_expand]
  exact denotes_jsonChars layout 0 v.expand (Value.keysDistinct_expand hkeys) v.expand_expand

/-- JSON text, on one line or on several, is parsed as the expansion of the value it was made
from, unless that is nested too deep. -/
theorem parse_json (layout : JsonLayout) (v : Value) (hkeys : v.keysDistinct = true) :
    (v.expand.depth ≤ 128 → parse (v.json layout) = .ok v.expand) ∧
      (128 < v.expand.depth → ∃ error, parse (v.json layout) = .error error) :=
  parse_of_denotes (denotes_json layout hkeys)

/-- Control characters, an identifier and a number that is not finite, set out over several lines;
and an identifier inside of so many arrays that its own object is one level too much. -/
theorem parse_json_mixed :
    parse (Value.json .pretty (.object [("\x08\"\x7f", .array [
        .objectId ⟨"559d3e5b8152eefd4e9bed45", by decide, by decide⟩,
        .float ⟨0x7FF8000000000000⟩, .float ⟨0x4341C37937E08000⟩]), ("", .string "\x1f\u0085")])) =
      .ok (.object [("\x08\"\x7f", .array [
        .object [("$oid", .string "559d3e5b8152eefd4e9bed45")],
        .null, .float ⟨0x4341C37937E08000⟩]), ("", .string "\x1f\u0085")]) ∧
    ∃ error, parse (Value.json .compact (Nat.repeat (fun v => .array [v]) 128
      (.objectId ⟨"559d3e5b8152eefd4e9bed45", by decide, by decide⟩))) = .error error := by
  refine ⟨(parse_json .pretty _ (by decide +kernel)).1 (by decide +kernel), ?_⟩
  exact (parse_json .compact _ (by decide +kernel)).2 (by decide +kernel)

end Literal

end DocShell
