import DocShell.Proofs.Literal.NumberText
import DocShell.Proofs.Value

set_option autoImplicit false

/-! # The canonical text is a literal

The canonical text of a value with distinct keys and finite numbers is a literal for that very
value, nested as deep as the value is (`denotes_chars`). The induction is on the value: each
string, key, number and identifier is a token, and the items and the fields of a container are
separated literals.
-/

namespace DocShell

/-! ## Hexadecimal digits -/

namespace Text

theorem length_hexPadded (width n : Nat) : (hexPadded width n).length = width := by
  induction width generalizing n with
  | zero => rfl
  | succ width ih => rw [hexPadded, List.length_append, ih, List.length_singleton]

theorem isHex_hexDigit {n : Nat} (h : n < 16) : isHex (hexDigit n) = true := by
  rw [isHex, hexValue?_hexDigit h]
  rfl

theorem all_isHex_hexPadded (width n : Nat) : (hexPadded width n).all isHex = true := by
  induction width generalizing n with
  | zero => rfl
  | succ width ih =>
      rw [hexPadded, List.all_append, ih]
      simpa using isHex_hexDigit (Nat.mod_lt n (by decide))

theorem foldl_hexPadded (width n : Nat) :
    (hexPadded width n).foldl (fun n d => 16 * n + (hexValue? d).getD 0) 0 = n % 16 ^ width := by
  induction width generalizing n with
  | zero => simp [hexPadded, Nat.mod_one]
  | succ width ih =>
      rw [hexPadded, List.foldl_append, ih, List.foldl_cons, List.foldl_nil,
        hexValue?_hexDigit (Nat.mod_lt n (by decide)), Option.getD_some, Nat.pow_succ',
        Nat.mod_mul, Nat.add_comm]

/-- Digits read back, if there are enough of them. -/
theorem hexNumber?_hexPadded {width n : Nat} (h : n < 16 ^ width) :
    hexNumber? width (hexPadded width n) = some n := by
  have htake : (hexPadded width n).take width = hexPadded width n :=
    List.take_of_length_le (Nat.le_of_eq (length_hexPadded width n))
  rw [hexNumber?]
  simp only [htake, length_hexPadded, all_isHex_hexPadded, and_self, if_true, foldl_hexPadded,
    Nat.mod_eq_of_lt h]

end Text

/-! ## Strings -/

namespace Quoted

/-- Control characters need two digits at most, and are no surrogates. -/
theorem piece_hexPadded {quote c : Char} (h : c.toNat < 0xA0) :
    Piece quote ('\\' :: 'u' :: Text.hexPadded 4 c.toNat) [c] := by
  have hcode : Text.hexNumber? 4 (Text.hexPadded 4 c.toNat) = some c.toNat :=
    Text.hexNumber?_hexPadded (by omega)
  have hpiece : Piece quote ('\\' :: 'u' :: Text.hexPadded 4 c.toNat) [Char.ofNat c.toNat] :=
    .code (Text.length_hexPadded 4 _) hcode (by simp [isHighSurrogate]; omega)
      (by simp [isLowSurrogate]; omega)
  rw [Char.ofNat_toNat] at hpiece
  exact hpiece

/-- Each character is spelled by one piece. -/
theorem piece_spelling (c : Char) : Piece '"' (spelling c) [c] := by
  unfold spelling
  split_ifs with hquote hslash hfeed hreturn htab hcontrol
  · subst hquote
    exact .escape (by decide) (by decide) (by decide) (by decide)
  · subst hslash
    exact .escape (by decide) (by decide) (by decide) (by decide)
  · subst hfeed
    exact .escape (c := 'n') (by decide) (by decide) (by decide) (by decide)
  · subst hreturn
    exact .escape (c := 'r') (by decide) (by decide) (by decide) (by decide)
  · subst htab
    exact .escape (c := 't') (by decide) (by decide) (by decide) (by decide)
  · have hlt : c.toNat < 0xA0 := by
      simp only [Text.isControl, Bool.or_eq_true, Bool.and_eq_true, decide_eq_true_eq] at hcontrol
      omega
    exact piece_hexPadded hlt
  · exact .plain hquote hslash hfeed hreturn

theorem spelling_ne_return (c : Char) : spelling c ≠ ['\\', '\r'] := by
  unfold spelling
  split_ifs <;> simp

/-- Where each character has a piece of its own, and none is a line break, a text is spelled
character by character. -/
theorem spelled_flatMap {quote : Char} {pieceOf : Char → List Char}
    (hpiece : ∀ c, Piece quote (pieceOf c) [c]) (hreturn : ∀ c, pieceOf c ≠ ['\\', '\r'])
    (s : List Char) : Spelled quote (s.flatMap pieceOf) s := by
  induction s with
  | nil => exact .nil
  | cons c s ih =>
      rw [List.flatMap_cons]
      exact .cons (hpiece c) (fun h => absurd h (hreturn c)) ih

theorem spelled_spelling (s : List Char) : Spelled '"' (s.flatMap spelling) s :=
  spelled_flatMap piece_spelling spelling_ne_return s

/-- Hexadecimal digits spell themselves. -/
theorem spelled_of_isHex {s : List Char} (h : s.all Text.isHex = true) : Spelled '"' s s := by
  induction s with
  | nil => exact .nil
  | cons c s ih =>
      rw [List.all_cons, Bool.and_eq_true] at h
      have hne : ∀ d : Char, Text.isHex d = false → c ≠ d := by
        rintro d hd rfl
        rw [hd] at h
        exact Bool.false_ne_true h.1
      have hpiece : Piece '"' [c] [c] :=
        .plain (hne _ (by decide)) (hne _ (by decide)) (hne _ (by decide)) (hne _ (by decide))
      exact .cons hpiece (by simp) (ih h.2)

end Quoted

namespace Literal

open Text (isBlank)

theorem stringToken_chars (s : String) : StringToken (Quoted.chars s.toList) s :=
  stringToken_iff.mpr ⟨'"', _, by decide, rfl, Quoted.spelled_spelling _⟩

theorem keyToken_chars (key : String) : KeyToken (Key.chars key) key := by
  unfold Key.chars
  split_ifs with hbare
  · simp only [Word.isBare, Bool.and_eq_true, Bool.not_eq_true', List.isEmpty_eq_false_iff]
      at hbare
    have htoken := KeyToken.bare hbare.1 hbare.2
    rw [String.ofList_toList] at htoken
    exact htoken
  · exact .quoted (stringToken_chars key)

theorem objectId_chars_eq (id : ObjectId) :
    id.chars = "ObjectId".toList ++ '(' :: '"' :: (id.hex.toList ++ ['"', ')']) := by
  have hopen : "ObjectId(\"".toList = "ObjectId".toList ++ ['(', '"'] := by decide
  have hclose : "\")".toList = ['"', ')'] := by decide
  unfold ObjectId.chars
  rw [hopen, hclose, List.append_assoc, List.append_assoc]
  rfl

theorem identifierCall_chars (id : ObjectId) : IdentifierCall id.chars id := by
  have hlength : id.hex.toList.length = 24 :=
    (ObjectId.size_eq_length id.all_hex).symm.trans id.size_eq
  have htoken : StringToken ('"' :: (id.hex.toList ++ ['"'])) id.hex :=
    stringToken_iff.mpr ⟨'"', _, by decide, rfl, Quoted.spelled_of_isHex id.all_hex⟩
  have hcall := IdentifierCall.call Text.isBlank_nil Text.isBlank_nil htoken Text.isBlank_nil
    hlength id.all_hex
  rw [objectId_chars_eq]
  simpa only [List.append_assoc, List.cons_append, List.nil_append, List.append_nil,
    ObjectId.ofDigits] using hcall

/-! ## Items and fields -/

/-- The text of a field. -/
def fieldChars (f : String × Value) : List Char :=
  Key.chars f.1 ++ ':' :: ' ' :: f.2.chars

theorem itemsChars_eq (items : List Value) :
    Value.itemsChars items = items.flatMap fun v => ',' :: ' ' :: v.chars := by
  induction items with
  | nil => rfl
  | cons v items ih => simp [Value.itemsChars, ih]

theorem fieldsChars_eq (fields : Fields) :
    Value.fieldsChars fields = fields.flatMap fun f => ',' :: ' ' :: fieldChars f := by
  induction fields with
  | nil => rfl
  | cons f fields ih => simp [Value.fieldsChars, fieldChars, ih]

theorem depth_array_eq (items : List Value) :
    Value.depth (.array items) = (items.map Value.depth).foldr max 0 + 1 := by
  have hitems : Value.itemsDepth items = (items.map Value.depth).foldr max 0 := by
    induction items with
    | nil => rfl
    | cons v items ih => simp [Value.itemsDepth, ih]
  rw [Value.depth, hitems, Nat.add_comm]

theorem depth_object_eq (fields : Fields) :
    Value.depth (.object fields) = (fields.map fun f => f.2.depth).foldr max 0 + 1 := by
  have hfields : Value.fieldsDepth fields = (fields.map fun f => f.2.depth).foldr max 0 := by
    induction fields with
    | nil => rfl
    | cons f fields ih => simp [Value.fieldsDepth, ih]
  rw [Value.depth, hfields, Nat.add_comm]

theorem isBlank_space : isBlank [' '] = true := by decide

/-- Items that are set apart by a comma and white space. -/
theorem separated_flatMap {α : Type} {Item : List Char → α → Nat → Prop} {chars : α → List Char}
    {depth : α → Nat} {w₁ gap w₂ : List Char} {a : α} {as : List α} (hw₁ : isBlank w₁ = true)
    (hgap : isBlank gap = true) (hw₂ : isBlank w₂ = true)
    (h : ∀ b ∈ a :: as, Item (chars b) b (depth b)) :
    Separated Item (w₁ ++ chars a ++ (as.flatMap fun b => ',' :: gap ++ chars b) ++ w₂) (a :: as)
      (((a :: as).map depth).foldr max 0) := by
  induction as generalizing a w₁ with
  | nil =>
      have hlast := Separated.last hw₁ (h a (by simp)) hw₂
      simpa using hlast
  | cons b as ih =>
      have hall : ∀ c ∈ b :: as, Item (chars c) c (depth c) :=
        fun c hc => h c (List.mem_cons_of_mem a hc)
      -- The white space after the comma stands before the next item.
      have hrest := ih hgap hall
      have hmore := Separated.more hw₁ (h a (by simp)) Text.isBlank_nil hrest
      simpa using hmore

/-! ## Values -/

/-- The canonical text of a value is a literal for it. -/
theorem denotes_chars (v : Value) (hkeys : v.keysDistinct = true) (hfinite : v.allFinite = true) :
    Denotes v.chars v v.depth := by
  induction v using Value.induction with
  | null => exact .scalar .null
  | bool b =>
      cases b with
      | true => exact .scalar .yes
      | false => exact .scalar .no
  | int i => exact .scalar (.number (numberToken_int i))
  | float x => exact .scalar (.number (numberToken_float _ hfinite))
  | string s => exact .scalar (.string (stringToken_chars s))
  | objectId id => exact .scalar (.identifier (identifierCall_chars id))
  | array items ih =>
      have hall : ∀ v ∈ items, Denotes v.chars v v.depth := fun v hv =>
        ih v hv (Value.keysDistinct_array_iff.mp hkeys v hv)
          (Value.allFinite_array_iff.mp hfinite v hv)
      cases items with
      | nil => exact .emptyArray Text.isBlank_nil
      | cons v items =>
          have harray := Denotes.array
            (separated_flatMap Text.isBlank_nil isBlank_space Text.isBlank_nil hall)
          rw [depth_array_eq, Value.chars, itemsChars_eq]
          simpa using harray
  | object fields ih =>
      obtain ⟨hnodup, hinside⟩ := Value.keysDistinct_object_iff.mp hkeys
      have hall : ∀ f ∈ fields, Field Denotes (fieldChars f) f f.2.depth := by
        intro f hf
        have hv := ih f hf (hinside f hf) (Value.allFinite_object_iff.mp hfinite f hf)
        have hfield := Field.field (keyToken_chars f.1) Text.isBlank_nil isBlank_space hv
        simpa [fieldChars] using hfield
      cases fields with
      | nil => exact .emptyObject Text.isBlank_nil
      | cons f fields =>
          have hobject := Denotes.object
            (separated_flatMap isBlank_space isBlank_space isBlank_space hall)
          -- The keys are distinct, so no field is set twice and the order is that of the text.
          rw [Value.ofPairs, Fields.ofPairs_of_nodup_keys hnodup, ← depth_object_eq] at hobject
          rw [Value.chars, fieldsChars_eq]
          simpa [fieldChars] using hobject

end Literal

end DocShell
