import DocShell.Proofs.Literal.Numerals
import DocShell.Proofs.Literal.Strings

set_option autoImplicit false

/-! # The grammar of literals

`Denotes t v n` says that the text `t`, without white space around it, is a literal for the
value `v`, and that its objects and arrays are nested `n` deep. The relation knows nothing of
how literals are read: it has one rule for each form of a literal, white space may stand
between any two tokens, and only the two kinds of token with an inner life of their own,
strings and numbers, are what their readers take them for.

The nesting is that of the text. It can be greater than that of the value, since a field that
is written twice keeps its last value only.
-/

namespace DocShell

namespace ObjectId

/-- Hexadecimal digits take one byte each. -/
theorem size_eq_length {cs : List Char} (h : cs.all Text.isHex = true) :
    Text.size cs = cs.length := by
  induction cs with
  | nil => rfl
  | cons c cs ih =>
      rw [List.all_cons, Bool.and_eq_true] at h
      rw [Text.size_cons, List.length_cons, ih h.2, Text.utf8Size_of_isHex h.1, Nat.add_comm]

/-- The identifier with the given 24 hexadecimal digits. -/
def ofDigits (hex : String) (length_eq : hex.toList.length = 24)
    (all_hex : hex.toList.all Text.isHex = true) : ObjectId :=
  ⟨hex, (size_eq_length all_hex).trans length_eq, all_hex⟩

theorem ofHex_eq_ok_iff {hex : String} {id : ObjectId} :
    ofHex hex = .ok id ↔
      ∃ (length_eq : hex.toList.length = 24) (all_hex : hex.toList.all Text.isHex = true),
        id = ofDigits hex length_eq all_hex := by
  unfold ofHex
  constructor
  · intro h
    split_ifs at h with hsize hhex
    injection h with h
    exact ⟨(size_eq_length hhex).symm.trans hsize, hhex, h.symm⟩
  · rintro ⟨hlen, hhex, rfl⟩
    rw [dif_pos ((size_eq_length hhex).trans hlen), dif_pos hhex]
    rfl

end ObjectId

namespace Literal

open Text (isBlank isSpace)

/-! ## Tokens -/

/-- A string token and the string it stands for: the reader of strings takes all of it. -/
def StringToken (t : List Char) (s : String) : Prop :=
  ∃ quote body, Quoted.isQuote quote = true ∧ t = quote :: body ∧
    outcome (Quoted.text quote body) = .ok (s, [])

/-- A number token and its value: the reader of numbers takes all of it. -/
def NumberToken (t : List Char) (v : Value) : Prop :=
  outcome (Numeral.read t) = .ok (v, [])

theorem stringToken_iff {t : List Char} {s : String} :
    StringToken t s ↔ ∃ quote b, Quoted.isQuote quote = true ∧ t = quote :: (b ++ [quote]) ∧
      Quoted.Spelled quote b s.toList := by
  constructor
  · rintro ⟨quote, body, hquote, rfl, htext⟩
    obtain ⟨b, rfl, hb⟩ := (Quoted.outcome_text_iff hquote).mp htext
    exact ⟨quote, b, hquote, rfl, hb⟩
  · rintro ⟨quote, b, hquote, rfl, hb⟩
    exact ⟨quote, b ++ [quote], hquote, rfl, (Quoted.outcome_text_iff hquote).mpr ⟨b, rfl, hb⟩⟩

theorem numberToken_iff {t : List Char} {v : Value} :
    NumberToken t v ↔ ∃ n, Numeral.Spelled t n ∧ n.toValue? = some v := by
  have hend : Numeral.IsEnd [] := by simp [Numeral.IsEnd]
  constructor
  · intro h
    obtain ⟨n, hscan, hv⟩ := Numeral.outcome_read_iff.mp h
    obtain ⟨t', ht', rfl⟩ := Numeral.spelled_of_scan hscan
    exact ⟨n, by rwa [List.append_nil], hv⟩
  · rintro ⟨n, ht, hv⟩
    have hscan := Numeral.scan_of_spelled ht hend
    rw [List.append_nil] at hscan
    exact Numeral.outcome_read_iff.mpr ⟨n, hscan, hv⟩

/-- The key of a field: a string, or a bare word. -/
inductive KeyToken : List Char → String → Prop
  | quoted {t : List Char} {s : String} (h : StringToken t s) : KeyToken t s
  | bare {t : List Char} (hne : t ≠ []) (hall : t.all Word.isWordChar = true) :
      KeyToken t (String.ofList t)

/-! ## Literals -/

/-- The name `ObjectId` and a string of 24 hexadecimal digits in parentheses. -/
inductive IdentifierCall : List Char → ObjectId → Prop
  | call {w₁ w₂ t w₃ : List Char} {s : String} (hw₁ : isBlank w₁ = true)
      (hw₂ : isBlank w₂ = true) (ht : StringToken t s) (hw₃ : isBlank w₃ = true)
      (length_eq : s.toList.length = 24) (all_hex : s.toList.all Text.isHex = true) :
      IdentifierCall ("ObjectId".toList ++ w₁ ++ '(' :: w₂ ++ t ++ w₃ ++ [')'])
        (.ofDigits s length_eq all_hex)

/-- The literals that hold no others. -/
inductive Scalar : List Char → Value → Prop
  | null : Scalar "null".toList .null
  | yes : Scalar "true".toList (.bool true)
  | no : Scalar "false".toList (.bool false)
  | string {t : List Char} {s : String} (ht : StringToken t s) : Scalar t (.string s)
  | number {t : List Char} {v : Value} (ht : NumberToken t v) : Scalar t v
  | identifier {t : List Char} {id : ObjectId} (ht : IdentifierCall t id) :
      Scalar t (.objectId id)
  | construction {w t : List Char} {id : ObjectId} (hw : isBlank w = true) (hne : w ≠ [])
      (ht : IdentifierCall t id) : Scalar ("new".toList ++ w ++ t) (.objectId id)

/-- One or more items with commas between them and white space around each. The nesting is the
greatest one of the items. -/
inductive Separated {α : Type} (Item : List Char → α → Nat → Prop) :
    List Char → List α → Nat → Prop
  | last {w₁ t w₂ : List Char} {a : α} {n : Nat} (hw₁ : isBlank w₁ = true) (ha : Item t a n)
      (hw₂ : isBlank w₂ = true) : Separated Item (w₁ ++ t ++ w₂) [a] n
  | more {w₁ t w₂ ts : List Char} {a : α} {as : List α} {n m : Nat} (hw₁ : isBlank w₁ = true)
      (ha : Item t a n) (hw₂ : isBlank w₂ = true) (has : Separated Item ts as m) :
      Separated Item (w₁ ++ t ++ w₂ ++ ',' :: ts) (a :: as) (max n m)

/-- A field: a key, a colon and a literal. -/
inductive Field (Item : List Char → Value → Nat → Prop) :
    List Char → String × Value → Nat → Prop
  | field {k w₁ w₂ t : List Char} {key : String} {v : Value} {n : Nat} (hk : KeyToken k key)
      (hw₁ : isBlank w₁ = true) (hw₂ : isBlank w₂ = true) (hv : Item t v n) :
      Field Item (k ++ w₁ ++ ':' :: w₂ ++ t) (key, v) n

/-- The text is a literal for the value, with objects and arrays nested so deep. The fields of
an object are set from left to right. -/
inductive Denotes : List Char → Value → Nat → Prop
  | scalar {t : List Char} {v : Value} (h : Scalar t v) : Denotes t v 0
  | emptyArray {w : List Char} (hw : isBlank w = true) : Denotes ('[' :: w ++ [']']) (.array []) 1
  | array {t : List Char} {vs : List Value} {n : Nat} (h : Separated Denotes t vs n) :
      Denotes ('[' :: t ++ [']']) (.array vs) (n + 1)
  | emptyObject {w : List Char} (hw : isBlank w = true) : Denotes ('{' :: w ++ ['}']) .empty 1
  | object {t : List Char} {pairs : List (String × Value)} {n : Nat}
      (h : Separated (Field Denotes) t pairs n) :
      Denotes ('{' :: t ++ ['}']) (.ofPairs pairs) (n + 1)

/-! ## Induction -/

/-- Induction over literals: in the two cases of containers, what is to be shown may be assumed
of each literal inside. -/
theorem Denotes.induction {P : List Char → Value → Nat → Prop}
    (scalar : ∀ t v, Scalar t v → P t v 0)
    (emptyArray : ∀ w, isBlank w = true → P ('[' :: w ++ [']']) (.array []) 1)
    (array : ∀ t vs n, Separated (fun t v n => Denotes t v n ∧ P t v n) t vs n →
      P ('[' :: t ++ [']']) (.array vs) (n + 1))
    (emptyObject : ∀ w, isBlank w = true → P ('{' :: w ++ ['}']) .empty 1)
    (object : ∀ t pairs n, Separated (Field fun t v n => Denotes t v n ∧ P t v n) t pairs n →
      P ('{' :: t ++ ['}']) (.ofPairs pairs) (n + 1))
    {t : List Char} {v : Value} {n : Nat} (h : Denotes t v n) : P t v n := by
  refine @Denotes.rec (fun t v n _ => P t v n)
    (fun t vs n _ => Separated (fun t v n => Denotes t v n ∧ P t v n) t vs n)
    (fun t pairs n _ => Separated (Field fun t v n => Denotes t v n ∧ P t v n) t pairs n)
    (fun t p n _ => Field (fun t v n => Denotes t v n ∧ P t v n) t p n)
    (scalar _ _) (emptyArray _) (fun _ => array _ _ _) (emptyObject _) (fun _ => object _ _ _)
    ?_ ?_ ?_ ?_ ?_ t v n h
  · intro w₁ t w₂ v n hw₁ hv hw₂ ih
    exact .last hw₁ ⟨hv, ih⟩ hw₂
  · intro w₁ t w₂ ts v vs n m hw₁ hv hw₂ hvs ih ihs
    exact .more hw₁ ⟨hv, ih⟩ hw₂ ihs
  · intro w₁ t w₂ p n hw₁ hp hw₂ ih
    exact .last hw₁ ih hw₂
  · intro w₁ t w₂ ts p ps n m hw₁ hp hw₂ hps ih ihs
    exact .more hw₁ ih hw₂ ihs
  · intro k w₁ w₂ t key v n hk hw₁ hw₂ hv ih
    exact .field hk hw₁ hw₂ ⟨hv, ih⟩

end Literal

end DocShell
