import DocShell.Proofs.Command.RoundTrip

set_option autoImplicit false

/-! # What is read is well formed

A value that was read from a text is well formed at every depth: whatever stands `Inside` it, its
floating point numbers are finite, its identifiers have 24 hexadecimal digits, its objects have no
key twice, and its objects and arrays are nested 128 deep at most. The grammar says so of each form
of a literal (`Denotes.isReadable`); here it is said of the values inside, one by one.
-/

namespace DocShell

namespace Value

variable {p : Value → Bool} {u v : Value}

/-! ## Values inside a value -/

/-- The value `u` stands somewhere inside another, or is that value itself. -/
inductive Inside (u : Value) : Value → Prop
  | self : Inside u u
  | item {items : List Value} {v : Value} (hv : v ∈ items) (h : Inside u v) :
      Inside u (.array items)
  | field {fields : Fields} {f : String × Value} (hf : f ∈ fields) (h : Inside u f.2) :
      Inside u (.object fields)

theorem all_array_iff {items : List Value} :
    all p (array items) = true ↔ p (array items) = true ∧ ∀ v ∈ items, v.all p = true := by
  rw [all, Bool.and_eq_true, itemsAll_iff]

theorem all_object_iff {fields : Fields} :
    all p (object fields) = true ↔ p (object fields) = true ∧ ∀ f ∈ fields, f.2.all p = true := by
  rw [all, Bool.and_eq_true, fieldsAll_iff]

theorem self_of_all (h : v.all p = true) : p v = true := by
  cases v with
  | array items => exact (all_array_iff.mp h).1
  | object fields => exact (all_object_iff.mp h).1
  | _ => exact h

/-- A property of all values inside holds of each of them. -/
theorem Inside.of_all (h : Inside u v) (hall : v.all p = true) : p u = true := by
  induction h with
  | self => exact self_of_all hall
  | item hv _ ih => exact ih ((all_array_iff.mp hall).2 _ hv)
  | field hf _ ih => exact ih ((all_object_iff.mp hall).2 _ hf)

/-! ## Well-formed values -/

/-- Well formed at every depth. -/
structure IsWellFormed (v : Value) : Prop where
  finite : ∀ x, Inside (.float x) v → x.isFinite = true
  identifiers : ∀ id, Inside (.objectId id) v →
    id.hex.toList.length = 24 ∧ ∀ c ∈ id.hex.toList, c ∈ "0123456789abcdefABCDEF".toList
  keys : ∀ fields, Inside (.object fields) v → (Fields.keys fields).Nodup
  nesting : v.depth ≤ 128

end Value

/-- The hexadecimal digits, one by one. -/
theorem Text.mem_of_isHex {c : Char} (h : isHex c = true) :
    c ∈ "0123456789abcdefABCDEF".toList := by
  -- A digit is one of the first characters of ASCII, of which there are few enough to try them all.
  have hall : ∀ n < 0x67, isHex (Char.ofNat n) = true →
      Char.ofNat n ∈ "0123456789abcdefABCDEF".toList := by
    decide +kernel
  have hlt : c.toNat < 0x67 := Nat.lt_succ_of_le (toNat_of_isHex h).2
  have hc := hall c.toNat hlt
  rw [Char.ofNat_toNat] at hc
  exact hc h

/-- What can be printed and read back is well formed. -/
theorem Literal.IsReadable.isWellFormed {v : Value} (h : IsReadable v 128) : v.IsWellFormed where
  finite := fun _ hx => hx.of_all h.allFinite
  identifiers := fun id _ =>
    ⟨(ObjectId.size_eq_length id.all_hex).symm.trans id.size_eq,
      fun c hc => Text.mem_of_isHex (List.all_eq_true.mp id.all_hex c hc)⟩
  keys := fun fields hfields => by
    have hkeys := hfields.of_all h.keysDistinct
    simpa using hkeys
  nesting := h.depth_le

theorem Literal.isReadable_of_parse {t : String} {v : Value} (h : parse t = .ok v) :
    IsReadable v 128 := by
  rcases (parse_eq_ok_iff t v).mp h with ⟨-, rfl⟩ | ⟨w₁, t', w₂, n, -, -, -, ht, hn⟩
  · exact Command.isReadable_empty
  · exact ht.isReadable.mono hn

namespace Command

/-- A value that a text was read as is well formed at every depth, and so are the arguments of a
command that was read. -/
theorem parse_isWellFormed :
    (∀ (t : String) (v : Value), Literal.parse t = .ok v → v.IsWellFormed) ∧
      ∀ (s : String) (c : Command), parse s = .ok c →
        c.primary.IsWellFormed ∧ ∀ v, c.secondary = some v → v.IsWellFormed := by
  constructor
  · intro t v h
    exact (Literal.isReadable_of_parse h).isWellFormed
  · intro s c h
    obtain ⟨hprimary, hsecondary⟩ := isReadable_of_parse h
    exact ⟨hprimary.isWellFormed, fun v hv => (hsecondary v hv).isWellFormed⟩

/-- The largest finite number, an identifier with escapes in its text, and three spellings of one
key. -/
theorem parse_isWellFormed_escaped :
    ∃ v c w,
      Literal.parse "[1.7976931348623157e308, \x7b a: 1, 'a': [], \"\\x61\": 2 \x7d]" = .ok v ∧
      v.text = "[1.7976931348623157e308, \x7b a: 2 \x7d]" ∧ v.IsWellFormed ∧
      parse "db.a.updateOne(ObjectId('\\x35\\u00359d3e5b8152eefd4e9beD45'), [[-0.0]])" = .ok c ∧
      c.primary.IsWellFormed ∧ c.secondary = some w ∧ w.IsWellFormed := by
  have hvalue : (Literal.parse
      "[1.7976931348623157e308, \x7b a: 1, 'a': [], \"\\x61\": 2 \x7d]").toOption.map Value.text =
        some "[1.7976931348623157e308, \x7b a: 2 \x7d]" := by
    decide +kernel
  have hcommand : (parse
      "db.a.updateOne(ObjectId('\\x35\\u00359d3e5b8152eefd4e9beD45'), [[-0.0]])").toOption.map
        (fun c => c.secondary.isSome) = some true := by
    decide +kernel
  obtain ⟨v, hv, htext⟩ := Except.exists_of_toOption_map hvalue
  obtain ⟨c, hc, hsome⟩ := Except.exists_of_toOption_map hcommand
  obtain ⟨w, hw⟩ := Option.isSome_iff_exists.mp hsome
  obtain ⟨hprimary, hsecondary⟩ := parse_isWellFormed.2 _ c hc
  exact ⟨v, c, w, hv, htext, parse_isWellFormed.1 _ v hv, hc, hprimary, hw, hsecondary w hw⟩

end Command

end DocShell
