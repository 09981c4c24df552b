import DocShell.Value.Basic
import Mathlib.Data.List.Nodup
import Mathlib.Tactic

set_option autoImplicit false

/-! # The values inside a value

An induction principle for values, and the properties of a value that all values inside it
share: the keys of each object are distinct, and each floating point number is finite. Setting
the fields of an object one after the other keeps its keys distinct, and changes nothing if
they were so from the beginning. A key that is set again stays where it was set first
(`Fields.keys_ofPairs`) and has the value that was set last (`Fields.get?_ofPairs`).
-/

namespace DocShell

/-! ## Fields -/

namespace Fields

variable {fields : Fields} {key : String} {v : Value}

theorem mem_of_mem_insert {f : String × Value} (h : f ∈ insert key v fields) :
    f = (key, v) ∨ f ∈ fields := by
  induction fields with
  | nil => simpa [insert] using h
  | cons g fields ih =>
      rw [insert] at h
      split_ifs at h
      · rcases List.mem_cons.mp h with h | h
        · exact .inl h
        · exact .inr (List.mem_cons_of_mem g h)
      · rcases List.mem_cons.mp h with rfl | h
        · exact .inr (List.mem_cons_self ..)
        · rcases ih h with h | h
          · exact .inl h
          · exact .inr (List.mem_cons_of_mem g h)

theorem mem_keys_of_mem_keys_insert {k : String} (h : k ∈ keys (insert key v fields)) :
    k = key ∨ k ∈ keys fields := by
  obtain ⟨f, hf, rfl⟩ := List.mem_map.mp h
  rcases mem_of_mem_insert hf with rfl | hf
  · exact .inl rfl
  · exact .inr (List.mem_map_of_mem hf)

theorem nodup_keys_insert (h : (keys fields).Nodup) : (keys (insert key v fields)).Nodup := by
  induction fields with
  | nil => simp [insert, keys]
  | cons g fields ih =>
      obtain ⟨hnotMem, hnodup⟩ := List.nodup_cons.mp h
      rw [insert]
      split_ifs with hkey
      · exact List.nodup_cons.mpr ⟨hkey ▸ hnotMem, hnodup⟩
      · refine List.nodup_cons.mpr ⟨fun hmem => ?_, ih hnodup⟩
        rcases mem_keys_of_mem_keys_insert hmem with heq | hmem
        · exact hkey heq
        · exact hnotMem hmem

/-- A new key goes to the end. -/
theorem insert_of_not_mem (h : key ∉ keys fields) :
    insert key v fields = fields ++ [(key, v)] := by
  induction fields with
  | nil => rfl
  | cons g fields ih =>
      rw [keys, List.map_cons, List.mem_cons, not_or] at h
      rw [insert, if_neg (Ne.symm h.1), ih h.2, List.cons_append]

theorem ofPairs_append (pairs : List (String × Value)) (p : String × Value) :
    ofPairs (pairs ++ [p]) = insert p.1 p.2 (ofPairs pairs) := by
  simp [ofPairs]

/-- What is set was written. -/
theorem mem_of_mem_ofPairs {pairs : List (String × Value)} {f : String × Value}
    (h : f ∈ ofPairs pairs) : f ∈ pairs := by
  -- The last pair is set last, so the induction is from the end of the list.
  induction pairs using List.reverseRecOn with
  | nil => exact h
  | append_singleton pairs p ih =>
      rw [ofPairs_append] at h
      rcases mem_of_mem_insert h with rfl | h
      · simp
      · exact List.mem_append_left _ (ih h)

theorem nodup_keys_ofPairs (pairs : List (String × Value)) : (keys (ofPairs pairs)).Nodup := by
  induction pairs using List.reverseRecOn with
  | nil => exact List.nodup_nil
  | append_singleton pairs p ih =>
      rw [ofPairs_append]
      exact nodup_keys_insert ih

/-- Fields with distinct keys are set as they are written. -/
theorem ofPairs_of_nodup_keys {pairs : List (String × Value)} (h : (keys pairs).Nodup) :
    ofPairs pairs = pairs := by
  induction pairs using List.reverseRecOn with
  | nil => rfl
  | append_singleton pairs p ih =>
      rw [keys, List.map_append, List.map_singleton, List.nodup_append] at h
      obtain ⟨hnodup, -, hdisjoint⟩ := h
      have hnew : p.1 ∉ keys pairs := fun hmem => hdisjoint p.1 hmem p.1 (by simp) rfl
      rw [ofPairs_append, ih hnodup, insert_of_not_mem hnew]

/-! ## Keys that are written again -/

/-- A key that is present keeps its place. -/
theorem keys_insert_of_mem (h : key ∈ keys fields) : keys (insert key v fields) = keys fields := by
  induction fields with
  | nil => exact absurd h List.not_mem_nil
  | cons g fields ih =>
      rw [insert]
      split_ifs with hkey
      · rw [keys, keys, List.map_cons, List.map_cons, hkey]
      · have hmem : key ∈ keys fields := (List.mem_cons.mp h).resolve_left (Ne.symm hkey)
        exact congrArg (g.1 :: ·) (ih hmem)

/-- The keys stand in the order in which they are written first. -/
theorem keys_ofPairs (pairs : List (String × Value)) :
    keys (ofPairs pairs) = (keys pairs).eraseDups := by
  induction pairs using List.reverseRecOn with
  | nil => rfl
  | append_singleton pairs p ih =>
      have hkeys : keys (pairs ++ [p]) = keys pairs ++ [p.1] := by
        rw [keys, List.map_append, List.map_singleton, keys]
      rw [ofPairs_append, hkeys, List.eraseDups_append]
      by_cases hmem : p.1 ∈ keys pairs
      · have hremoved : [p.1].removeAll (keys pairs) = [] := by simp [List.removeAll, hmem]
        have hpresent : p.1 ∈ keys (ofPairs pairs) := by rwa [ih, List.mem_eraseDups]
        rw [keys_insert_of_mem hpresent, ih, hremoved, List.eraseDups_nil, List.append_nil]
      · have hkept : [p.1].removeAll (keys pairs) = [p.1] := by simp [List.removeAll, hmem]
        have hnew : p.1 ∉ keys (ofPairs pairs) := by rwa [ih, List.mem_eraseDups]
        rw [insert_of_not_mem hnew, hkept, ← ih, keys, List.map_append, List.map_singleton]
        rfl

theorem get?_cons (f : String × Value) (fields : Fields) (k : String) :
    get? (f :: fields) k = if k = f.1 then some f.2 else get? fields k := by
  obtain ⟨key, v⟩ := f
  rw [get?, List.lookup_cons]
  by_cases hkey : k = key
  · rw [beq_iff_eq.mpr hkey, if_pos hkey]
  · rw [beq_eq_false_iff_ne.mpr hkey, if_neg hkey, get?]

theorem get?_insert_self : get? (insert key v fields) key = some v := by
  induction fields with
  | nil => rw [insert, get?_cons, if_pos rfl]
  | cons g fields ih =>
      rw [insert]
      split_ifs with hkey
      · rw [get?_cons, if_pos rfl]
      · rw [get?_cons, if_neg (Ne.symm hkey), ih]

theorem get?_insert_of_ne {k : String} (h : k ≠ key) :
    get? (insert key v fields) k = get? fields k := by
  induction fields with
  | nil => rw [insert, get?_cons, if_neg h]
  | cons g fields ih =>
      rw [insert]
      split_ifs with hkey
      · rw [get?_cons, get?_cons, if_neg h, if_neg (hkey ▸ h)]
      · rw [get?_cons, get?_cons, ih]

/-- A key has the value that is written last. -/
theorem get?_ofPairs {front back : List (String × Value)} {p : String × Value}
    (h : p.1 ∉ keys back) : get? (ofPairs (front ++ p :: back)) p.1 = some p.2 := by
  induction back using List.reverseRecOn with
  | nil => rw [ofPairs_append, get?_insert_self]
  | append_singleton back q ih =>
      rw [keys, List.map_append, List.mem_append, not_or, List.map_singleton,
        List.mem_singleton] at h
      rw [← List.cons_append, ← List.append_assoc, ofPairs_append, get?_insert_of_ne h.2]
      exact ih h.1

end Fields

namespace Value

/-! ## Induction -/

/-- Induction over values: of an array or an object, what is to be shown may be assumed of the
items and of the fields' values. -/
theorem induction {P : Value → Prop} (null : P .null) (bool : ∀ b, P (.bool b))
    (int : ∀ i, P (.int i)) (float : ∀ x, P (.float x)) (string : ∀ s, P (.string s))
    (array : ∀ items, (∀ v ∈ items, P v) → P (.array items))
    (object : ∀ fields : Fields, (∀ f ∈ fields, P f.2) → P (.object fields))
    (objectId : ∀ id, P (.objectId id)) (v : Value) : P v := by
  refine @Value.rec P (fun items => ∀ v ∈ items, P v) (fun fields => ∀ f ∈ fields, P f.2)
    (fun f => P f.2) null bool int float string array object objectId ?_ ?_ ?_ ?_ ?_ v
  · simp
  · intro v items hv hitems u hu
    rcases List.mem_cons.mp hu with rfl | hu
    · exact hv
    · exact hitems u hu
  · simp
  · intro f fields hf hfields g hg
    rcases List.mem_cons.mp hg with rfl | hg
    · exact hf
    · exact hfields g hg
  · intro _ _ hv
    exact hv

/-! ## Properties of all values inside -/

mutual

/-- Whether a value and all values inside it have a property. -/
def all (p : Value → Bool) : Value → Bool
  | array items => p (array items) && itemsAll p items
  | object fields => p (object fields) && fieldsAll p fields
  | v => p v

/-- Whether the items and all values inside them have a property. -/
def itemsAll (p : Value → Bool) : List Value → Bool
  | [] => true
  | v :: items => v.all p && itemsAll p items

/-- Whether the fields' values and all values inside them have a property. -/
def fieldsAll (p : Value → Bool) : List (String × Value) → Bool
  | [] => true
  | (_, v) :: fields => v.all p && fieldsAll p fields

end

/-- Whether no object inside has a key twice. -/
def keysDistinct : Value → Bool :=
  all fun
    | object fields => (Fields.keys fields).Nodup
    | _ => true

/-- Whether every floating point number inside is finite. -/
def allFinite : Value → Bool :=
  all fun
    | float x => x.isFinite
    | _ => true

theorem itemsAll_iff {p : Value → Bool} {items : List Value} :
    itemsAll p items = true ↔ ∀ v ∈ items, v.all p = true := by
  induction items with
  | nil => simp [itemsAll]
  | cons v items ih => simp [itemsAll, ih]

theorem fieldsAll_iff {p : Value → Bool} {fields : Fields} :
    fieldsAll p fields = true ↔ ∀ f ∈ fields, f.2.all p = true := by
  induction fields with
  | nil => simp [fieldsAll]
  | cons f fields ih => simp [fieldsAll, ih]

theorem keysDistinct_array_iff {items : List Value} :
    keysDistinct (array items) = true ↔ ∀ v ∈ items, v.keysDistinct = true := by
  simp [keysDistinct, all, itemsAll_iff]

theorem keysDistinct_object_iff {fields : Fields} :
    keysDistinct (object fields) = true ↔
      (Fields.keys fields).Nodup ∧ ∀ f ∈ fields, f.2.keysDistinct = true := by
  simp only [keysDistinct, all, Bool.and_eq_true, decide_eq_true_eq, fieldsAll_iff]

theorem allFinite_array_iff {items : List Value} :
    allFinite (array items) = true ↔ ∀ v ∈ items, v.allFinite = true := by
  simp [allFinite, all, itemsAll_iff]

theorem allFinite_object_iff {fields : Fields} :
    allFinite (object fields) = true ↔ ∀ f ∈ fields, f.2.allFinite = true := by
  simp only [allFinite, all, Bool.true_and, fieldsAll_iff]

/-! ## Nesting -/

theorem itemsDepth_le_iff {items : List Value} {n : Nat} :
    itemsDepth items ≤ n ↔ ∀ v ∈ items, v.depth ≤ n := by
  induction items with
  | nil => simp [itemsDepth]
  | cons v items ih => simp [itemsDepth, ih]

theorem fieldsDepth_le_iff {fields : Fields} {n : Nat} :
    fieldsDepth fields ≤ n ↔ ∀ f ∈ fields, f.2.depth ≤ n := by
  induction fields with
  | nil => simp [fieldsDepth]
  | cons f fields ih => simp [fieldsDepth, ih]

theorem depth_array_le_iff {items : List Value} {n : Nat} :
    depth (array items) ≤ n + 1 ↔ ∀ v ∈ items, v.depth ≤ n := by
  rw [depth, Nat.add_comm, Nat.add_le_add_iff_right, itemsDepth_le_iff]

theorem depth_object_le_iff {fields : Fields} {n : Nat} :
    depth (object fields) ≤ n + 1 ↔ ∀ f ∈ fields, f.2.depth ≤ n := by
  rw [depth, Nat.add_comm, Nat.add_le_add_iff_right, fieldsDepth_le_iff]

end Value

end DocShell
