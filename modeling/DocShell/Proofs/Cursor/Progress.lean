import DocShell.Proofs.Cursor.Values

set_option autoImplicit false

/-! # Reading in place ends, and ends well

Every routine that reads something moves the cursor to a later place between two characters and
leaves the depth as it was, or refuses the text. It does one or the other from every place of
every text, with one turn more than there are bytes left for each loop and for the recursion: so
no slice is bad, no container is left too often, and each turn consumes some of the text. A whole
text is read in place exactly as it is read from its tails.
-/

namespace DocShell

variable {α : Type} {source cs rest : List Char} {d turns : Nat}

/-! ## Progress -/

/-- A shorter tail begins later. -/
theorem Text.offsetOf_lt (h : cs <:+ source) (hrest : rest <:+ cs) (hlt : rest.length < cs.length) :
    offsetOf source cs < offsetOf source rest := by
  obtain ⟨part, rfl⟩ := hrest
  have hadd := offsetOf_add_size h
  cases part with
  | nil => simp at hlt
  | cons c part =>
      have hc := c.utf8Size_pos
      rw [size_cons] at hadd
      omega

theorem Text.length_le_size (cs : List Char) : cs.length ≤ size cs := by
  induction cs with
  | nil => exact Nat.le_refl 0
  | cons c cs ih =>
      have hc := c.utf8Size_pos
      rw [List.length_cons, size_cons]
      omega

theorem Text.IsBoundary.exists_suffix {n : Nat} (h : IsBoundary source n) :
    ∃ cs, cs <:+ source ∧ n = offsetOf source cs := by
  obtain ⟨before, after, rfl, rfl⟩ := h
  exact ⟨after, List.suffix_append before after, (offsetOf_append before after).symm⟩

namespace Cursor

/-- Called where the cursor stands, the action refuses the text, or it leaves the cursor at a later
place of the text with as many open containers as before. Nothing else stops it. -/
def Advances (source : List Char) (c : Cursor) (action : Action α) : Prop :=
  (∃ e, action.run c = .error (.refused e)) ∨
    ∃ a c', action.run c = .ok (a, c') ∧ Text.IsBoundary source c'.place ∧
      c.place < c'.place ∧ c'.depth = c.depth

/-- What mirrors a reader that makes progress advances. -/
theorem Mirrors.advances {action : Action α} {result : Except Fault (α × List Char)}
    (h : Mirrors source action cs d d result) (hcs : cs <:+ source)
    (hprogress : ∀ {a rest}, result = .ok (a, rest) → rest.length < cs.length) :
    Advances source ⟨Text.offsetOf source cs, d⟩ action := by
  have hrun := h.run_eq
  cases result with
  | error fault => exact .inl ⟨fault.toError source, hrun⟩
  | ok p =>
      obtain ⟨a, rest⟩ := p
      have hrest := h.stays rfl
      exact .inr ⟨a, _, hrun, Text.isBoundary_offsetOf (hrest.trans hcs),
        Text.offsetOf_lt hcs hrest (hprogress rfl), rfl⟩

theorem length_lt_of_map {β : Type} {f : α → β} {result : Except Fault (α × List Char)} {n : Nat}
    (h : ∀ {a rest}, result = .ok (a, rest) → rest.length < n) {b : β}
    (hmap : result.map (Prod.map f id) = .ok (b, rest)) : rest.length < n := by
  obtain ⟨a, ha, -⟩ := map_eq_ok_iff.mp hmap
  exact h ha

theorem length_lt_of_leadingKey {name : String} (h : leadingKey cs = .ok (name, rest)) :
    rest.length < cs.length := by
  cases cs with
  | nil => exact nomatch h
  | cons c cs =>
      rw [leadingKey] at h
      split_ifs at h with hquote hword
      · exact length_lt_of_outcome h
      · obtain ⟨-, rfl⟩ := Prod.mk.inj (Except.ok.inj h)
        exact Word.length_after_lt hword cs

/-- Every routine and every loop advances from where the cursor stands. The depth that they are
called with is the one below which they may not go. -/
structure Orderly (source : List Char) (turns : Nat) (c : Cursor) : Prop where
  value : Advances source c (value source c.depth turns)
  key : Advances source c (key source turns)
  string (quote : Char) : Advances source c (string source turns quote)
  number : Advances source c (number source turns)
  objectIdCall {start : Nat} (hstart : Text.IsBoundary source start) :
    Advances source c (objectIdCall source turns start)
  stringBody (quote : Char) {start : Nat} (hstart : Text.IsBoundary source start) (s : String) :
    Advances source c (stringBody source quote start turns s)
  fields (read : Fields) :
    Advances source c (fields source (Cursor.value source c.depth turns) turns read)
  items (read : List Value) :
    Advances source c (items source (Cursor.value source c.depth turns) turns read)

theorem advances_string (quote : Char) (h : Within source turns cs) :
    Advances source ⟨Text.offsetOf source cs, d⟩ (string source turns quote) := by
  cases cs with
  | nil => exact (mirrors_string_nil h).advances h.suffix fun h => nomatch h
  | cons c cs =>
      refine (mirrors_string_cons h).advances h.suffix fun hread => ?_
      exact Nat.lt_succ_of_lt (length_lt_of_map length_lt_of_outcome hread)

theorem orderly (h : Within source turns cs) (hd : d ≤ Literal.maxDepth) :
    Orderly source turns ⟨Text.offsetOf source cs, d⟩ where
  value := (mirrors_value (Nat.le_refl d) hd h).advances h.suffix length_lt_of_outcome
  key := (mirrors_key h).advances h.suffix length_lt_of_leadingKey
  string quote := advances_string quote h
  number := (mirrors_number h).advances h.suffix length_lt_of_outcome
  objectIdCall hstart := by
    obtain ⟨start, -, rfl⟩ := hstart.exists_suffix
    exact (mirrors_objectIdCall h).advances h.suffix length_lt_of_outcome
  stringBody quote start hstart s := by
    obtain ⟨start, -, rfl⟩ := hstart.exists_suffix
    exact (mirrors_stringBody h s).advances h.suffix (length_lt_of_map length_lt_of_outcome)
  fields read :=
    (mirrors_fields (fun _ => mirrors_value (Nat.le_refl d) hd) read h h.length_lt).advances
      h.suffix (length_lt_of_map length_lt_of_outcome)
  items read :=
    (mirrors_items (fun _ => mirrors_value (Nat.le_refl d) hd) read h h.length_lt).advances
      h.suffix (length_lt_of_map length_lt_of_outcome)

/-- There are as many turns as bytes, and one more. -/
theorem within_of_size (h : cs <:+ source)
    (hturns : Text.size source - Text.offsetOf source cs < turns) : Within source turns cs := by
  obtain ⟨before, rfl⟩ := h
  rw [Text.offsetOf_append, Text.size_append, Nat.add_sub_cancel_left] at hturns
  exact ⟨List.suffix_append before cs, Nat.lt_of_le_of_lt (Text.length_le_size cs) hturns⟩

/-! ## Whole texts -/

theorem mirrors_whole (h : source.length < turns) :
    Mirrors source (whole source turns) source 0 0
      ((Literal.whole source).map fun v => (v, [])) := by
  have hsource : Within source turns source := ⟨List.suffix_rfl, h⟩
  have hvalue := mirrors_value (Nat.le_refl 0) (Nat.zero_le Literal.maxDepth) hsource
  rw [Nat.sub_zero] at hvalue
  unfold Literal.whole
  cases hread : Literal.value Literal.maxDepth source with
  | error fault =>
      rw [hread] at hvalue
      exact hvalue.stop _
  | ok p =>
      rw [hread] at hvalue
      refine hvalue.andThen fun hrest => ?_
      refine (mirrors_skipSpace (hsource.of_suffix hrest)).andThen fun htrim => ?_
      dsimp only
      cases hcons : Text.trimStart p.rest with
      | nil => exact (mirrors_peek List.nil_suffix).andThen fun _ => .pure p.value
      | cons c rest =>
          rw [hcons] at htrim
          exact (mirrors_peek (htrim.trans hrest)).andThen fun _ => mirrors_refuse

theorem parse_eq (text : String) :
    parse text = (Literal.parse text).mapError Stop.refused := by
  unfold parse Literal.parse
  dsimp only
  split_ifs
  · rfl
  · have hturns := Nat.lt_succ_of_le (Text.length_le_size text.toList)
    have hrun := (mirrors_whole hturns).run_eq
    rw [Text.offsetOf, Nat.sub_self] at hrun
    rw [StateT.run'_eq, hrun]
    cases Literal.whole text.toList with
    | error fault => rfl
    | ok v => rfl

/-- From every place of a text and with every depth within the limit, the routines read on or
refuse the text, and so reading a whole text ends: with what the readers of tails read of it. -/
theorem reads_orderly (text : String) :
    (∀ (turns : Nat) (c : Cursor), Text.IsBoundary text.toList c.place →
      c.depth ≤ Literal.maxDepth → Text.size text.toList - c.place < turns →
        Orderly text.toList turns c) ∧
    parse text = (Literal.parse text).mapError Stop.refused := by
  refine ⟨fun turns c hplace hdepth hturns => ?_, parse_eq text⟩
  obtain ⟨place, d⟩ := c
  obtain ⟨cs, hcs, rfl⟩ := hplace.exists_suffix
  exact orderly (within_of_size hcs hturns) hdepth

/-- Before a string inside of an array, which has a character of two bytes: eight bytes are left of
nine. -/
theorem reads_orderly_in_array :
    Text.IsBoundary "['\u00e9', 1]".toList 1 ∧ Text.size "['\u00e9', 1]".toList = 9 ∧
      Orderly "['\u00e9', 1]".toList 9 ⟨1, 1⟩ ∧ ∃ v, parse "['\u00e9', 1]" = .ok v := by
  have hplace : Text.IsBoundary "['\u00e9', 1]".toList 1 :=
    ⟨['['], "'\u00e9', 1]".toList, by decide, by decide⟩
  obtain ⟨horderly, hparse⟩ := reads_orderly "['\u00e9', 1]"
  obtain ⟨v, hv⟩ := Except.exists_of_isOk (x := Literal.parse "['\u00e9', 1]") (by decide +kernel)
  rw [hv] at hparse
  exact ⟨hplace, by decide, horderly 9 ⟨1, 1⟩ hplace (by decide) (by decide), v, hparse⟩

end Cursor

end DocShell
