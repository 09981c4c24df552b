import DocShell.Proofs.Literal.Grammar

set_option autoImplicit false

/-! # The parser accepts the grammar

Both directions between `Literal.value` and the grammar. What is read is a literal with white
space before it (`sound_value`), by induction on the room for nesting. A literal is read,
whatever white space stands before it and whatever text follows that does not continue its
last token (`complete_value`), by induction on the literal.
-/

namespace DocShell.Literal

open Text (isBlank isSpace IsSolid)

variable {α : Type} {cs rest t w : List Char} {n room : Nat}

/-! ## What may follow a literal -/

/-- A text that does not continue the last token of a literal. -/
def IsEnd (rest : List Char) : Prop :=
  ∀ c ∈ rest.head?, Word.isWordChar c = false ∧ c ≠ '.'

theorem isEnd_nil : IsEnd [] := by
  simp [IsEnd]

theorem isEnd_cons {c : Char} (hword : Word.isWordChar c = false) (hpoint : c ≠ '.') :
    IsEnd (c :: rest) := by
  intro d hd
  obtain rfl : c = d := by simpa using hd
  exact ⟨hword, hpoint⟩

theorem isEnd_blank_append (hw : isBlank w = true) (hrest : IsEnd rest) : IsEnd (w ++ rest) := by
  cases w with
  | nil => exact hrest
  | cons c w =>
      rw [Text.isBlank_cons, Bool.and_eq_true] at hw
      refine isEnd_cons (Word.isWordChar_of_isSpace hw.1) ?_
      rintro rfl
      exact absurd hw.1 (by decide)

theorem isEnd_of_blank (hw : isBlank w = true) : IsEnd w := by
  simpa using isEnd_blank_append hw isEnd_nil

theorem IsEnd.word (h : IsEnd rest) : ∀ c ∈ rest.head?, Word.isWordChar c = false :=
  fun c hc => (h c hc).1

/-- What ends a word ends a numeral too. -/
theorem IsEnd.numeral (h : IsEnd rest) : Numeral.IsEnd rest := by
  intro c hc
  obtain ⟨hword, hpoint⟩ := h c hc
  refine ⟨?_, hpoint, ?_, ?_⟩
  · rw [Bool.eq_false_iff]
    intro hdigit
    simp [Word.isWordChar, Char.isAlphanum, hdigit] at hword
  · rintro rfl
    exact absurd hword (by decide)
  · rintro rfl
    exact absurd hword (by decide)

theorem isEnd_closing (container : Container) : IsEnd (container.closing :: rest) := by
  cases container <;> exact isEnd_cons (by decide) (by decide)

/-! ## Tokens in front of a text -/

theorem text_of_stringToken {s : String} (h : StringToken t s) :
    ∃ quote body, Quoted.isQuote quote = true ∧ t = quote :: body ∧
      ∀ rest, outcome (Quoted.text quote (body ++ rest)) = .ok (s, rest) := by
  obtain ⟨quote, b, hquote, rfl, hb⟩ := stringToken_iff.mp h
  refine ⟨quote, _, hquote, rfl, fun rest => ?_⟩
  exact (Quoted.outcome_text_iff hquote).mpr ⟨b, by simp, hb⟩

theorem stringToken_of_text {quote : Char} {s : String} (hquote : Quoted.isQuote quote = true)
    (h : outcome (Quoted.text quote cs) = .ok (s, rest)) :
    ∃ t, StringToken (quote :: t) s ∧ cs = t ++ rest := by
  obtain ⟨b, rfl, hb⟩ := (Quoted.outcome_text_iff hquote).mp h
  exact ⟨b ++ [quote], stringToken_iff.mpr ⟨quote, b, hquote, rfl, hb⟩, by simp⟩

theorem read_of_numberToken {v : Value} (h : NumberToken t v) (hrest : IsEnd rest) :
    outcome (Numeral.read (t ++ rest)) = .ok (v, rest) := by
  obtain ⟨n, ht, hv⟩ := numberToken_iff.mp h
  exact Numeral.outcome_read_iff.mpr ⟨n, Numeral.scan_of_spelled ht hrest.numeral, hv⟩

theorem numberToken_of_read {v : Value} (h : outcome (Numeral.read cs) = .ok (v, rest)) :
    ∃ t, NumberToken t v ∧ cs = t ++ rest := by
  obtain ⟨n, hscan, hv⟩ := Numeral.outcome_read_iff.mp h
  obtain ⟨t, ht, hcs⟩ := Numeral.spelled_of_scan hscan
  exact ⟨t, numberToken_iff.mpr ⟨n, ht, hv⟩, hcs⟩

/-! ## The first and the last character of a literal -/

/-- The characters a literal begins with. -/
def isStart (c : Char) : Bool :=
  c == '{' || c == '[' || Quoted.isQuote c || c == '-' || Word.isWordChar c

theorem isSpace_of_isStart {c : Char} (h : isStart c = true) : isSpace c = false := by
  simp only [isStart, Bool.or_eq_true, beq_iff_eq, Quoted.isQuote_iff] at h
  rcases h with (((rfl | rfl) | rfl | rfl) | rfl) | h
  · decide
  · decide
  · decide
  · decide
  · decide
  · exact Word.isSpace_of_isWordChar h

theorem ne_closing_of_isStart {c : Char} (h : isStart c = true) (container : Container) :
    c ≠ container.closing := by
  rintro rfl
  revert h
  cases container <;> decide

theorem isStart_of_isQuote {c : Char} (h : Quoted.isQuote c = true) : isStart c = true := by
  simp [isStart, h]

theorem isStart_of_isWordChar {c : Char} (h : Word.isWordChar c = true) : isStart c = true := by
  simp [isStart, h]

theorem isWordChar_of_isDigit {c : Char} (h : c.isDigit = true) : Word.isWordChar c = true := by
  simp [Word.isWordChar, Char.isAlphanum, h]

theorem isSpace_of_isQuote {c : Char} (h : Quoted.isQuote c = true) : isSpace c = false :=
  isSpace_of_isStart (isStart_of_isQuote h)

/-- A text that begins like a literal and does not end with white space. -/
def IsFramed (t : List Char) : Prop :=
  (∃ c more, t = c :: more ∧ isStart c = true) ∧ ∃ front c, t = front ++ [c] ∧ isSpace c = false

theorem IsFramed.isSolid (h : IsFramed t) : IsSolid t := by
  obtain ⟨⟨c, more, hc, hstart⟩, hlast⟩ := h
  exact ⟨⟨c, more, hc, isSpace_of_isStart hstart⟩, hlast⟩

theorem isFramed_enclosed {c d : Char} (hc : isStart c = true) (hd : isSpace d = false)
    (cs : List Char) : IsFramed (c :: cs ++ [d]) :=
  ⟨⟨c, cs ++ [d], rfl, hc⟩, c :: cs, d, rfl, hd⟩

theorem StringToken.isFramed {s : String} (h : StringToken t s) : IsFramed t := by
  obtain ⟨quote, b, hquote, rfl, -⟩ := stringToken_iff.mp h
  exact isFramed_enclosed (isStart_of_isQuote hquote) (isSpace_of_isQuote hquote) b

/-- A number begins with its sign or with a digit. -/
theorem NumberToken.exists_cons {v : Value} (h : NumberToken t v) :
    ∃ c more, t = c :: more ∧ (c = '-' ∨ c.isDigit = true) := by
  obtain ⟨n, ht, -⟩ := numberToken_iff.mp h
  exact ht.exists_cons

theorem isStart_of_number {c : Char} (h : c = '-' ∨ c.isDigit = true) : isStart c = true := by
  rcases h with rfl | hdigit
  · decide
  · exact isStart_of_isWordChar (isWordChar_of_isDigit hdigit)

theorem NumberToken.isFramed {v : Value} (h : NumberToken t v) : IsFramed t := by
  obtain ⟨c, more, hc, hstart⟩ := h.exists_cons
  obtain ⟨n, ht, -⟩ := numberToken_iff.mp h
  obtain ⟨front, d, hd, hdigit⟩ := ht.endsWithDigit
  have hspace : isSpace d = false := Word.isSpace_of_isWordChar (isWordChar_of_isDigit hdigit)
  exact ⟨⟨c, more, hc, isStart_of_number hstart⟩, front, d, hd, hspace⟩

theorem IdentifierCall.isFramed {id : ObjectId} (h : IdentifierCall t id) : IsFramed t := by
  cases h with
  | call => exact isFramed_enclosed (c := 'O') (by decide) (by decide) _

theorem Scalar.isFramed {v : Value} (h : Scalar t v) : IsFramed t := by
  cases h with
  | null => exact isFramed_enclosed (c := 'n') (d := 'l') (by decide) (by decide) ['u', 'l']
  | yes => exact isFramed_enclosed (c := 't') (d := 'e') (by decide) (by decide) ['r', 'u']
  | no =>
      exact isFramed_enclosed (c := 'f') (d := 'e') (by decide) (by decide) ['a', 'l', 's']
  | string ht => exact ht.isFramed
  | number ht => exact ht.isFramed
  | identifier ht => exact ht.isFramed
  | @construction w t id hw hne ht =>
      obtain ⟨-, front, c, rfl, hc⟩ := ht.isFramed
      refine ⟨⟨'n', _, rfl, by decide⟩, "new".toList ++ w ++ front, c, ?_, hc⟩
      simp only [List.append_assoc]

theorem Denotes.isFramed {v : Value} (h : Denotes t v n) : IsFramed t := by
  cases h with
  | scalar h => exact h.isFramed
  | emptyArray => exact isFramed_enclosed (by decide) (by decide) _
  | array => exact isFramed_enclosed (by decide) (by decide) _
  | emptyObject => exact isFramed_enclosed (by decide) (by decide) _
  | object => exact isFramed_enclosed (by decide) (by decide) _

theorem KeyToken.exists_cons {key : String} (h : KeyToken t key) :
    ∃ c more, t = c :: more ∧ isStart c = true := by
  cases h with
  | quoted h => exact h.isFramed.1
  | bare hne hall =>
      obtain ⟨c, more, rfl⟩ := List.exists_cons_of_ne_nil hne
      rw [List.all_cons, Bool.and_eq_true] at hall
      exact ⟨c, more, rfl, isStart_of_isWordChar hall.1⟩

/-! ## What is read is a literal -/

theorem identifierCall_sound {start : List Char} {v : Value}
    (h : outcome (identifierCall start cs) = .ok (v, rest)) :
    ∃ t id, IdentifierCall ("ObjectId".toList ++ t) id ∧ cs = t ++ rest ∧ v = .objectId id := by
  obtain ⟨opened, quote, inside, hex, after, id, hopen, hinside, hquote, htext, hclose, hid, rfl⟩ :=
    outcome_identifierCall_iff.mp h
  obtain ⟨-, w₁, hw₁, rfl⟩ := Text.trimStart_eq_cons_iff.mp hopen
  obtain ⟨-, w₂, hw₂, rfl⟩ := Text.trimStart_eq_cons_iff.mp hinside
  obtain ⟨b, htoken, rfl⟩ := stringToken_of_text hquote htext
  obtain ⟨-, w₃, hw₃, rfl⟩ := Text.trimStart_eq_cons_iff.mp hclose
  obtain ⟨hlen, hhex, rfl⟩ := ObjectId.ofHex_eq_ok_iff.mp hid
  refine ⟨w₁ ++ '(' :: w₂ ++ quote :: b ++ w₃ ++ [')'], _, ?_, by simp, rfl⟩
  have hcall := IdentifierCall.call hw₁ hw₂ htoken hw₃ hlen hhex
  simpa only [List.append_assoc] using hcall

/-- After `new` there is white space, since a word goes on up to the first other character. -/
theorem construction_sound {v : Value} (hword : ∀ c ∈ cs.head?, Word.isWordChar c = false)
    (h : outcome (construction cs) = .ok (v, rest)) :
    ∃ t, Scalar ("new".toList ++ t) v ∧ cs = t ++ rest := by
  unfold construction at h
  simp only at h
  split_ifs at h with hname
  · rw [outcome_map_within] at h
    obtain ⟨t, id, hcall, hafter, rfl⟩ := identifierCall_sound h
    obtain ⟨w, hw, hcs⟩ := Text.exists_trimStart cs
    have hstart : Text.trimStart cs = "ObjectId".toList ++ t ++ rest := by
      rw [List.append_assoc, ← hafter, ← hname, Word.leading_append_after]
    -- Without white space between them, the two words would be one.
    have hne : w ≠ [] := by
      rintro rfl
      rw [List.nil_append, hstart] at hcs
      have := hword 'O' (by rw [hcs]; rfl)
      exact absurd this (by decide)
    refine ⟨w ++ ("ObjectId".toList ++ t), ?_, ?_⟩
    · rw [← List.append_assoc]
      exact .construction hw hne hcall
    · rw [List.append_assoc, ← hstart, ← hcs]
  · simp at h

theorem keyword_sound {v : Value} {hlen : (Word.after cs).length < cs.length}
    (h : outcome (keyword cs hlen) = .ok (v, rest)) : ∃ t, Scalar t v ∧ cs = t ++ rest := by
  have hsplit := Word.leading_append_after cs
  unfold keyword at h
  simp only at h
  split_ifs at h with htrue hfalse hnull hid hnew
  · simp only [outcome_ok, Except.ok.injEq, Prod.mk.injEq] at h
    obtain ⟨rfl, rfl⟩ := h
    exact ⟨_, .yes, by rw [← htrue, hsplit]⟩
  · simp only [outcome_ok, Except.ok.injEq, Prod.mk.injEq] at h
    obtain ⟨rfl, rfl⟩ := h
    exact ⟨_, .no, by rw [← hfalse, hsplit]⟩
  · simp only [outcome_ok, Except.ok.injEq, Prod.mk.injEq] at h
    obtain ⟨rfl, rfl⟩ := h
    exact ⟨_, .null, by rw [← hnull, hsplit]⟩
  · rw [outcome_map_within] at h
    obtain ⟨t, id, hcall, hafter, rfl⟩ := identifierCall_sound h
    refine ⟨_, .identifier hcall, ?_⟩
    rw [← hsplit, hid, hafter, List.append_assoc]
  · rw [outcome_map_within] at h
    obtain ⟨t, ht, hafter⟩ := construction_sound (fun c hc => Word.head_after hc) h
    refine ⟨_, ht, ?_⟩
    rw [← hsplit, hnew, hafter, List.append_assoc]
  · simp at h

/-- The reader reads only what the grammar has, nested at most so deep, with white space before
it. -/
def Sound (reader : Reader α) (Item : List Char → α → Nat → Prop) (room : Nat) : Prop :=
  ∀ cs a rest, outcome (reader cs) = .ok (a, rest) →
    ∃ w t n, isBlank w = true ∧ cs = w ++ t ++ rest ∧ Item t a n ∧ n ≤ room

theorem Sound.items {reader : Reader α} {Item : List Char → α → Nat → Prop}
    (hreader : Sound reader Item room) {container : Container} {xs : List α}
    (h : outcome (Reader.items container reader cs) = .ok (xs, rest)) :
    ∃ t n, cs = t ++ container.closing :: rest ∧ Separated Item t xs n ∧ n ≤ room := by
  refine Reader.items_induction (P := fun cs xs rest => ∃ t n,
    cs = t ++ container.closing :: rest ∧ Separated Item t xs n ∧ n ≤ room) ?_ ?_ h
  · intro cs x after rest hx hclose
    obtain ⟨w₁, t, n, hw₁, rfl, ht, hn⟩ := hreader cs x after hx
    obtain ⟨-, w₂, hw₂, rfl⟩ := Text.trimStart_eq_cons_iff.mp hclose
    exact ⟨w₁ ++ t ++ w₂, n, by simp, .last hw₁ ht hw₂, hn⟩
  · intro cs x after next ys rest hx hcomma ih
    obtain ⟨w₁, t, n, hw₁, rfl, ht, hn⟩ := hreader cs x after hx
    obtain ⟨-, w₂, hw₂, rfl⟩ := Text.trimStart_eq_cons_iff.mp hcomma
    obtain ⟨ts, m, rfl, hts, hm⟩ := ih
    exact ⟨w₁ ++ t ++ w₂ ++ ',' :: ts, max n m, by simp, .more hw₁ ht hw₂ hts, max_le hn hm⟩

theorem Sound.contents {reader : Reader α} {Item : List Char → α → Nat → Prop}
    (hreader : Sound reader Item room) {container : Container} {xs : List α}
    (h : outcome (Reader.contents container reader cs) = .ok (xs, rest)) :
    (∃ w, isBlank w = true ∧ cs = w ++ container.closing :: rest ∧ xs = []) ∨
      ∃ t n, cs = t ++ container.closing :: rest ∧ Separated Item t xs n ∧ n ≤ room := by
  rcases Reader.outcome_contents_iff.mp h with ⟨hclose, rfl⟩ | ⟨-, hitems⟩
  · obtain ⟨-, w, hw, rfl⟩ := Text.trimStart_eq_cons_iff.mp hclose
    exact .inl ⟨w, hw, rfl, rfl⟩
  · exact .inr (hreader.items hitems)

theorem keyToken_of_read {key : String} (h : outcome (Key.read cs) = .ok (key, rest)) :
    ∃ w t, isBlank w = true ∧ cs = w ++ t ++ rest ∧ KeyToken t key := by
  obtain ⟨c, next, hcons, ⟨hquote, htext⟩ | ⟨hword, rfl, rfl⟩⟩ := Key.outcome_read_iff.mp h
  · obtain ⟨-, w, hw, rfl⟩ := Text.trimStart_eq_cons_iff.mp hcons
    obtain ⟨t, ht, rfl⟩ := stringToken_of_text hquote htext
    exact ⟨w, c :: t, hw, by simp, .quoted ht⟩
  · obtain ⟨-, w, hw, rfl⟩ := Text.trimStart_eq_cons_iff.mp hcons
    refine ⟨w, Word.leading (c :: next), hw, ?_, .bare ?_ (Word.all_leading _)⟩
    · rw [List.append_assoc, Word.leading_append_after]
    · simp [Word.leading, hword]

theorem Sound.field {reader : Reader Value} {Item : List Char → Value → Nat → Prop}
    (hreader : Sound reader Item room) : Sound (field reader) (Field Item) room := by
  rintro cs ⟨key, v⟩ rest h
  obtain ⟨colon, next, hkey, hcolon, hv⟩ := outcome_field_iff.mp h
  obtain ⟨w, k, hw, rfl, hk⟩ := keyToken_of_read hkey
  obtain ⟨-, w₁, hw₁, rfl⟩ := Text.trimStart_eq_cons_iff.mp hcolon
  obtain ⟨w₂, t, n, hw₂, rfl, ht, hn⟩ := hreader next v rest hv
  exact ⟨w, k ++ w₁ ++ ':' :: w₂ ++ t, n, hw, by simp, .field hk hw₁ hw₂ ht, hn⟩

/-- What the reader of values reads is a literal for the value, nested no deeper than there was
room. -/
theorem sound_value (room : Nat) : Sound (value room) Denotes room := by
  induction room using Nat.strong_induction_on with
  | _ room ih =>
      intro cs v rest h
      cases htrim : Text.trimStart cs with
      | nil =>
          rw [outcome_value_nil htrim] at h
          contradiction
      | cons c next =>
          obtain ⟨-, w, hw, rfl⟩ := Text.trimStart_eq_cons_iff.mp htrim
          rw [outcome_value_cons htrim] at h
          -- The first character decides what is read. A container hands on one level less of room,
          -- which is where the induction hypothesis is used.
          split_ifs at h with hobject harray hquote hnumber hword
          · cases room with
            | zero => contradiction
            | succ room =>
                subst hobject
                obtain ⟨pairs, hpairs, rfl⟩ := map_eq_ok_iff.mp h
                rcases (ih room (Nat.lt_succ_self room)).field.contents hpairs with
                  ⟨w', hw', rfl, rfl⟩ | ⟨t, n, rfl, ht, hn⟩
                · exact ⟨w, _, 1, hw, by simp [Container.closing], .emptyObject hw', by omega⟩
                · exact ⟨w, _, n + 1, hw, by simp [Container.closing], .object ht, by omega⟩
          · cases room with
            | zero => contradiction
            | succ room =>
                subst harray
                obtain ⟨items, hitems, rfl⟩ := map_eq_ok_iff.mp h
                rcases (ih room (Nat.lt_succ_self room)).contents hitems with
                  ⟨w', hw', rfl, rfl⟩ | ⟨t, n, rfl, ht, hn⟩
                · exact ⟨w, _, 1, hw, by simp [Container.closing], .emptyArray hw', by omega⟩
                · exact ⟨w, _, n + 1, hw, by simp [Container.closing], .array ht, by omega⟩
          · obtain ⟨s, hs, rfl⟩ := map_eq_ok_iff.mp h
            obtain ⟨t, ht, rfl⟩ := stringToken_of_text hquote hs
            exact ⟨w, c :: t, 0, hw, by simp, .scalar (.string ht), Nat.zero_le _⟩
          · obtain ⟨t, ht, hcs⟩ := numberToken_of_read h
            exact ⟨w, t, 0, hw, by rw [hcs, List.append_assoc], .scalar (.number ht), Nat.zero_le _⟩
          · obtain ⟨t, ht, hcs⟩ := keyword_sound h
            exact ⟨w, t, 0, hw, by rw [hcs, List.append_assoc], .scalar ht, Nat.zero_le _⟩

/-! ## A literal is read -/

/-- The reader reads all that the grammar has, nested at most so deep, whatever white space
stands before it and whatever follows that does not continue it. -/
def Complete (reader : Reader α) (Item : List Char → α → Nat → Prop) (room : Nat) : Prop :=
  ∀ t a n, Item t a n → n ≤ room →
    ∀ w rest, isBlank w = true → IsEnd rest → outcome (reader (w ++ t ++ rest)) = .ok (a, rest)

theorem trimStart_start {c : Char} (hw : isBlank w = true) (hc : isStart c = true) :
    Text.trimStart (w ++ c :: t) = c :: t := by
  rw [Text.trimStart_append_of_blank hw,
    Text.trimStart_cons_of_not_space (isSpace_of_isStart hc)]

/-- Items begin with an item. -/
theorem Separated.exists_cons {Item : List Char → α → Nat → Prop} {xs : List α}
    (hstart : ∀ t a n, Item t a n → ∃ c more, t = c :: more ∧ isStart c = true)
    (h : Separated Item t xs n) :
    ∃ w c more, isBlank w = true ∧ t = w ++ c :: more ∧ isStart c = true := by
  cases h with
  | @last w₁ t w₂ a n hw₁ ha hw₂ =>
      obtain ⟨c, more, rfl, hc⟩ := hstart t a n ha
      exact ⟨w₁, c, more ++ w₂, hw₁, by simp, hc⟩
  | @more w₁ t w₂ ts a as n m hw₁ ha hw₂ has =>
      obtain ⟨c, more, rfl, hc⟩ := hstart t a n ha
      exact ⟨w₁, c, more ++ w₂ ++ ',' :: ts, hw₁, by simp, hc⟩

/-- The look for a closing bracket right after an opening one or a comma is in vain. -/
theorem Separated.head?_trimStart_ne {Item : List Char → α → Nat → Prop} {xs : List α}
    (hstart : ∀ t a n, Item t a n → ∃ c more, t = c :: more ∧ isStart c = true)
    (h : Separated Item t xs n) (container : Container) :
    (Text.trimStart (t ++ rest)).head? ≠ some container.closing := by
  obtain ⟨w, c, more, hw, rfl, hc⟩ := h.exists_cons hstart
  rw [List.append_assoc, List.cons_append, trimStart_start hw hc, List.head?_cons]
  intro heq
  exact ne_closing_of_isStart hc container (Option.some.inj heq)

/-- A text of several items begins with the first one and what follows it. -/
theorem append_more (w₁ t w₂ ts rest : List Char) (closing : Char) :
    w₁ ++ t ++ w₂ ++ ',' :: ts ++ closing :: rest =
      w₁ ++ t ++ (w₂ ++ ',' :: (ts ++ closing :: rest)) := by
  simp

/-- A field begins with its key and what follows that. -/
theorem append_field (w k w₁ w₂ t rest : List Char) :
    w ++ (k ++ w₁ ++ ':' :: w₂ ++ t) ++ rest =
      w ++ k ++ (w₁ ++ ':' :: (w₂ ++ t ++ rest)) := by
  simp

theorem Complete.items {reader : Reader α} {Item : List Char → α → Nat → Prop}
    (hreader : Complete reader Item room)
    (hstart : ∀ t a n, Item t a n → ∃ c more, t = c :: more ∧ isStart c = true)
    {container : Container} {xs : List α} (h : Separated Item t xs n) (hn : n ≤ room) :
    outcome (Reader.items container reader (t ++ container.closing :: rest)) = .ok (xs, rest) := by
  have hspace : isSpace container.closing = false := by cases container <;> decide
  induction h with
  | @last w₁ t w₂ a n hw₁ ha hw₂ =>
      have hitem := hreader t a n ha hn w₁ (w₂ ++ container.closing :: rest) hw₁
        (isEnd_blank_append hw₂ (isEnd_closing container))
      rw [List.append_assoc, Reader.outcome_items_iff]
      refine ⟨a, _, hitem, .inl ⟨?_, rfl⟩⟩
      rw [Text.trimStart_append_of_blank hw₂, Text.trimStart_cons_of_not_space hspace]
  | @more w₁ t w₂ ts a as n m hw₁ ha hw₂ has ih =>
      have hend : IsEnd (',' :: (ts ++ container.closing :: rest)) :=
        isEnd_cons (by decide) (by decide)
      have hitem := hreader t a n ha (le_trans (le_max_left n m) hn) w₁ _ hw₁
        (isEnd_blank_append hw₂ hend)
      rw [append_more, Reader.outcome_items_iff]
      -- More items begin with an item and not with the bracket, so the comma is no trailing one.
      refine ⟨a, _, hitem, .inr ⟨_, as, ?_, has.head?_trimStart_ne hstart container,
        ih (le_trans (le_max_right n m) hn), rfl⟩⟩
      rw [Text.trimStart_append_of_blank hw₂, Text.trimStart_cons_of_not_space (by decide)]

theorem Complete.contents {reader : Reader α} {Item : List Char → α → Nat → Prop}
    (hreader : Complete reader Item room)
    (hstart : ∀ t a n, Item t a n → ∃ c more, t = c :: more ∧ isStart c = true)
    {container : Container} {xs : List α} (h : Separated Item t xs n) (hn : n ≤ room) :
    outcome (Reader.contents container reader (t ++ container.closing :: rest)) = .ok (xs, rest) :=
  Reader.outcome_contents_iff.mpr
    (.inr ⟨h.head?_trimStart_ne hstart container, hreader.items hstart h hn⟩)

theorem contents_blank {reader : Reader α} {container : Container} (hw : isBlank w = true) :
    outcome (Reader.contents container reader (w ++ container.closing :: rest)) =
      .ok ([], rest) := by
  have hspace : isSpace container.closing = false := by cases container <;> decide
  refine Reader.outcome_contents_iff.mpr (.inl ⟨?_, rfl⟩)
  rw [Text.trimStart_append_of_blank hw, Text.trimStart_cons_of_not_space hspace]

theorem KeyToken.read {key : String} (h : KeyToken t key) (hw : isBlank w = true)
    (hrest : IsEnd rest) : outcome (Key.read (w ++ t ++ rest)) = .ok (key, rest) := by
  obtain ⟨c, more, hcons, hstart⟩ := h.exists_cons
  have htrim : Text.trimStart (w ++ t ++ rest) = c :: (more ++ rest) := by
    rw [List.append_assoc, hcons, List.cons_append, trimStart_start hw hstart]
  refine Key.outcome_read_iff.mpr ⟨c, more ++ rest, htrim, ?_⟩
  cases h with
  | quoted h =>
      obtain ⟨quote, body, hquote, hbody, htext⟩ := text_of_stringToken h
      obtain ⟨rfl, rfl⟩ := List.cons.inj (hcons.symm.trans hbody)
      exact .inl ⟨hquote, htext rest⟩
  | bare hne hall =>
      subst hcons
      have hc : Word.isWordChar c = true := by
        rw [List.all_cons, Bool.and_eq_true] at hall
        exact hall.1
      refine .inr ⟨hc, ?_, ?_⟩
      · rw [← List.cons_append, Word.leading_append hall hrest.word]
      · rw [← List.cons_append, Word.after_append hall hrest.word]

theorem Complete.field {reader : Reader Value} {Item : List Char → Value → Nat → Prop}
    (hreader : Complete reader Item room) : Complete (field reader) (Field Item) room := by
  intro t p n h hn w rest hw hrest
  cases h with
  | @field k w₁ w₂ t key v n hk hw₁ hw₂ hv =>
      have hcolon : IsEnd (':' :: (w₂ ++ t ++ rest)) := isEnd_cons (by decide) (by decide)
      have hkey := hk.read hw (isEnd_blank_append hw₁ hcolon)
      have hvalue := hreader t v n hv hn w₂ rest hw₂ hrest
      rw [append_field]
      refine outcome_field_iff.mpr ⟨_, _, hkey, ?_, hvalue⟩
      rw [Text.trimStart_append_of_blank hw₁, Text.trimStart_cons_of_not_space (by decide)]

theorem Field.exists_cons {Item : List Char → Value → Nat → Prop} {p : String × Value}
    (h : Field Item t p n) : ∃ c more, t = c :: more ∧ isStart c = true := by
  cases h with
  | @field k w₁ w₂ t key v n hk hw₁ hw₂ hv =>
      obtain ⟨c, more, rfl, hc⟩ := hk.exists_cons
      exact ⟨c, more ++ w₁ ++ ':' :: w₂ ++ t, by simp, hc⟩

theorem IdentifierCall.read {id : ObjectId} (h : IdentifierCall t id) :
    ∃ t', t = "ObjectId".toList ++ t' ∧
      (∀ rest, ∀ c ∈ (t' ++ rest).head?, Word.isWordChar c = false) ∧
      ∀ start rest, outcome (identifierCall start (t' ++ rest)) = .ok (.objectId id, rest) := by
  cases h with
  | @call w₁ w₂ t w₃ s hw₁ hw₂ ht hw₃ hlen hhex =>
      obtain ⟨quote, body, hquote, rfl, htext⟩ := text_of_stringToken ht
      refine ⟨w₁ ++ '(' :: w₂ ++ quote :: body ++ w₃ ++ [')'], by simp, ?_, ?_⟩
      · intro rest
        have hparen : IsEnd ('(' :: (w₂ ++ quote :: body ++ w₃ ++ ')' :: rest)) :=
          isEnd_cons (by decide) (by decide)
        have hend := (isEnd_blank_append hw₁ hparen).word
        simpa using hend
      · intro start rest
        refine outcome_identifierCall_iff.mpr ⟨w₂ ++ quote :: (body ++ (w₃ ++ ')' :: rest)), quote,
          body ++ (w₃ ++ ')' :: rest), s, w₃ ++ ')' :: rest, _, ?_, ?_, hquote, htext _, ?_,
          ObjectId.ofHex_eq_ok_iff.mpr ⟨hlen, hhex, rfl⟩, rfl⟩
        · have hsplit : w₁ ++ '(' :: w₂ ++ quote :: body ++ w₃ ++ [')'] ++ rest =
              w₁ ++ '(' :: (w₂ ++ quote :: (body ++ (w₃ ++ ')' :: rest))) := by simp
          rw [hsplit, Text.trimStart_append_of_blank hw₁,
            Text.trimStart_cons_of_not_space (by decide)]
        · rw [Text.trimStart_append_of_blank hw₂,
            Text.trimStart_cons_of_not_space (isSpace_of_isQuote hquote)]
        · rw [Text.trimStart_append_of_blank hw₃, Text.trimStart_cons_of_not_space (by decide)]

/-- What a word is read as. -/
theorem value_of_word {c : Char} {word : List Char} (hw : isBlank w = true)
    (hall : (c :: word).all Word.isWordChar = true) (hdigit : c.isDigit = false)
    (hrest : ∀ d ∈ rest.head?, Word.isWordChar d = false) :
    outcome (value room (w ++ (c :: word) ++ rest)) =
      if c :: word = "true".toList then .ok (.bool true, rest)
      else if c :: word = "false".toList then .ok (.bool false, rest)
      else if c :: word = "null".toList then .ok (.null, rest)
      else if c :: word = "ObjectId".toList then
        outcome (identifierCall (c :: (word ++ rest)) rest)
      else if c :: word = "new".toList then outcome (construction rest)
      else .error ⟨.unknownWord (c :: word), c :: (word ++ rest)⟩ := by
  have hc : Word.isWordChar c = true := by
    rw [List.all_cons, Bool.and_eq_true] at hall
    exact hall.1
  have htrim : Text.trimStart (w ++ (c :: word) ++ rest) = c :: (word ++ rest) := by
    rw [List.append_assoc, List.cons_append, trimStart_start hw (isStart_of_isWordChar hc)]
  have hleading : Word.leading (c :: (word ++ rest)) = c :: word := Word.leading_append hall hrest
  have hafter : Word.after (c :: (word ++ rest)) = rest := Word.after_append hall hrest
  rw [outcome_value_word htrim hc hdigit]
  unfold keyword
  simp only [hleading]
  split_ifs
  · simp [hafter]
  · simp [hafter]
  · simp [hafter]
  · rw [outcome_map_within, hafter]
  · rw [outcome_map_within, hafter]
  · rfl

/-- White space ends the word `new`. -/
theorem IdentifierCall.read_new {w' : List Char} {id : ObjectId} (h : IdentifierCall t id)
    (hw : isBlank w = true) (hw' : isBlank w' = true) (hne : w' ≠ []) :
    outcome (value room (w ++ "new".toList ++ (w' ++ (t ++ rest)))) =
      .ok (.objectId id, rest) := by
  obtain ⟨t', rfl, hword, hread⟩ := h.read
  have hblank : ∀ d ∈ (w' ++ ("ObjectId".toList ++ t' ++ rest)).head?,
      Word.isWordChar d = false := by
    obtain ⟨d, more, rfl⟩ := List.exists_cons_of_ne_nil hne
    rw [Text.isBlank_cons, Bool.and_eq_true] at hw'
    intro e he
    obtain rfl : d = e := by simpa using he
    exact Word.isWordChar_of_isSpace hw'.1
  have htrim : Text.trimStart (w' ++ ("ObjectId".toList ++ t' ++ rest)) =
      "ObjectId".toList ++ (t' ++ rest) := trimStart_start hw' (by decide)
  have hleading : Word.leading ("ObjectId".toList ++ (t' ++ rest)) = "ObjectId".toList :=
    Word.leading_append (by decide) (hword rest)
  have hafter : Word.after ("ObjectId".toList ++ (t' ++ rest)) = t' ++ rest :=
    Word.after_append (by decide) (hword rest)
  refine (value_of_word hw (by decide) (by decide) hblank).trans ?_
  show outcome (construction (w' ++ ("ObjectId".toList ++ t' ++ rest))) = _
  unfold construction
  simp only []
  rw [if_pos (by rw [htrim, hleading]), outcome_map_within]
  have hcall : ∀ start cs, Word.after cs = t' ++ rest →
      outcome (identifierCall start (Word.after cs)) = .ok (.objectId id, rest) := by
    intro start cs hcs
    rw [hcs]
    exact hread start rest
  exact hcall _ _ (by rw [htrim, hafter])

theorem Scalar.read {v : Value} (h : Scalar t v) (hw : isBlank w = true) (hrest : IsEnd rest) :
    outcome (value room (w ++ t ++ rest)) = .ok (v, rest) := by
  cases h with
  | string ht =>
      obtain ⟨quote, body, hquote, rfl, htext⟩ := text_of_stringToken ht
      have htrim : Text.trimStart (w ++ (quote :: body) ++ rest) = quote :: (body ++ rest) := by
        rw [List.append_assoc, List.cons_append, trimStart_start hw (isStart_of_isQuote hquote)]
      rw [outcome_value_quote htrim hquote, htext]
      rfl
  | number ht =>
      have hread := read_of_numberToken ht hrest
      obtain ⟨c, more, rfl, hc⟩ := ht.exists_cons
      have htrim : Text.trimStart (w ++ (c :: more) ++ rest) = c :: (more ++ rest) := by
        rw [List.append_assoc, List.cons_append, trimStart_start hw (isStart_of_number hc)]
      rw [outcome_value_number htrim hc]
      exact hread
  | null => exact value_of_word hw (by decide) (by decide) hrest.word
  | yes => exact value_of_word hw (by decide) (by decide) hrest.word
  | no => exact value_of_word hw (by decide) (by decide) hrest.word
  | identifier ht =>
      obtain ⟨t', rfl, hword, hread⟩ := ht.read
      rw [← List.append_assoc, List.append_assoc]
      exact (value_of_word hw (by decide) (by decide) (hword rest)).trans (hread _ rest)
  | @construction w' t id hw' hne ht =>
      have hsplit : w ++ ("new".toList ++ w' ++ t) ++ rest =
          w ++ "new".toList ++ (w' ++ (t ++ rest)) := by
        simp only [List.append_assoc]
      rw [hsplit]
      exact ht.read_new hw hw' hne

theorem trimStart_enclosed {c d : Char} (hw : isBlank w = true) (hc : isStart c = true) :
    Text.trimStart (w ++ (c :: t ++ [d]) ++ rest) = c :: (t ++ d :: rest) := by
  have hsplit : w ++ (c :: t ++ [d]) ++ rest = w ++ c :: (t ++ d :: rest) := by simp
  rw [hsplit, trimStart_start hw hc]

/-- Without room for it an array is refused after its bracket. -/
theorem outcome_value_array_zero (hw : isBlank w = true) :
    outcome (value 0 (w ++ ('[' :: t ++ [']']) ++ rest)) =
      .error ⟨.tooDeep maxDepth, t ++ ']' :: rest⟩ := by
  rw [outcome_value_cons (trimStart_enclosed hw rfl), if_neg (by decide)]
  exact if_pos rfl

theorem outcome_value_array (hw : isBlank w = true) :
    outcome (value (room + 1) (w ++ ('[' :: t ++ [']']) ++ rest)) =
      (outcome (Reader.contents .array (value room) (t ++ ']' :: rest))).map
        (Prod.map Value.array id) := by
  rw [outcome_value_cons (trimStart_enclosed hw rfl), if_neg (by decide)]
  exact if_pos rfl

/-- Without room for it an object is refused after its bracket. -/
theorem outcome_value_object_zero (hw : isBlank w = true) :
    outcome (value 0 (w ++ ('{' :: t ++ ['}']) ++ rest)) =
      .error ⟨.tooDeep maxDepth, t ++ '}' :: rest⟩ := by
  rw [outcome_value_cons (trimStart_enclosed hw rfl)]
  exact if_pos rfl

theorem outcome_value_object (hw : isBlank w = true) :
    outcome (value (room + 1) (w ++ ('{' :: t ++ ['}']) ++ rest)) =
      (outcome (Reader.contents .object (field (value room)) (t ++ '}' :: rest))).map
        (Prod.map Value.ofPairs id) := by
  rw [outcome_value_cons (trimStart_enclosed hw rfl)]
  exact if_pos rfl

/-- An array is read as what its contents are read as, if there is room for it. -/
theorem value_array_iff {v : Value} {after : List Char} (hw : isBlank w = true) :
    outcome (value room (w ++ ('[' :: t ++ [']']) ++ rest)) = .ok (v, after) ↔
      ∃ room' vs, room = room' + 1 ∧
        outcome (Reader.contents .array (value room') (t ++ ']' :: rest)) = .ok (vs, after) ∧
        .array vs = v := by
  cases room with
  | zero =>
      rw [outcome_value_array_zero hw]
      simp
  | succ room =>
      rw [outcome_value_array hw]
      simp [map_eq_ok_iff]

/-- An object is read as what its contents are read as, if there is room for it. -/
theorem value_object_iff {v : Value} {after : List Char} (hw : isBlank w = true) :
    outcome (value room (w ++ ('{' :: t ++ ['}']) ++ rest)) = .ok (v, after) ↔
      ∃ room' pairs, room = room' + 1 ∧
        outcome (Reader.contents .object (field (value room')) (t ++ '}' :: rest)) =
          .ok (pairs, after) ∧
        .ofPairs pairs = v := by
  cases room with
  | zero =>
      rw [outcome_value_object_zero hw]
      simp
  | succ room =>
      rw [outcome_value_object hw]
      simp [map_eq_ok_iff]

/-- The text is read as the value with any room for as much nesting. -/
def IsRead (t : List Char) (v : Value) (n : Nat) : Prop :=
  ∀ room, n ≤ room → ∀ w rest, isBlank w = true → IsEnd rest →
    outcome (value room (w ++ t ++ rest)) = .ok (v, rest)

/-- Inside a container there is less room, so the induction is for every room at once. -/
theorem complete_of_isRead (room : Nat) :
    Complete (value room) (fun t v n => Denotes t v n ∧ IsRead t v n) room :=
  fun _ _ _ hv hn => hv.2 room hn

theorem Denotes.isRead {v : Value} (h : Denotes t v n) : IsRead t v n := by
  refine Denotes.induction (P := IsRead) ?_ ?_ ?_ ?_ ?_ h
  · intro t v ht room _ w rest hw hrest
    exact ht.read hw hrest
  · intro w' hw' room hn w rest hw _
    obtain ⟨room, rfl⟩ := Nat.exists_eq_succ_of_ne_zero (by omega : room ≠ 0)
    have hcontents : outcome (Reader.contents .array (value room) (w' ++ ']' :: rest)) = _ :=
      contents_blank hw'
    exact (value_array_iff hw).mpr ⟨room, _, rfl, hcontents, rfl⟩
  · intro t vs n hvs room hn w rest hw _
    obtain ⟨room, rfl⟩ := Nat.exists_eq_succ_of_ne_zero (by omega : room ≠ 0)
    have hcontents : outcome (Reader.contents .array (value room) (t ++ ']' :: rest)) = _ :=
      (complete_of_isRead room).contents (fun t v n hv => hv.1.isFramed.1) hvs (by omega)
    exact (value_array_iff hw).mpr ⟨room, _, rfl, hcontents, rfl⟩
  · intro w' hw' room hn w rest hw _
    obtain ⟨room, rfl⟩ := Nat.exists_eq_succ_of_ne_zero (by omega : room ≠ 0)
    have hcontents :
        outcome (Reader.contents .object (field (value room)) (w' ++ '}' :: rest)) = _ :=
      contents_blank hw'
    exact (value_object_iff hw).mpr ⟨room, _, rfl, hcontents, rfl⟩
  · intro t pairs n hpairs room hn w rest hw _
    obtain ⟨room, rfl⟩ := Nat.exists_eq_succ_of_ne_zero (by omega : room ≠ 0)
    have hcontents :
        outcome (Reader.contents .object (field (value room)) (t ++ '}' :: rest)) = _ :=
      (complete_of_isRead room).field.contents (fun t p n hp => hp.exists_cons) hpairs (by omega)
    exact (value_object_iff hw).mpr ⟨room, _, rfl, hcontents, rfl⟩

/-- A literal is read as the value it denotes, if there is room for its nesting. -/
theorem complete_value (room : Nat) : Complete (value room) Denotes room :=
  fun _ _ _ h => h.isRead room

/-! ## Whole texts -/

/-- The text is a literal for the value, with white space at both ends, and is nested no deeper
than literals may be. -/
def Derives (text : List Char) (v : Value) : Prop :=
  ∃ w₁ t w₂ n, isBlank w₁ = true ∧ isBlank w₂ = true ∧ text = w₁ ++ t ++ w₂ ∧
    Denotes t v n ∧ n ≤ 128

theorem Derives.not_blank {v : Value} (h : Derives cs v) : isBlank cs = false := by
  obtain ⟨w₁, t, w₂, n, -, -, rfl, ht, -⟩ := h
  simp [Text.isBlank_append, ht.isFramed.isSolid.not_blank]

/-- White space around a text does not matter. -/
theorem derives_trim_iff {v : Value} : Derives (Text.trim cs) v ↔ Derives cs v := by
  obtain ⟨u₁, u₂, hu₁, hu₂, hcs⟩ := Text.exists_trim cs
  constructor
  · rintro ⟨w₁, t, w₂, n, hw₁, hw₂, htrim, ht, hn⟩
    refine ⟨u₁ ++ w₁, t, w₂ ++ u₂, n, by simp [hu₁, hw₁], by simp [hu₂, hw₂], ?_, ht, hn⟩
    rw [hcs, htrim]
    simp only [List.append_assoc]
  · rintro ⟨w₁, t, w₂, n, hw₁, hw₂, rfl, ht, hn⟩
    rw [Text.trim_append_append hw₁ ht.isFramed.isSolid hw₂]
    exact ⟨[], t, [], n, rfl, rfl, by simp, ht, hn⟩

theorem whole_eq_ok_iff {v : Value} :
    whole cs = .ok v ↔
      ∃ rest, outcome (value maxDepth cs) = .ok (v, rest) ∧ isBlank rest = true := by
  unfold whole
  cases hvalue : value maxDepth cs with
  | error fault => simp
  | ok p =>
      rw [outcome_ok]
      cases htrim : Text.trimStart p.rest with
      | nil =>
          have hblank := Text.trimStart_eq_nil_iff.mp htrim
          simp [htrim, hblank]
      | cons c rest =>
          have hblank : isBlank p.rest = false := by
            rw [Bool.eq_false_iff]
            intro hblank
            rw [Text.trimStart_eq_nil_iff.mpr hblank] at htrim
            contradiction
          simp [htrim, hblank]

theorem whole_eq_ok_iff_derives {v : Value} : whole cs = .ok v ↔ Derives cs v := by
  rw [whole_eq_ok_iff]
  constructor
  · rintro ⟨rest, hvalue, hrest⟩
    obtain ⟨w, t, n, hw, hcs, ht, hn⟩ := sound_value maxDepth cs v rest hvalue
    exact ⟨w, t, rest, n, hw, hrest, hcs, ht, hn⟩
  · rintro ⟨w₁, t, w₂, n, hw₁, hw₂, rfl, ht, hn⟩
    exact ⟨w₂, complete_value maxDepth t v n ht hn w₁ w₂ hw₁ (isEnd_of_blank hw₂), hw₂⟩

theorem parse_of_blank {text : String} (h : isBlank text.toList = true) :
    parse text = .ok .empty := by
  simp [parse, h]

/-- A text that is not blank is parsed as what it derives. -/
theorem parse_of_not_blank {text : String} {v : Value} (h : isBlank text.toList = false) :
    parse text = .ok v ↔ Derives text.toList v := by
  rw [← whole_eq_ok_iff_derives, parse]
  cases whole text.toList <;> simp [h, Except.mapError]

/-- A text whose literal is refused is refused at the same place. -/
theorem parse_of_fault {text : String} {fault : Fault} (h : isBlank text.toList = false)
    (hvalue : outcome (value maxDepth text.toList) = .error fault) :
    parse text = .error (fault.toError text.toList) := by
  have hwhole : whole text.toList = .error fault := by
    unfold whole
    cases hread : value maxDepth text.toList with
    | error fault' =>
        rw [hread] at hvalue
        exact congrArg Except.error (Except.error.inj hvalue)
    | ok p =>
        rw [hread] at hvalue
        contradiction
  rw [parse]
  simp [h, hwhole, Except.mapError]

/-- The parser accepts exactly the grammar, and blank text, which is the empty object. -/
theorem parse_eq_ok_iff (text : String) (v : Value) :
    parse text = .ok v ↔
      (isBlank text.toList = true ∧ v = .empty) ∨
        ∃ w₁ t w₂ n, isBlank w₁ = true ∧ isBlank w₂ = true ∧ text.toList = w₁ ++ t ++ w₂ ∧
          Denotes t v n ∧ n ≤ 128 := by
  cases hblank : isBlank text.toList with
  | true =>
      -- Literals are not blank, so the two cases exclude each other.
      have hnone : ¬ Derives text.toList v := by
        intro h
        rw [h.not_blank] at hblank
        contradiction
      rw [parse_of_blank hblank]
      constructor
      · intro h
        exact .inl ⟨rfl, (Except.ok.inj h).symm⟩
      · rintro (⟨-, rfl⟩ | h)
        · rfl
        · exact absurd h hnone
  | false =>
      rw [parse_of_not_blank hblank]
      constructor
      · exact .inr
      · rintro (⟨h, -⟩ | h)
        · contradiction
        · exact h

end DocShell.Literal
