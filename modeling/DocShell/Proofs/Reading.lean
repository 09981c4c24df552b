import DocShell.Literal.Parser
import DocShell.Proofs.Text

set_option autoImplicit false

/-! # What readers give

A reader hands on the rest of the text together with the proof that it is shorter. Statements
about what is read do not need that proof: `outcome` forgets it. For each reader there is one
lemma that says when it succeeds, in terms of the readers it is made of, and later proofs use
these lemmas in place of the definitions.
-/

namespace DocShell

variable {α β : Type} {cs ds rest : List Char}

/-- What was read and the rest of the text, or the fault. -/
def outcome (result : Except Fault (Parsed α cs)) : Except Fault (α × List Char) :=
  result.map fun p => (p.value, p.rest)

@[simp] theorem outcome_ok (p : Parsed α cs) : outcome (.ok p) = .ok (p.value, p.rest) := rfl

@[simp] theorem outcome_error (fault : Fault) :
    outcome (.error fault : Except Fault (Parsed α cs)) = .error fault := rfl

@[simp] theorem outcome_pure (p : Parsed α cs) :
    outcome (pure p : Except Fault (Parsed α cs)) = .ok (p.value, p.rest) := rfl

@[simp] theorem outcome_throw (fault : Fault) :
    outcome (throw fault : Except Fault (Parsed α cs)) = .error fault := rfl

@[simp] theorem outcome_map_within (result : Except Fault (Parsed α ds))
    (h : ds.length ≤ cs.length) : outcome (result.map (·.within h)) = outcome result := by
  cases result <;> rfl

@[simp] theorem outcome_map_map_within (f : α → β) (result : Except Fault (Parsed α ds))
    (h : ds.length ≤ cs.length) :
    outcome (result.map fun p => (p.map f).within h) =
      (outcome result).map (Prod.map f id) := by
  cases result <;> rfl

/-- Readers make progress. -/
theorem length_lt_of_outcome {result : Except Fault (Parsed α cs)} {a : α}
    (h : outcome result = .ok (a, rest)) : rest.length < cs.length := by
  cases result with
  | error fault => simp at h
  | ok p =>
      rw [outcome_ok, Except.ok.injEq, Prod.mk.injEq] at h
      exact h.2 ▸ p.shorter

theorem outcome_eq_ok_iff {result : Except Fault (Parsed α cs)} {a : α} :
    outcome result = .ok (a, rest) ↔ ∃ p, result = .ok p ∧ p.value = a ∧ p.rest = rest := by
  cases result <;> simp

theorem outcome_eq_error_iff {result : Except Fault (Parsed α cs)} {fault : Fault} :
    outcome result = .error fault ↔ result = .error fault := by
  cases result <;> simp

/-- A reader that goes on after another one succeeds where both do. -/
theorem outcome_bind_iff {result : Except Fault α} {next : α → Except Fault (Parsed β cs)}
    {b : β} :
    outcome (result >>= next) = .ok (b, rest) ↔
      ∃ a, result = .ok a ∧ outcome (next a) = .ok (b, rest) := by
  cases result <;> simp [bind, Except.bind]

theorem map_eq_ok_iff {f : α → β} {result : Except Fault (α × List Char)} {b : β} :
    result.map (Prod.map f id) = .ok (b, rest) ↔ ∃ a, result = .ok (a, rest) ∧ f a = b := by
  rcases result with fault | ⟨a, r⟩
  · simp [Except.map]
  · simp only [Except.map, Prod.map, id, Except.ok.injEq, Prod.mk.injEq]
    constructor
    · rintro ⟨rfl, rfl⟩
      exact ⟨a, ⟨rfl, rfl⟩, rfl⟩
    · rintro ⟨a', ⟨rfl, rfl⟩, rfl⟩
      exact ⟨rfl, rfl⟩

/-- What is made of what was made of the value. -/
theorem map_map {γ : Type} (f : α → β) (g : β → γ) (result : Except Fault (α × List Char)) :
    (result.map (Prod.map f id)).map (Prod.map g id) =
      result.map (Prod.map (fun a => g (f a)) id) := by
  cases result <;> rfl

/-! ## Readers in general -/

namespace Reader

theorem outcome_expect_iff {wanted : Char} {u : Unit} :
    outcome (expect wanted cs) = .ok (u, rest) ↔ Text.trimStart cs = wanted :: rest := by
  unfold expect
  split
  · rename_i h
    simp [h]
  · rename_i c ds h
    by_cases hc : c = wanted
    · simp [hc, h]
    · simp [hc, h]

theorem trimStart_of_expect {wanted : Char} {p : Parsed Unit cs} (h : expect wanted cs = .ok p) :
    Text.trimStart cs = wanted :: p.rest :=
  outcome_expect_iff.mp (outcome_eq_ok_iff.mpr ⟨p, h, rfl, rfl⟩)

theorem exists_of_trimStart {wanted : Char} (h : Text.trimStart cs = wanted :: rest) :
    ∃ p, expect wanted cs = .ok p ∧ p.rest = rest := by
  obtain ⟨p, hp, -, hrest⟩ := outcome_eq_ok_iff.mp (outcome_expect_iff (u := ()).mpr h)
  exact ⟨p, hp, hrest⟩

/-- Items are one item and the closing bracket, or one item, a comma and more items. -/
theorem outcome_items_iff {container : Container} {item : Reader α} {xs : List α} :
    outcome (items container item cs) = .ok (xs, rest) ↔
      ∃ x after, outcome (item cs) = .ok (x, after) ∧
        ((Text.trimStart after = container.closing :: rest ∧ xs = [x]) ∨
          ∃ next ys, Text.trimStart after = ',' :: next ∧
            (Text.trimStart next).head? ≠ some container.closing ∧
            outcome (items container item next) = .ok (ys, rest) ∧ xs = x :: ys) := by
  -- The character after an item is a comma or the bracket, never both.
  have hcomma : container.closing ≠ ',' := by cases container <;> decide
  rw [items]
  cases hitem : item cs with
  | error fault => simp
  | ok first =>
      simp only [outcome_ok, Except.ok.injEq, Prod.mk.injEq, and_assoc]
      split
      · rename_i h
        simp [h]
      · rename_i c next h
        by_cases hc : c = ','
        · subst hc
          by_cases hhead : (Text.trimStart next).head? = some container.closing
          · simp [h, hhead, Ne.symm hcomma]
          · simp only [if_true, if_neg hhead]
            cases hmore : items container item next with
            | error fault => simp [h, hmore, Ne.symm hcomma]
            | ok more =>
                simp only [outcome_ok, Except.ok.injEq, Prod.mk.injEq]
                constructor
                · rintro ⟨rfl, rfl⟩
                  exact ⟨_, _, rfl, rfl, .inr ⟨next, more.value, h, hhead, by simp [hmore], rfl⟩⟩
                · rintro ⟨x, after, rfl, rfl, ⟨h', -⟩ | ⟨next', ys, h', -, hys, rfl⟩⟩
                  · rw [h] at h'
                    exact absurd (List.cons.inj h').1.symm hcomma
                  · rw [h] at h'
                    obtain ⟨-, rfl⟩ := List.cons.inj h'
                    simp only [hmore, outcome_ok, Except.ok.injEq, Prod.mk.injEq] at hys
                    simp [hys]
        · by_cases hclose : c = container.closing
          · subst hclose
            simp only [if_neg hc, if_true, outcome_ok, Except.ok.injEq, Prod.mk.injEq]
            constructor
            · rintro ⟨rfl, rfl⟩
              exact ⟨_, _, rfl, rfl, .inl ⟨h, rfl⟩⟩
            · rintro ⟨x, after, rfl, rfl, ⟨h', rfl⟩ | ⟨next', ys, h', -⟩⟩
              · rw [h] at h'
                exact ⟨rfl, (List.cons.inj h').2⟩
              · rw [h] at h'
                exact absurd (List.cons.inj h').1 hc
          · simp [h, hc, hclose]

/-- A container is empty, or it has items. -/
theorem outcome_contents_iff {container : Container} {item : Reader α} {xs : List α} :
    outcome (contents container item cs) = .ok (xs, rest) ↔
      (Text.trimStart cs = container.closing :: rest ∧ xs = []) ∨
        ((Text.trimStart cs).head? ≠ some container.closing ∧
          outcome (items container item cs) = .ok (xs, rest)) := by
  unfold contents
  split
  · rename_i h
    simp [h]
  · rename_i c next h
    by_cases hc : c = container.closing
    · simp [h, hc, eq_comm, and_comm]
    · simp [h, hc]

/-- Items of which the first is refused are refused at the same place. -/
theorem outcome_items_of_error {container : Container} {item : Reader α} {fault : Fault}
    (h : outcome (item cs) = .error fault) :
    outcome (items container item cs) = .error fault := by
  rw [items, outcome_eq_error_iff.mp h]
  rfl

/-- After an item and a comma, further items that are refused are so at the same place. -/
theorem outcome_items_of_more {container : Container} {item : Reader α} {x : α}
    {after next : List Char} {fault : Fault} (h : outcome (item cs) = .ok (x, after))
    (hcomma : Text.trimStart after = ',' :: next)
    (hhead : (Text.trimStart next).head? ≠ some container.closing)
    (hmore : outcome (items container item next) = .error fault) :
    outcome (items container item cs) = .error fault := by
  obtain ⟨first, hfirst, -, rfl⟩ := outcome_eq_ok_iff.mp h
  rw [items, hfirst]
  dsimp only
  split
  · rename_i hnil
    rw [hcomma] at hnil
    contradiction
  · rename_i c rest hcons
    obtain ⟨rfl, rfl⟩ := List.cons.inj (hcomma.symm.trans hcons)
    rw [if_pos rfl, if_neg hhead, outcome_eq_error_iff.mp hmore]
    rfl

/-- What does not begin with the closing bracket is read as items. -/
theorem outcome_contents_of_items {container : Container} {item : Reader α}
    (h : (Text.trimStart cs).head? ≠ some container.closing) :
    outcome (contents container item cs) = outcome (items container item cs) := by
  unfold contents
  split
  · rfl
  · rename_i c next hcons
    have hc : c ≠ container.closing := by
      rintro rfl
      exact h (by rw [hcons, List.head?_cons])
    rw [if_neg hc]

/-- What holds of the last item with its bracket, and is kept by an item put in front, holds of
all items that are read. -/
theorem items_induction {container : Container} {item : Reader α}
    {P : List Char → List α → List Char → Prop}
    (last : ∀ cs x after rest, outcome (item cs) = .ok (x, after) →
      Text.trimStart after = container.closing :: rest → P cs [x] rest)
    (more : ∀ cs x after next ys rest, outcome (item cs) = .ok (x, after) →
      Text.trimStart after = ',' :: next → P next ys rest → P cs (x :: ys) rest)
    {cs : List Char} {xs : List α} {rest : List Char}
    (h : outcome (items container item cs) = .ok (xs, rest)) : P cs xs rest := by
  -- Each further item begins later in the text.
  induction hn : cs.length using Nat.strong_induction_on generalizing cs xs rest with
  | _ n ih =>
      obtain ⟨x, after, hx, ⟨hclose, rfl⟩ | ⟨next, ys, hcomma, -, hys, rfl⟩⟩ :=
        outcome_items_iff.mp h
      · exact last cs x after rest hx hclose
      · refine more cs x after next ys rest hx hcomma (ih next.length ?_ hys rfl)
        have hafter := length_lt_of_outcome hx
        have hnext := Text.length_trimStart_le after
        rw [hcomma, List.length_cons] at hnext
        omega

end Reader

/-! ## Words and keys -/

namespace Word

/-- Word characters are visible ASCII characters. -/
theorem toNat_of_isWordChar {c : Char} (h : isWordChar c = true) :
    0x24 ≤ c.toNat ∧ c.toNat ≤ 0x7A := by
  unfold isWordChar Char.isAlphanum Char.isAlpha Char.isUpper Char.isLower at h
  simp only [Bool.or_eq_true, Bool.and_eq_true, decide_eq_true_eq, beq_iff_eq, ge_iff_le,
    UInt32.le_iff_toNat_le, Char.isDigit_iff_toNat, Char.toNat_val] at h
  rcases h with ((h | h) | rfl) | rfl
  · simp at h
    omega
  · simp at h
    omega
  · decide
  · decide

theorem isSpace_of_isWordChar {c : Char} (h : isWordChar c = true) : Text.isSpace c = false := by
  have hc := toNat_of_isWordChar h
  exact Text.isSpace_eq_false (by omega) (by omega)

theorem isWordChar_of_isSpace {c : Char} (h : Text.isSpace c = true) : isWordChar c = false := by
  rw [Bool.eq_false_iff]
  intro hword
  rw [isSpace_of_isWordChar hword] at h
  contradiction

theorem leading_append_after (cs : List Char) : leading cs ++ after cs = cs :=
  List.takeWhile_append_dropWhile

theorem leading_append {word : List Char} (hword : word.all isWordChar = true)
    (hrest : ∀ c ∈ rest.head?, isWordChar c = false) : leading (word ++ rest) = word := by
  rw [leading, List.takeWhile_append_of_pos (by simpa using hword)]
  cases rest with
  | nil => simp
  | cons c cs => simp [hrest c (by simp)]

theorem after_append {word : List Char} (hword : word.all isWordChar = true)
    (hrest : ∀ c ∈ rest.head?, isWordChar c = false) : after (word ++ rest) = rest := by
  have h := leading_append_after (word ++ rest)
  rw [leading_append hword hrest] at h
  exact List.append_cancel_left h

/-- A word is read to its end. -/
theorem head_after {c : Char} (h : c ∈ (after cs).head?) : isWordChar c = false := by
  have hnot := List.head?_dropWhile_not isWordChar cs
  rw [Option.mem_def] at h
  rw [after] at h
  simpa [h] using hnot

theorem all_leading (cs : List Char) : (leading cs).all isWordChar = true :=
  List.all_takeWhile

end Word

theorem Quoted.isQuote_iff {c : Char} : isQuote c = true ↔ c = '"' ∨ c = '\x27' := by
  simp [isQuote]

/-- A quote begins nothing but a string. -/
theorem Quoted.not_isWordChar {c : Char} (h : isQuote c = true) : Word.isWordChar c = false := by
  rcases isQuote_iff.mp h with rfl | rfl <;> decide

theorem Key.outcome_read_iff {key : String} :
    outcome (Key.read cs) = .ok (key, rest) ↔
      ∃ c next, Text.trimStart cs = c :: next ∧
        ((Quoted.isQuote c = true ∧ outcome (Quoted.text c next) = .ok (key, rest)) ∨
          (Word.isWordChar c = true ∧ key = String.ofList (Word.leading (c :: next)) ∧
            rest = Word.after (c :: next))) := by
  unfold Key.read
  split
  · rename_i h
    simp [h]
  · rename_i c next h
    by_cases hq : Quoted.isQuote c = true
    · simp [h, hq, Quoted.not_isWordChar hq]
    · by_cases hc : Word.isWordChar c = true
      · simp only [hq, hc, h, dif_pos, outcome_ok, Except.ok.injEq, Prod.mk.injEq,
          Bool.false_eq_true, if_false]
        constructor
        · rintro ⟨rfl, rfl⟩
          exact ⟨c, next, rfl, .inr ⟨hc, rfl, rfl⟩⟩
        · rintro ⟨d, ds, hd, ⟨hquote, -⟩ | ⟨-, rfl, rfl⟩⟩
          · exact absurd ((List.cons.inj hd).1 ▸ hquote) hq
          · rw [hd]
            exact ⟨rfl, rfl⟩
      · simp [h, hq, hc]

/-! ## Literals -/

namespace Literal

theorem outcome_identifierCall_iff {start : List Char} {v : Value} :
    outcome (identifierCall start cs) = .ok (v, rest) ↔
      ∃ opened quote inside hex after id,
        Text.trimStart cs = '(' :: opened ∧ Text.trimStart opened = quote :: inside ∧
        Quoted.isQuote quote = true ∧ outcome (Quoted.text quote inside) = .ok (hex, after) ∧
        Text.trimStart after = ')' :: rest ∧ ObjectId.ofHex hex = .ok id ∧
        v = .objectId id := by
  unfold identifierCall
  rw [outcome_bind_iff]
  constructor
  · rintro ⟨opened, hopened, h⟩
    split at h
    · simp at h
    · rename_i quote inside htrim
      split at h
      · rename_i hquote
        rw [outcome_bind_iff] at h
        obtain ⟨hex, hhex, h⟩ := h
        rw [outcome_bind_iff] at h
        obtain ⟨closed, hclosed, h⟩ := h
        split at h
        · simp at h
        · rename_i id hid
          simp only [outcome_pure, Except.ok.injEq, Prod.mk.injEq] at h
          obtain ⟨rfl, rfl⟩ := h
          exact ⟨opened.rest, quote, inside, hex.value, hex.rest, id,
            Reader.trimStart_of_expect hopened, htrim, hquote, by simp [hhex],
            Reader.trimStart_of_expect hclosed, hid, rfl⟩
      · simp at h
  · rintro ⟨opened, quote, inside, hex, after, id, hopen, htrim, hquote, hhex, hclose, hid, rfl⟩
    obtain ⟨p, hp, rfl⟩ := Reader.exists_of_trimStart hopen
    refine ⟨p, hp, ?_⟩
    split
    · rename_i hnil
      simp [htrim] at hnil
    · rename_i c next hcons
      obtain ⟨rfl, rfl⟩ := List.cons.inj (htrim.symm.trans hcons)
      obtain ⟨q, hq, rfl, rfl⟩ := outcome_eq_ok_iff.mp hhex
      obtain ⟨r, hr, rfl⟩ := Reader.exists_of_trimStart hclose
      rw [if_pos hquote, outcome_bind_iff]
      refine ⟨q, hq, ?_⟩
      rw [outcome_bind_iff]
      refine ⟨r, hr, ?_⟩
      split
      · rename_i reason hbad
        simp [hid] at hbad
      · rename_i id' hid'
        rw [hid] at hid'
        injection hid' with hid'
        simp [hid']

theorem outcome_field_iff {value : Reader Value} {key : String} {v : Value} :
    outcome (field value cs) = .ok ((key, v), rest) ↔
      ∃ colon next, outcome (Key.read cs) = .ok (key, colon) ∧
        Text.trimStart colon = ':' :: next ∧ outcome (value next) = .ok (v, rest) := by
  unfold field
  simp only [outcome_bind_iff, outcome_pure, Except.ok.injEq, Prod.mk.injEq]
  constructor
  · rintro ⟨k, hk, c, hc, p, hp, ⟨rfl, rfl⟩, rfl⟩
    exact ⟨k.rest, c.rest, by simp [hk], Reader.trimStart_of_expect hc, by simp [hp]⟩
  · rintro ⟨colon, next, hkey, hcolon, hvalue⟩
    obtain ⟨k, hk, rfl, rfl⟩ := outcome_eq_ok_iff.mp hkey
    obtain ⟨c, hc, rfl⟩ := Reader.exists_of_trimStart hcolon
    obtain ⟨p, hp, rfl, rfl⟩ := outcome_eq_ok_iff.mp hvalue
    exact ⟨k, hk, c, hc, p, hp, ⟨rfl, rfl⟩, rfl⟩

/-- After a key and a colon, a value that is refused is so at the same place. -/
theorem outcome_field_of_error {value : Reader Value} {key : String} {colon next : List Char}
    {fault : Fault} (hkey : outcome (Key.read cs) = .ok (key, colon))
    (hcolon : Text.trimStart colon = ':' :: next)
    (hvalue : outcome (value next) = .error fault) :
    outcome (field value cs) = .error fault := by
  obtain ⟨k, hk, -, rfl⟩ := outcome_eq_ok_iff.mp hkey
  obtain ⟨c, hc, rfl⟩ := Reader.exists_of_trimStart hcolon
  unfold field
  rw [hk]
  simp only [bind, Except.bind, hc, outcome_eq_error_iff.mp hvalue, outcome_error]

/-- What a value is follows from its first character. -/
theorem outcome_value_cons {room : Nat} {c : Char} {next : List Char}
    (h : Text.trimStart cs = c :: next) :
    outcome (value room cs) =
      if c = '{' then
        match room with
        | 0 => .error ⟨.tooDeep maxDepth, next⟩
        | room + 1 =>
          (outcome (Reader.contents .object (field (value room)) next)).map
            (Prod.map Value.ofPairs id)
      else if c = '[' then
        match room with
        | 0 => .error ⟨.tooDeep maxDepth, next⟩
        | room + 1 =>
          (outcome (Reader.contents .array (value room) next)).map (Prod.map Value.array id)
      else if Quoted.isQuote c then
        (outcome (Quoted.text c next)).map (Prod.map Value.string id)
      else if c = '-' ∨ c.isDigit then outcome (Numeral.read (c :: next))
      else if hc : Word.isWordChar c = true then
        outcome (keyword (c :: next) (Word.length_after_lt hc next))
      else .error ⟨.unexpected c, c :: next⟩ := by
  rw [value]
  split
  · rename_i hnil
    simp [h] at hnil
  · rename_i d ds hcons
    obtain ⟨rfl, rfl⟩ := List.cons.inj (h.symm.trans hcons)
    split_ifs <;> cases room <;> simp

theorem outcome_value_quote {room : Nat} {quote : Char} {next : List Char}
    (h : Text.trimStart cs = quote :: next) (hquote : Quoted.isQuote quote = true) :
    outcome (value room cs) =
      (outcome (Quoted.text quote next)).map (Prod.map Value.string id) := by
  rw [outcome_value_cons h]
  rcases Quoted.isQuote_iff.mp hquote with rfl | rfl <;> simp [hquote]

theorem outcome_value_number {room : Nat} {c : Char} {next : List Char}
    (h : Text.trimStart cs = c :: next) (hc : c = '-' ∨ c.isDigit = true) :
    outcome (value room cs) = outcome (Numeral.read (c :: next)) := by
  have hne : ∀ d : Char, d.isDigit = false → d ≠ '-' → c ≠ d := by
    rintro d hdigit hminus rfl
    rcases hc with hc | hc
    · exact hminus hc
    · rw [hdigit] at hc
      contradiction
  have hquote : Quoted.isQuote c = false := by
    simp [Quoted.isQuote, hne '"' (by decide) (by decide), hne '\x27' (by decide) (by decide)]
  rw [outcome_value_cons h, if_neg (hne '{' (by decide) (by decide)),
    if_neg (hne '[' (by decide) (by decide)), if_neg (by simp [hquote]), if_pos hc]

theorem outcome_value_word {room : Nat} {c : Char} {next : List Char}
    (h : Text.trimStart cs = c :: next) (hword : Word.isWordChar c = true)
    (hdigit : c.isDigit = false) :
    outcome (value room cs) = outcome (keyword (c :: next) (Word.length_after_lt hword next)) := by
  have hne : ∀ d : Char, Word.isWordChar d = false → c ≠ d := by
    rintro d hd rfl
    rw [hd] at hword
    contradiction
  have hquote : Quoted.isQuote c = false := by
    simp [Quoted.isQuote, hne '"' (by decide), hne '\x27' (by decide)]
  rw [outcome_value_cons h, if_neg (hne '{' (by decide)), if_neg (hne '[' (by decide)),
    if_neg (by simp [hquote]), if_neg (by simp [hdigit, hne '-' (by decide)]), dif_pos hword]

theorem outcome_value_nil {room : Nat} (h : Text.trimStart cs = []) :
    outcome (value room cs) = .error ⟨.noValue, []⟩ := by
  rw [value]
  split
  · rfl
  · rename_i hcons
    simp [h] at hcons

end Literal

end DocShell
