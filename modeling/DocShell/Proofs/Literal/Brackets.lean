import DocShell.Proofs.Arguments.Literals

set_option autoImplicit false

/-! # Where a literal is nested too deep

The nesting of a text is counted from its characters alone: outside strings, an opening brace or
bracket adds a level and a closing one takes it away. Parentheses do not count, and what is
closed leaves nothing behind, so items side by side are not nested deeper than the deepest one
of them (`IsNested.append`).

Of a literal this is the nesting that the grammar gives it (`Denotes.isNested`). With room for
less, the reader refuses it right after the first bracket that finds no room
(`Denotes.isRefused`): before this bracket stand whole items, which are read, and the brackets
that lead to it.
-/

namespace DocShell

open Text (isBlank)
open Arguments (StringBody)

variable {n m k room : Nat} {t u rest : List Char}

/-! ## Counting brackets -/

namespace Brackets

/-- Where the next character of a text stands: outside strings, in a string with the given
quote, or there after a backslash. -/
inductive Place where
  | outside
  | inside (quote : Char)
  | escaped (quote : Char)
deriving DecidableEq

/-- The place that a count has come to, and how many brackets are not yet closed there. -/
structure Count where
  place : Place
  unclosed : Nat
deriving DecidableEq

/-- Whether the character opens an object or an array. -/
def isOpening (c : Char) : Bool :=
  c == '{' || c == '['

/-- Whether the character closes an object or an array. -/
def isClosing (c : Char) : Bool :=
  c == '}' || c == ']'

namespace Count

/-- Counts one character. -/
def step (s : Count) (c : Char) : Count :=
  match s.place with
  | .outside =>
      if Quoted.isQuote c then { s with place := .inside c }
      else if isOpening c then { s with unclosed := s.unclosed + 1 }
      else if isClosing c then { s with unclosed := s.unclosed - 1 }
      else s
  | .inside quote =>
      if c = '\\' then { s with place := .escaped quote }
      else if c = quote then { s with place := .outside }
      else s
  | .escaped quote => { s with place := .inside quote }

/-- Counts a text. -/
def run (s : Count) (t : List Char) : Count :=
  t.foldl step s

/-- The most brackets that are unclosed at any one point of a text. -/
def deepest (s : Count) : List Char → Nat
  | [] => s.unclosed
  | c :: t => max s.unclosed ((s.step c).deepest t)

end Count

/-- The count where so many brackets are unclosed, outside strings. -/
def outside (unclosed : Nat) : Count :=
  ⟨.outside, unclosed⟩

/-- How deep objects and arrays are nested in a text. -/
def nesting (text : List Char) : Nat :=
  (outside 0).deepest text

/-- Between `front` and `rest` the text has an opening bracket, outside strings and with so many
unclosed ones before it. -/
def OpensAt (limit : Nat) (text front rest : List Char) : Prop :=
  (∃ c, isOpening c = true ∧ text = front ++ c :: rest) ∧ (outside 0).run front = outside limit

/-- The bracket between `front` and `rest` is the first one with so many unclosed ones before
it. -/
def FirstOpensAt (limit : Nat) (text front rest : List Char) : Prop :=
  OpensAt limit text front rest ∧
    ∀ front' rest', OpensAt limit text front' rest' → front.length ≤ front'.length

@[simp] theorem unclosed_outside (k : Nat) : (outside k).unclosed = k := rfl

@[simp] theorem run_nil (s : Count) : s.run [] = s := rfl

@[simp] theorem run_cons (s : Count) (c : Char) (t : List Char) :
    s.run (c :: t) = (s.step c).run t := rfl

theorem run_append (s : Count) (t u : List Char) : s.run (t ++ u) = (s.run t).run u :=
  List.foldl_append

@[simp] theorem deepest_nil (s : Count) : s.deepest [] = s.unclosed := rfl

@[simp] theorem deepest_cons (s : Count) (c : Char) (t : List Char) :
    s.deepest (c :: t) = max s.unclosed ((s.step c).deepest t) := rfl

theorem unclosed_le_deepest (s : Count) (t : List Char) : s.unclosed ≤ s.deepest t := by
  cases t with
  | nil => exact le_rfl
  | cons c t => exact le_max_left _ _

theorem deepest_append (s : Count) (t u : List Char) :
    s.deepest (t ++ u) = max (s.deepest t) ((s.run t).deepest u) := by
  induction t generalizing s with
  | nil => exact (max_eq_right (unclosed_le_deepest s u)).symm
  | cons c t ih => rw [List.cons_append, deepest_cons, ih, deepest_cons, run_cons, max_assoc]

theorem utf8Size_of_isOpening {c : Char} (hc : isOpening c = true) : c.utf8Size = 1 := by
  simp only [isOpening, Bool.or_eq_true, beq_iff_eq] at hc
  rcases hc with rfl | rfl <;> rfl

theorem step_opening {c : Char} (hc : isOpening c = true) (k : Nat) :
    (outside k).step c = outside (k + 1) := by
  have hquote : Quoted.isQuote c = false := by
    simp only [isOpening, Bool.or_eq_true, beq_iff_eq] at hc
    rcases hc with rfl | rfl <;> decide
  simp [Count.step, outside, hquote, hc]

theorem step_closing {c : Char} (hc : isClosing c = true) (k : Nat) :
    (outside (k + 1)).step c = outside k := by
  simp only [isClosing, Bool.or_eq_true, beq_iff_eq] at hc
  rcases hc with rfl | rfl <;> rfl

/-- A bracket that the text opens on too many others is the first one if the text before it has
none. -/
theorem firstOpensAt_of_deepest_le {c : Char} {front : List Char} (hc : isOpening c = true)
    (hrun : (outside 0).run front = outside k) (hdeepest : (outside 0).deepest front ≤ k) :
    FirstOpensAt k (front ++ c :: rest) front rest := by
  refine ⟨⟨⟨c, hc, rfl⟩, hrun⟩, ?_⟩
  rintro front' rest' ⟨⟨c', hc', htext⟩, hrun'⟩
  by_contra hshorter
  -- An earlier bracket would stand in `front` and take the count beyond the limit there.
  obtain ⟨u, hfront⟩ : ∃ u, front = front' ++ c' :: u := by
    rcases List.append_eq_append_iff.mp htext with ⟨a, rfl, -⟩ | ⟨a, rfl, hrest⟩
    · simp at hshorter
    · cases a with
      | nil => simp at hshorter
      | cons d a =>
          obtain ⟨rfl, -⟩ := List.cons.inj hrest
          exact ⟨a, rfl⟩
  rw [hfront, deepest_append, hrun', deepest_cons, step_opening hc'] at hdeepest
  have hbeyond := unclosed_le_deepest (outside (k + 1)) u
  rw [unclosed_outside] at hbeyond
  omega

/-! ## Text that closes what it opens -/

/-- The text closes all its strings and brackets, and is nested so deep. -/
def IsNested (t : List Char) (n : Nat) : Prop :=
  ∀ k, (outside k).run t = outside k ∧ (outside k).deepest t = k + n

theorem IsNested.append (ht : IsNested t n) (hu : IsNested u m) : IsNested (t ++ u) (max n m) := by
  intro k
  obtain ⟨htrun, htdeepest⟩ := ht k
  obtain ⟨hurun, hudeepest⟩ := hu k
  constructor
  · rw [run_append, htrun, hurun]
  · rw [deepest_append, htrun, htdeepest, hudeepest]
    omega

theorem IsNested.append_flat (ht : IsNested t n) (hu : IsNested u 0) : IsNested (t ++ u) n := by
  simpa using ht.append hu

theorem IsNested.flat_append (ht : IsNested t 0) (hu : IsNested u n) : IsNested (t ++ u) n := by
  simpa using ht.append hu

theorem IsNested.enclosed {opening closing : Char} (hopening : isOpening opening = true)
    (hclosing : isClosing closing = true) (ht : IsNested t n) :
    IsNested (opening :: t ++ [closing]) (n + 1) := by
  intro k
  obtain ⟨hrun, hdeepest⟩ := ht (k + 1)
  rw [List.cons_append]
  constructor
  · rw [run_cons, step_opening hopening, run_append, hrun, run_cons, step_closing hclosing,
      run_nil]
  · rw [deepest_cons, step_opening hopening, deepest_append, hrun, hdeepest, deepest_cons,
      step_closing hclosing, deepest_nil, unclosed_outside, unclosed_outside]
    omega

/-- The characters that mean something to the count. -/
def marks : List Char := ['"', '\x27', '{', '[', '}', ']']

theorem step_of_not_mem {c : Char} (h : c ∉ marks) (k : Nat) :
    (outside k).step c = outside k := by
  simp only [marks, List.mem_cons, List.not_mem_nil, or_false, not_or] at h
  simp [Count.step, outside, Quoted.isQuote, isOpening, isClosing, h]

theorem isNested_of_not_mem (h : ∀ c ∈ t, c ∉ marks) : IsNested t 0 := by
  intro k
  induction t with
  | nil => exact ⟨rfl, rfl⟩
  | cons c t ih =>
      obtain ⟨hrun, hdeepest⟩ := ih fun d hd => h d (List.mem_cons_of_mem c hd)
      have hstep := step_of_not_mem (h c List.mem_cons_self) k
      constructor
      · rw [run_cons, hstep, hrun]
      · rw [deepest_cons, hstep, hdeepest]
        exact max_self k

theorem isNested_singleton {c : Char} (h : c ∉ marks) : IsNested [c] 0 := by
  refine isNested_of_not_mem fun d hd => ?_
  rwa [List.mem_singleton.mp hd]

/-- Text of a class of characters that has no mark in it has no nesting. -/
theorem isNested_of_class {p : Char → Bool} (hmarks : marks.any p = false)
    (h : t.all p = true) : IsNested t 0 :=
  isNested_of_not_mem fun c hc hmem =>
    List.any_eq_false.mp hmarks c hmem (List.all_eq_true.mp h c hc)

theorem isNested_of_blank (h : isBlank t = true) : IsNested t 0 :=
  isNested_of_class (by decide) h

theorem isNested_of_word (h : t.all Word.isWordChar = true) : IsNested t 0 :=
  isNested_of_class (by decide) h

/-- Brackets in a string are none. -/
theorem count_stringBody {quote : Char} (ht : StringBody quote t) (k : Nat) :
    Count.run ⟨.inside quote, k⟩ t = ⟨.inside quote, k⟩ ∧
      Count.deepest ⟨.inside quote, k⟩ t = k := by
  induction ht with
  | nil => exact ⟨rfl, rfl⟩
  | @plain c cs hquote hslash _ ih =>
      have hstep : Count.step ⟨.inside quote, k⟩ c = ⟨.inside quote, k⟩ := by
        simp [Count.step, hquote, hslash]
      rw [run_cons, deepest_cons, hstep, ih.1, ih.2]
      exact ⟨rfl, max_self k⟩
  | @escape c cs _ ih =>
      have hslash : Count.step ⟨.inside quote, k⟩ '\\' = ⟨.escaped quote, k⟩ := rfl
      have hstep : Count.step ⟨.escaped quote, k⟩ c = ⟨.inside quote, k⟩ := rfl
      rw [run_cons, run_cons, deepest_cons, deepest_cons, hslash, hstep, ih.1, ih.2]
      simp

theorem isNested_string {quote : Char} (hquote : Quoted.isQuote quote = true)
    (ht : StringBody quote t) : IsNested (quote :: (t ++ [quote])) 0 := by
  intro k
  have hslash : quote ≠ '\\' := by
    rintro rfl
    exact absurd hquote (by decide)
  have hopen : (outside k).step quote = ⟨.inside quote, k⟩ := by
    simp [Count.step, outside, hquote]
  have hclose : Count.step ⟨.inside quote, k⟩ quote = outside k := by
    simp [Count.step, outside, hslash]
  obtain ⟨hrun, hdeepest⟩ := count_stringBody ht k
  constructor
  · rw [run_cons, hopen, run_append, hrun, run_cons, hclose, run_nil]
  · rw [deepest_cons, hopen, deepest_append, hrun, hdeepest, deepest_cons, hclose, deepest_nil]
    simp

/-! ## The bracket that finds no room -/

/-- The bracket before `rest` is the first in the text that opens a level beyond the room. -/
def Exceeds (room : Nat) (t rest : List Char) : Prop :=
  ∃ front c, t = front ++ c :: rest ∧ isOpening c = true ∧
    ∀ k, (outside k).run front = outside (k + room) ∧ (outside k).deepest front = k + room

theorem exceeds_zero {c : Char} (hc : isOpening c = true) : Exceeds 0 (c :: rest) rest :=
  ⟨[], c, rfl, hc, fun _ => ⟨rfl, rfl⟩⟩

theorem Exceeds.opening {c : Char} (hc : isOpening c = true) (h : Exceeds room t rest) :
    Exceeds (room + 1) (c :: t) rest := by
  obtain ⟨front, d, rfl, hd, hfront⟩ := h
  refine ⟨c :: front, d, rfl, hd, fun k => ?_⟩
  obtain ⟨hrun, hdeepest⟩ := hfront (k + 1)
  rw [run_cons, deepest_cons, step_opening hc, hrun, hdeepest, unclosed_outside]
  constructor
  · rw [Nat.add_right_comm, Nat.add_assoc]
  · omega

theorem Exceeds.append (h : Exceeds room t rest) (u : List Char) :
    Exceeds room (t ++ u) (rest ++ u) := by
  obtain ⟨front, c, rfl, hc, hfront⟩ := h
  exact ⟨front, c, by simp, hc, hfront⟩

/-- Text before it that closes what it opens, and that finds room, leaves it the first one. -/
theorem Exceeds.after (h : Exceeds room t rest) (hu : IsNested u n) (hn : n ≤ room) :
    Exceeds room (u ++ t) rest := by
  obtain ⟨front, c, rfl, hc, hfront⟩ := h
  refine ⟨u ++ front, c, by simp, hc, fun k => ?_⟩
  obtain ⟨hrun, hdeepest⟩ := hu k
  obtain ⟨hrun', hdeepest'⟩ := hfront k
  constructor
  · rw [run_append, hrun, hrun']
  · rw [deepest_append, hrun, hdeepest, hdeepest']
    omega

theorem Exceeds.firstOpensAt (h : Exceeds room t rest) :
    ∃ front, FirstOpensAt room t front rest := by
  obtain ⟨front, c, rfl, hc, hfront⟩ := h
  obtain ⟨hrun, hdeepest⟩ := hfront 0
  rw [Nat.zero_add] at hrun hdeepest
  exact ⟨front, firstOpensAt_of_deepest_le hc hrun hdeepest.le⟩

end Brackets

namespace Literal

open Brackets (IsNested Exceeds)

variable {α : Type} {Item : List Char → α → Nat → Prop} {reader : Reader α}

/-! ## The nesting of a literal -/

theorem StringToken.isNested {s : String} (h : StringToken t s) : IsNested t 0 := by
  obtain ⟨quote, b, hquote, rfl, hb⟩ := stringToken_iff.mp h
  exact Brackets.isNested_string hquote (hb.stringBody hquote)

theorem NumberToken.isNested {v : Value} (h : NumberToken t v) : IsNested t 0 := by
  obtain ⟨n, ht, -⟩ := numberToken_iff.mp h
  exact Brackets.isNested_of_class (by decide) ht.all_isNumeralChar

theorem KeyToken.isNested {key : String} (h : KeyToken t key) : IsNested t 0 := by
  cases h with
  | quoted h => exact h.isNested
  | bare _ hall => exact Brackets.isNested_of_word hall

/-- The parentheses of an identifier do not count. -/
theorem IdentifierCall.isNested {id : ObjectId} (h : IdentifierCall t id) : IsNested t 0 := by
  cases h with
  | @call w₁ w₂ t w₃ s hw₁ hw₂ ht hw₃ =>
      have hname : IsNested "ObjectId".toList 0 := Brackets.isNested_of_word (by decide)
      have hopen : IsNested ['('] 0 := Brackets.isNested_singleton (by decide)
      have hclose : IsNested [')'] 0 := Brackets.isNested_singleton (by decide)
      have hcall := (((((hname.append_flat (Brackets.isNested_of_blank hw₁)).append_flat
        hopen).append_flat (Brackets.isNested_of_blank hw₂)).append_flat
        ht.isNested).append_flat (Brackets.isNested_of_blank hw₃)).append_flat hclose
      simpa only [List.append_assoc, List.cons_append, List.nil_append] using hcall

theorem Scalar.isNested {v : Value} (h : Scalar t v) : IsNested t 0 := by
  cases h with
  | null => exact Brackets.isNested_of_word (by decide)
  | yes => exact Brackets.isNested_of_word (by decide)
  | no => exact Brackets.isNested_of_word (by decide)
  | string ht => exact ht.isNested
  | number ht => exact ht.isNested
  | identifier ht => exact ht.isNested
  | construction hw _ ht =>
      have hnew : IsNested "new".toList 0 := Brackets.isNested_of_word (by decide)
      exact (hnew.append_flat (Brackets.isNested_of_blank hw)).append_flat ht.isNested

/-- White space around a text does not nest it deeper. -/
theorem isNested_padded {w₁ w₂ : List Char} (hw₁ : isBlank w₁ = true) (ht : IsNested t n)
    (hw₂ : isBlank w₂ = true) : IsNested (w₁ ++ t ++ w₂) n :=
  ((Brackets.isNested_of_blank hw₁).flat_append ht).append_flat (Brackets.isNested_of_blank hw₂)

/-- An item and the comma after it. -/
theorem isNested_before_comma {w₁ w₂ : List Char} (hw₁ : isBlank w₁ = true)
    (ht : IsNested t n) (hw₂ : isBlank w₂ = true) : IsNested (w₁ ++ t ++ w₂ ++ [',']) n :=
  (isNested_padded hw₁ ht hw₂).append_flat (Brackets.isNested_singleton (by decide))

theorem Separated.isNested {as : List α} (hitem : ∀ t a n, Item t a n → IsNested t n)
    (h : Separated Item t as n) : IsNested t n := by
  induction h with
  | last hw₁ ha hw₂ => exact isNested_padded hw₁ (hitem _ _ _ ha) hw₂
  | @more w₁ t w₂ ts a as n m hw₁ ha hw₂ _ ih =>
      have hall := (isNested_before_comma hw₁ (hitem _ _ _ ha) hw₂).append ih
      simpa using hall

/-- What stands before the value of a field. -/
theorem isNested_before_value {k w₁ w₂ : List Char} {key : String} (hk : KeyToken k key)
    (hw₁ : isBlank w₁ = true) (hw₂ : isBlank w₂ = true) :
    IsNested (k ++ w₁ ++ ':' :: w₂) 0 := by
  have hcolon : IsNested [':'] 0 := Brackets.isNested_singleton (by decide)
  exact (hk.isNested.append_flat (Brackets.isNested_of_blank hw₁)).append_flat
    (hcolon.append_flat (Brackets.isNested_of_blank hw₂))

theorem Field.isNested {Item : List Char → Value → Nat → Prop} {p : String × Value}
    (hitem : ∀ t v n, Item t v n → IsNested t n) (h : Field Item t p n) : IsNested t n := by
  cases h with
  | field hk hw₁ hw₂ hv => exact (isNested_before_value hk hw₁ hw₂).flat_append (hitem _ _ _ hv)

/-- The nesting that the grammar gives a literal is that of its text. -/
theorem Denotes.isNested {v : Value} (h : Denotes t v n) : IsNested t n := by
  refine Denotes.induction (P := fun t _ n => IsNested t n) ?_ ?_ ?_ ?_ ?_ h
  · intro t v ht
    exact ht.isNested
  · intro w hw
    exact (Brackets.isNested_of_blank hw).enclosed (by decide) (by decide)
  · intro t vs n hvs
    exact (hvs.isNested fun t v n hv => hv.2).enclosed (by decide) (by decide)
  · intro w hw
    exact (Brackets.isNested_of_blank hw).enclosed (by decide) (by decide)
  · intro t pairs n hpairs
    have hinside := hpairs.isNested fun t p n hp => hp.isNested fun t v n hv => hv.2
    exact hinside.enclosed (by decide) (by decide)

theorem Denotes.nesting_eq {v : Value} (h : Denotes t v n) : Brackets.nesting t = n :=
  (h.isNested 0).2.trans (Nat.zero_add n)

/-! ## A literal is refused where it finds no room -/

/-- The fault of a bracket that finds no room, before the rest of the text. -/
def tooDeepAt (rest : List Char) : Fault :=
  ⟨.tooDeep maxDepth, rest⟩

/-- What the grammar nests deeper than the reader has room for, the reader refuses after the
first bracket that finds no room, whatever white space stands before the text and whatever
follows it. -/
def Refuses (reader : Reader α) (Item : List Char → α → Nat → Prop) (room : Nat) : Prop :=
  ∀ t a n, Item t a n → room < n → ∃ r, Exceeds room t r ∧
    ∀ w rest, isBlank w = true → IsEnd rest →
      outcome (reader (w ++ t ++ rest)) = .error (tooDeepAt (r ++ rest))

theorem Refuses.items (hrefuses : Refuses reader Item room) (hcomplete : Complete reader Item room)
    (hnested : ∀ t a n, Item t a n → IsNested t n)
    (hstart : ∀ t a n, Item t a n → ∃ c more, t = c :: more ∧ isStart c = true)
    (container : Container) {xs : List α} (h : Separated Item t xs n) (hn : room < n) :
    ∃ r, Exceeds room t r ∧ ∀ rest,
      outcome (Reader.items container reader (t ++ container.closing :: rest)) =
        .error (tooDeepAt (r ++ container.closing :: rest)) := by
  induction h with
  | @last w₁ t w₂ a n hw₁ ha hw₂ =>
      obtain ⟨r, hexceeds, herror⟩ := hrefuses t a n ha hn
      refine ⟨r ++ w₂, ?_, fun rest => ?_⟩
      · rw [List.append_assoc]
        exact (hexceeds.append w₂).after (Brackets.isNested_of_blank hw₁) (Nat.zero_le room)
      · have hend : IsEnd (w₂ ++ container.closing :: rest) :=
          isEnd_blank_append hw₂ (isEnd_closing container)
        rw [List.append_assoc, List.append_assoc r]
        exact Reader.outcome_items_of_error (herror w₁ _ hw₁ hend)
  | @more w₁ t w₂ ts a as n m hw₁ ha hw₂ has ih =>
      by_cases hfirst : room < n
      · obtain ⟨r, hexceeds, herror⟩ := hrefuses t a n ha hfirst
        refine ⟨r ++ (w₂ ++ ',' :: ts), ?_, fun rest => ?_⟩
        · rw [List.append_assoc, List.append_assoc]
          exact (hexceeds.append _).after (Brackets.isNested_of_blank hw₁) (Nat.zero_le room)
        · have hend : IsEnd (w₂ ++ ',' :: (ts ++ container.closing :: rest)) :=
            isEnd_blank_append hw₂ (isEnd_cons (by decide) (by decide))
          have hsplit : r ++ (w₂ ++ ',' :: ts) ++ container.closing :: rest =
              r ++ (w₂ ++ ',' :: (ts ++ container.closing :: rest)) := by simp
          rw [append_more, hsplit]
          exact Reader.outcome_items_of_error (herror w₁ _ hw₁ hend)
      · -- The first item is read to its comma, so what is refused is among the items after it.
        have hle : n ≤ room := Nat.le_of_not_lt hfirst
        obtain ⟨r, hexceeds, herror⟩ := ih (by omega)
        refine ⟨r, ?_, fun rest => ?_⟩
        · have hafter := hexceeds.after (isNested_before_comma hw₁ (hnested t a n ha) hw₂) hle
          simpa using hafter
        · have hend : IsEnd (',' :: (ts ++ container.closing :: rest)) :=
            isEnd_cons (by decide) (by decide)
          have hitem := hcomplete t a n ha hle w₁ _ hw₁ (isEnd_blank_append hw₂ hend)
          have hcomma : Text.trimStart (w₂ ++ ',' :: (ts ++ container.closing :: rest)) =
              ',' :: (ts ++ container.closing :: rest) := by
            rw [Text.trimStart_append_of_blank hw₂, Text.trimStart_cons_of_not_space (by decide)]
          rw [append_more]
          exact Reader.outcome_items_of_more hitem hcomma
            (has.head?_trimStart_ne hstart container) (herror rest)

theorem Refuses.contents (hrefuses : Refuses reader Item room)
    (hcomplete : Complete reader Item room) (hnested : ∀ t a n, Item t a n → IsNested t n)
    (hstart : ∀ t a n, Item t a n → ∃ c more, t = c :: more ∧ isStart c = true)
    (container : Container) {xs : List α} (h : Separated Item t xs n) (hn : room < n) :
    ∃ r, Exceeds room t r ∧ ∀ rest,
      outcome (Reader.contents container reader (t ++ container.closing :: rest)) =
        .error (tooDeepAt (r ++ container.closing :: rest)) := by
  obtain ⟨r, hexceeds, herror⟩ := hrefuses.items hcomplete hnested hstart container h hn
  refine ⟨r, hexceeds, fun rest => ?_⟩
  rw [Reader.outcome_contents_of_items (h.head?_trimStart_ne hstart container), herror]

theorem Refuses.field {reader : Reader Value} {Item : List Char → Value → Nat → Prop}
    (hrefuses : Refuses reader Item room) : Refuses (field reader) (Field Item) room := by
  intro t p n h hn
  cases h with
  | @field k w₁ w₂ t key v n hk hw₁ hw₂ hv =>
      obtain ⟨r, hexceeds, herror⟩ := hrefuses t v n hv hn
      refine ⟨r, hexceeds.after (isNested_before_value hk hw₁ hw₂) (Nat.zero_le room), ?_⟩
      intro w rest hw hrest
      have hcolon : IsEnd (':' :: (w₂ ++ t ++ rest)) := isEnd_cons (by decide) (by decide)
      have hkey := hk.read hw (isEnd_blank_append hw₁ hcolon)
      rw [append_field]
      refine outcome_field_of_error hkey ?_ (herror w₂ rest hw₂ hrest)
      rw [Text.trimStart_append_of_blank hw₁, Text.trimStart_cons_of_not_space (by decide)]

/-- With so much room the text is refused at the bracket before `r`, which finds none. -/
def RefusedAt (room : Nat) (t r : List Char) : Prop :=
  Exceeds room t r ∧ ∀ w rest, isBlank w = true → IsEnd rest →
    outcome (value room (w ++ t ++ rest)) = .error (tooDeepAt (r ++ rest))

/-- The text is refused with any room for less than its nesting. -/
def IsRefused (t : List Char) (n : Nat) : Prop :=
  ∀ room < n, ∃ r, RefusedAt room t r

theorem refuses_of_isRefused (room : Nat) :
    Refuses (value room) (fun t v n => Denotes t v n ∧ IsRefused t n) room :=
  fun _ _ _ hv hn => hv.2 room hn

theorem complete_of_isRefused (room : Nat) :
    Complete (value room) (fun t v n => Denotes t v n ∧ IsRefused t n) room :=
  fun t v n hv => complete_value room t v n hv.1

theorem refusedAt_array_zero (t : List Char) : RefusedAt 0 ('[' :: t ++ [']']) (t ++ [']']) := by
  refine ⟨Brackets.exceeds_zero (by decide), fun w rest hw _ => ?_⟩
  rw [outcome_value_array_zero hw, List.append_assoc, List.singleton_append]
  rfl

theorem refusedAt_object_zero (t : List Char) : RefusedAt 0 ('{' :: t ++ ['}']) (t ++ ['}']) := by
  refine ⟨Brackets.exceeds_zero (by decide), fun w rest hw _ => ?_⟩
  rw [outcome_value_object_zero hw, List.append_assoc, List.singleton_append]
  rfl

theorem refusedAt_array {r : List Char} (hexceeds : Exceeds room t r)
    (herror : ∀ rest, outcome (Reader.contents .array (value room) (t ++ ']' :: rest)) =
      .error (tooDeepAt (r ++ ']' :: rest))) :
    RefusedAt (room + 1) ('[' :: t ++ [']']) (r ++ [']']) := by
  refine ⟨(hexceeds.append [']']).opening (by decide), fun w rest hw _ => ?_⟩
  rw [outcome_value_array hw, herror, List.append_assoc, List.singleton_append]
  rfl

theorem refusedAt_object {r : List Char} (hexceeds : Exceeds room t r)
    (herror : ∀ rest, outcome (Reader.contents .object (field (value room)) (t ++ '}' :: rest)) =
      .error (tooDeepAt (r ++ '}' :: rest))) :
    RefusedAt (room + 1) ('{' :: t ++ ['}']) (r ++ ['}']) := by
  refine ⟨(hexceeds.append ['}']).opening (by decide), fun w rest hw _ => ?_⟩
  rw [outcome_value_object hw, herror, List.append_assoc, List.singleton_append]
  rfl

/-- A literal is refused where its brackets first find no room. -/
theorem Denotes.isRefused {v : Value} (h : Denotes t v n) : IsRefused t n := by
  -- A container takes a level of the room, and what is refused inside it has one less.
  refine Denotes.induction (P := fun t _ n => IsRefused t n) ?_ ?_ ?_ ?_ ?_ h
  · intro t v _ room hroom
    exact absurd hroom (Nat.not_lt_zero room)
  · intro w _ room hroom
    obtain rfl : room = 0 := by omega
    exact ⟨_, refusedAt_array_zero w⟩
  · intro t vs n hvs room hroom
    cases room with
    | zero => exact ⟨_, refusedAt_array_zero t⟩
    | succ room =>
        obtain ⟨r, hexceeds, herror⟩ := (refuses_of_isRefused room).contents
          (complete_of_isRefused room) (fun t v n hv => hv.1.isNested)
          (fun t v n hv => hv.1.isFramed.1) .array hvs (by omega)
        exact ⟨_, refusedAt_array hexceeds herror⟩
  · intro w _ room hroom
    obtain rfl : room = 0 := by omega
    exact ⟨_, refusedAt_object_zero w⟩
  · intro t pairs n hpairs room hroom
    cases room with
    | zero => exact ⟨_, refusedAt_object_zero t⟩
    | succ room =>
        obtain ⟨r, hexceeds, herror⟩ := (refuses_of_isRefused room).field.contents
          (complete_of_isRefused room).field
          (fun t p n hp => hp.isNested fun t v n hv => hv.1.isNested)
          (fun t p n hp => hp.exists_cons) .object hpairs (by omega)
        exact ⟨_, refusedAt_object hexceeds herror⟩

/-! ## Whole texts -/

/-- The text is blank and stands for the empty object, or it is a literal for the value, nested
however deep, with white space at both ends. -/
def DerivesAnyDepth (text : List Char) (v : Value) : Prop :=
  (isBlank text = true ∧ v = .empty) ∨
    ∃ w₁ t w₂ n, isBlank w₁ = true ∧ isBlank w₂ = true ∧ text = w₁ ++ t ++ w₂ ∧ Denotes t v n

/-- The texts of any depth are those that are read with some room. -/
theorem derivesAnyDepth_iff {text : List Char} {v : Value} :
    DerivesAnyDepth text v ↔ (isBlank text = true ∧ v = .empty) ∨
      ∃ room rest, outcome (value room text) = .ok (v, rest) ∧ isBlank rest = true := by
  refine or_congr_right ?_
  constructor
  · rintro ⟨w₁, t, w₂, n, hw₁, hw₂, rfl, ht⟩
    exact ⟨n, w₂, complete_value n t v n ht le_rfl w₁ w₂ hw₁ (isEnd_of_blank hw₂), hw₂⟩
  · rintro ⟨room, rest, hvalue, hrest⟩
    obtain ⟨w, t, n, hw, rfl, ht, -⟩ := sound_value room text v rest hvalue
    exact ⟨w, t, rest, n, hw, hrest, rfl, ht⟩

/-- A literal is read if its brackets are nested 128 deep at most, however many of them stand
side by side. Otherwise it is refused, right after the first bracket with 128 unclosed ones
before it. -/
theorem parse_by_nesting {text : String} {v : Value} (h : DerivesAnyDepth text.toList v) :
    (Brackets.nesting text.toList ≤ 128 → parse text = .ok v) ∧
      (128 < Brackets.nesting text.toList →
        ∃ front rest error, Brackets.FirstOpensAt 128 text.toList front rest ∧
          parse text = .error error ∧
          error.reason.message = "nesting deeper than 128 levels" ∧
          error.offset = some (Text.size front + 1)) := by
  rcases h with ⟨hblank, rfl⟩ | ⟨w₁, t, w₂, n, hw₁, hw₂, htext, ht⟩
  · have hnesting : Brackets.nesting text.toList = 0 :=
      (Brackets.isNested_of_blank hblank 0).2
    refine ⟨fun _ => parse_of_blank hblank, fun hdeep => ?_⟩
    omega
  · have hnesting : Brackets.nesting text.toList = n := by
      rw [htext, Brackets.nesting, (isNested_padded hw₁ ht.isNested hw₂ 0).2, Nat.zero_add]
    have hblank : isBlank text.toList = false := by
      simp [htext, Text.isBlank_append, ht.isFramed.isSolid.not_blank]
    rw [hnesting]
    constructor
    · intro hn
      rw [parse_of_not_blank hblank]
      exact ⟨w₁, t, w₂, n, hw₁, hw₂, htext, ht, hn⟩
    · intro hn
      obtain ⟨r, hexceeds, herror⟩ := ht.isRefused 128 hn
      have hvalue := herror w₁ w₂ hw₁ (isEnd_of_blank hw₂)
      rw [← htext] at hvalue
      have hall : Exceeds 128 text.toList (r ++ w₂) := by
        rw [htext, List.append_assoc]
        exact (hexceeds.append w₂).after (Brackets.isNested_of_blank hw₁) (Nat.zero_le 128)
      obtain ⟨front, hfirst⟩ := hall.firstOpensAt
      refine ⟨front, r ++ w₂, _, hfirst, parse_of_fault hblank hvalue, rfl, ?_⟩
      -- The bracket takes one byte.
      obtain ⟨⟨c, hc, hsplit⟩, -⟩ := hfirst.1
      have hfront : text.toList = front ++ [c] ++ (r ++ w₂) := by simp [hsplit]
      have hoffset : Text.offsetOf text.toList (r ++ w₂) = Text.size front + 1 := by
        rw [hfront, Text.offsetOf_append, Text.size_append, Text.size_cons, Text.size_nil,
          Brackets.utf8Size_of_isOpening hc]
      exact congrArg some hoffset

/-- One hundred and thirty objects side by side; and 129 levels, after brackets that are closed,
those in a string and those of an identifier. -/
theorem parse_by_nesting_wide_and_deep :
    (∃ (text : String) (v : Value), DerivesAnyDepth text.toList v ∧
        Brackets.nesting text.toList = 2 ∧ parse text = .ok v) ∧
      ∃ (text : String) (v : Value), DerivesAnyDepth text.toList v ∧
        Brackets.nesting text.toList = 129 ∧
        ∃ front rest error, Brackets.FirstOpensAt 128 text.toList front rest ∧
          parse text = .error error ∧
          error.reason.message = "nesting deeper than 128 levels" ∧
          error.offset = some (Text.size front + 1) := by
  have hread : ∀ cs n, Brackets.nesting cs = n →
      (outcome (value n cs)).toOption.map Prod.snd = some [] →
        ∃ (text : String) (v : Value), DerivesAnyDepth text.toList v ∧
          Brackets.nesting text.toList = n := by
    intro cs n hnesting hcs
    obtain ⟨⟨v, rest⟩, hvalue, rfl⟩ := Except.exists_of_toOption_map hcs
    refine ⟨String.ofList cs, v, ?_, ?_⟩
    · rw [String.toList_ofList]
      exact derivesAnyDepth_iff.mpr (.inr ⟨n, [], hvalue, rfl⟩)
    · rw [String.toList_ofList, hnesting]
  constructor
  · obtain ⟨text, v, hv, hnesting⟩ := hread
      ("[".toList ++ (List.replicate 130 "\x7b\x7d,".toList).flatten ++ "[] ]".toList) 2
      (by decide +kernel) (by decide +kernel)
    exact ⟨text, v, hv, hnesting, (parse_by_nesting hv).1 (by omega)⟩
  · obtain ⟨text, v, hv, hnesting⟩ := hread
      ("[[], \"é[\\\"[\", ObjectId('559d3e5b8152eefd4e9bed45'), \x7ba: ".toList ++
        List.replicate 127 '[' ++ List.replicate 127 ']' ++ "\x7d]".toList) 129
      (by decide +kernel) (by decide +kernel)
    exact ⟨text, v, hv, hnesting, (parse_by_nesting hv).2 (by omega)⟩

end Literal

end DocShell
