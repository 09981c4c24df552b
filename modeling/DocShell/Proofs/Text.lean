import DocShell.Text.Basic
import Mathlib.Data.List.TakeWhile
import Mathlib.Tactic

set_option autoImplicit false

/-! # White space and trimming

Every text is white space, a part that begins and ends with other characters, and white space
again. `trimStart` and `trim` find that part: the statements below say so in both directions,
and nothing else about the two functions is needed elsewhere. A place of a text is told in bytes;
`IsBoundary` says that a character begins there, or that the text ends.
-/

namespace DocShell.Text

/-! ## Blank texts -/

@[simp] theorem isBlank_nil : isBlank [] = true := rfl

@[simp] theorem isBlank_cons (c : Char) (cs : List Char) :
    isBlank (c :: cs) = (isSpace c && isBlank cs) := rfl

@[simp] theorem isBlank_append (cs ds : List Char) :
    isBlank (cs ++ ds) = (isBlank cs && isBlank ds) := by
  simp [isBlank, List.all_append]

theorem isBlank_iff {cs : List Char} : isBlank cs = true ↔ ∀ c ∈ cs, isSpace c = true := by
  simp [isBlank]

/-! ## White space at the beginning -/

theorem trimStart_append_of_blank {w : List Char} (hw : isBlank w = true) (cs : List Char) :
    trimStart (w ++ cs) = trimStart cs :=
  List.dropWhile_append_of_pos (isBlank_iff.mp hw)

theorem trimStart_cons_of_not_space {c : Char} (hc : isSpace c = false) (cs : List Char) :
    trimStart (c :: cs) = c :: cs := by
  simp [trimStart, hc]

/-- What `trimStart` leaves out is white space. -/
theorem exists_trimStart (cs : List Char) :
    ∃ w, isBlank w = true ∧ cs = w ++ trimStart cs :=
  ⟨cs.takeWhile isSpace, List.all_takeWhile, List.takeWhile_append_dropWhile.symm⟩

theorem trimStart_eq_nil_iff {cs : List Char} : trimStart cs = [] ↔ isBlank cs = true := by
  simp [trimStart, isBlank, List.dropWhile_eq_nil_iff]

/-- What `trimStart` leaves begins with the first character that is no white space. -/
theorem trimStart_eq_cons_iff {cs rest : List Char} {c : Char} :
    trimStart cs = c :: rest ↔
      isSpace c = false ∧ ∃ w, isBlank w = true ∧ cs = w ++ c :: rest := by
  constructor
  · intro h
    obtain ⟨w, hw, hcs⟩ := exists_trimStart cs
    rw [h] at hcs
    refine ⟨?_, w, hw, hcs⟩
    have hne : trimStart cs ≠ [] := by simp [h]
    have hhead := List.head_dropWhile_not isSpace hne
    have hc : (trimStart cs).head hne = c := by simp [h]
    exact hc ▸ hhead
  · rintro ⟨hc, w, hw, rfl⟩
    rw [trimStart_append_of_blank hw, trimStart_cons_of_not_space hc]

/-! ## White space on both sides -/

/-- A text that begins and ends with something else than white space. -/
def IsSolid (cs : List Char) : Prop :=
  (∃ c rest, cs = c :: rest ∧ isSpace c = false) ∧
    ∃ front c, cs = front ++ [c] ∧ isSpace c = false

theorem IsSolid.not_blank {cs : List Char} (h : IsSolid cs) : isBlank cs = false := by
  obtain ⟨⟨c, rest, rfl, hc⟩, -⟩ := h
  simp [hc]

theorem trimEnd_append_of_blank {w : List Char} (hw : isBlank w = true) (cs : List Char) :
    trimEnd (cs ++ w) = trimEnd cs := by
  have hrev : ∀ c ∈ w.reverse, isSpace c = true :=
    fun c hc => isBlank_iff.mp hw c (List.mem_reverse.mp hc)
  rw [trimEnd, List.reverse_append, List.dropWhile_append_of_pos hrev, trimEnd]

theorem trimEnd_of_last {front : List Char} {c : Char} (hc : isSpace c = false) :
    trimEnd (front ++ [c]) = front ++ [c] := by
  simp [trimEnd, hc]

/-- What `trimEnd` leaves out is white space. -/
theorem exists_trimEnd (cs : List Char) :
    ∃ w, isBlank w = true ∧ cs = trimEnd cs ++ w := by
  refine ⟨(cs.reverse.takeWhile isSpace).reverse, ?_, ?_⟩
  · rw [isBlank, List.all_reverse]
    exact List.all_takeWhile
  · rw [trimEnd, ← List.reverse_append, List.takeWhile_append_dropWhile, List.reverse_reverse]

theorem trimStart_append_append {w t : List Char} (hw : isBlank w = true) (ht : IsSolid t)
    (cs : List Char) : trimStart (w ++ t ++ cs) = t ++ cs := by
  obtain ⟨⟨c, rest, rfl, hc⟩, -⟩ := ht
  rw [List.append_assoc, trimStart_append_of_blank hw, List.cons_append,
    trimStart_cons_of_not_space hc]

/-- A solid text begins where the white space before it ends. -/
theorem offsetOf_trimStart {w t : List Char} (hw : isBlank w = true) (ht : IsSolid t)
    (cs : List Char) : offsetOf (w ++ t ++ cs) (trimStart (w ++ t ++ cs)) = size w := by
  rw [trimStart_append_append hw ht, List.append_assoc, offsetOf_append]

/-- White space around a solid text is what `trim` leaves out. -/
theorem trim_append_append {w₁ t w₂ : List Char} (h₁ : isBlank w₁ = true) (ht : IsSolid t)
    (h₂ : isBlank w₂ = true) : trim (w₁ ++ t ++ w₂) = t := by
  obtain ⟨front, d, hend, hd⟩ := ht.2
  rw [trim, trimStart_append_append h₁ ht, trimEnd_append_of_blank h₂, hend, trimEnd_of_last hd]

/-- What `trim` leaves out is white space on both sides. -/
theorem exists_trim (cs : List Char) :
    ∃ w₁ w₂, isBlank w₁ = true ∧ isBlank w₂ = true ∧ cs = w₁ ++ trim cs ++ w₂ := by
  obtain ⟨w₁, h₁, hstart⟩ := exists_trimStart cs
  obtain ⟨w₂, h₂, hend⟩ := exists_trimEnd (trimStart cs)
  refine ⟨w₁, w₂, h₁, h₂, ?_⟩
  rw [List.append_assoc, trim, ← hend, ← hstart]

/-- A text that is not blank is trimmed to a solid one. -/
theorem isSolid_trim {cs : List Char} (h : isBlank cs = false) : IsSolid (trim cs) := by
  obtain ⟨w₁, h₁, hstart⟩ := exists_trimStart cs
  have hne : trimStart cs ≠ [] := by
    intro hnil
    rw [trimStart_eq_nil_iff.mp hnil] at h
    contradiction
  obtain ⟨c, rest, hc⟩ := List.exists_cons_of_ne_nil hne
  have hspace : isSpace c = false := (trimStart_eq_cons_iff.mp hc).1
  -- The last character that is no white space is found from the other end in the same way.
  have hrev : trimStart (c :: rest).reverse ≠ [] := by
    intro hnil
    have hblank := isBlank_iff.mp (trimStart_eq_nil_iff.mp hnil) c (by simp)
    rw [hspace] at hblank
    contradiction
  obtain ⟨d, front, hd⟩ := List.exists_cons_of_ne_nil hrev
  obtain ⟨hdspace, w, hw, hfront⟩ := trimStart_eq_cons_iff.mp hd
  have htrim : trim cs = front.reverse ++ [d] := by
    rw [trim, hc, trimEnd]
    show (trimStart (c :: rest).reverse).reverse = _
    rw [hd, List.reverse_cons]
  have hall : c :: rest = front.reverse ++ [d] ++ w.reverse := by
    have := congrArg List.reverse hfront
    simpa using this
  refine ⟨?_, front.reverse, d, htrim, hdspace⟩
  rw [htrim]
  cases hf : front.reverse with
  | nil => exact ⟨d, [], rfl, hdspace⟩
  | cons e more =>
      rw [hf] at hall
      simp only [List.cons_append, List.cons.injEq] at hall
      exact ⟨e, more ++ [d], rfl, hall.1 ▸ hspace⟩

/-! ## Places of a text -/

variable {cs rest source : List Char}

/-- A place between two characters of the text, or at one of its ends, counted in bytes. -/
def IsBoundary (source : List Char) (n : Nat) : Prop :=
  ∃ before after, source = before ++ after ∧ n = size before

theorem isBoundary_append (before after : List Char) : IsBoundary (before ++ after) (size before) :=
  ⟨before, after, rfl, rfl⟩

theorem IsBoundary.le_size {n : Nat} (h : IsBoundary source n) : n ≤ size source := by
  obtain ⟨before, after, rfl, rfl⟩ := h
  rw [size_append]
  omega

theorem IsBoundary.append {n : Nat} (h : IsBoundary source n) (after : List Char) :
    IsBoundary (source ++ after) n := by
  obtain ⟨front, back, rfl, rfl⟩ := h
  exact ⟨front, back ++ after, List.append_assoc front back after, rfl⟩

/-- A place of a part is a place of the whole. -/
theorem IsBoundary.shifted {n : Nat} (h : IsBoundary source n) (before after : List Char) :
    IsBoundary (before ++ source ++ after) (n + size before) := by
  obtain ⟨front, back, rfl, rfl⟩ := h
  refine ⟨before ++ front, back ++ after, by simp, ?_⟩
  rw [size_append]
  omega

/-- A tail begins at a place of the text. -/
theorem isBoundary_offsetOf (h : rest <:+ source) : IsBoundary source (offsetOf source rest) := by
  obtain ⟨before, rfl⟩ := h
  rw [offsetOf_append]
  exact isBoundary_append before rest

theorem trimStart_suffix (cs : List Char) : trimStart cs <:+ cs :=
  List.dropWhile_suffix _

theorem cons_suffix_of_trimStart {c : Char} (h : trimStart cs = c :: rest) : c :: rest <:+ cs :=
  h ▸ trimStart_suffix cs

theorem suffix_of_trimStart {c : Char} (h : trimStart cs = c :: rest) : rest <:+ cs :=
  (List.suffix_cons c rest).trans (cons_suffix_of_trimStart h)

/-! ## Parts with a mark between them -/

theorem intercalate_cons {mark : Char} {part : List Char} {parts : List (List Char)}
    (h : parts ≠ []) :
    List.intercalate [mark] (part :: parts) = part ++ mark :: List.intercalate [mark] parts := by
  obtain ⟨next, parts, rfl⟩ := List.exists_cons_of_ne_nil h
  rw [List.intercalate_cons_cons, List.append_assoc, List.singleton_append]

theorem intercalate_concat {mark : Char} {parts : List (List Char)} (h : parts ≠ [])
    (part : List Char) :
    List.intercalate [mark] (parts ++ [part]) = List.intercalate [mark] parts ++ mark :: part := by
  induction parts with
  | nil => contradiction
  | cons first parts ih =>
      by_cases hparts : parts = []
      · rw [hparts, List.singleton_append, intercalate_cons (by simp), List.intercalate_singleton,
          List.intercalate_singleton]
      · rw [List.cons_append, intercalate_cons (by simp), ih hparts, intercalate_cons hparts,
          List.append_assoc, List.cons_append]

theorem mem_intercalate {mark c : Char} {parts : List (List Char)}
    (h : c ∈ List.intercalate [mark] parts) : c = mark ∨ ∃ part ∈ parts, c ∈ part := by
  induction parts with
  | nil => contradiction
  | cons part parts ih =>
      by_cases hparts : parts = []
      · rw [hparts, List.intercalate_singleton] at h
        exact .inr ⟨part, List.mem_cons_self .., h⟩
      · rw [intercalate_cons hparts, List.mem_append, List.mem_cons] at h
        rcases h with h | h | h
        · exact .inr ⟨part, List.mem_cons_self .., h⟩
        · exact .inl h
        · rcases ih h with h | ⟨p, hp, h⟩
          · exact .inl h
          · exact .inr ⟨p, List.mem_cons_of_mem part hp, h⟩

/-- Two marks of a text are the same one, or one of them stands before the other. -/
theorem append_cons_cases {mark : Char} {t₁ t₂ u₁ u₂ : List Char}
    (h : t₁ ++ mark :: t₂ = u₁ ++ mark :: u₂) :
    (t₁ = u₁ ∧ t₂ = u₂) ∨ (∃ a, u₁ = t₁ ++ mark :: a ∧ t₂ = a ++ mark :: u₂) ∨
      ∃ a, t₁ = u₁ ++ mark :: a ∧ u₂ = a ++ mark :: t₂ := by
  rcases List.append_eq_append_iff.mp h with ⟨a, hu₁, hrest⟩ | ⟨a, ht₁, hrest⟩
  · cases a with
    | nil => exact .inl ⟨by simpa using hu₁.symm, (List.cons.inj hrest).2⟩
    | cons c a =>
        obtain ⟨rfl, ht₂⟩ := List.cons.inj hrest
        exact .inr (.inl ⟨a, hu₁, ht₂⟩)
  · cases a with
    | nil => exact .inl ⟨by simpa using ht₁, (List.cons.inj hrest).2.symm⟩
    | cons c a =>
        obtain ⟨rfl, hu₂⟩ := List.cons.inj hrest
        exact .inr (.inr ⟨a, ht₁, hu₂⟩)

/-! ## The first and the last character that is not of a kind -/

theorem bne_of_not_mem {mark : Char} {cs : List Char} (h : mark ∉ cs) :
    ∀ c ∈ cs, (c != mark) = true := by
  intro c hc
  rw [bne_iff_ne]
  rintro rfl
  exact h hc

/-- The first character that is not of a kind stands at one place only. -/
theorem append_cons_inj_of_front {p : Char → Bool} {front₁ front₂ rest₁ rest₂ : List Char}
    {c₁ c₂ : Char} (h₁ : ∀ c ∈ front₁, p c = true) (hc₁ : p c₁ = false)
    (h₂ : ∀ c ∈ front₂, p c = true) (hc₂ : p c₂ = false)
    (h : front₁ ++ c₁ :: rest₁ = front₂ ++ c₂ :: rest₂) :
    front₁ = front₂ ∧ c₁ = c₂ ∧ rest₁ = rest₂ := by
  have hfront : front₁ = front₂ := by
    have htake := congrArg (List.takeWhile p) h
    rw [List.takeWhile_append_of_pos h₁, List.takeWhile_append_of_pos h₂] at htake
    simpa [hc₁, hc₂] using htake
  subst hfront
  exact ⟨rfl, List.cons.inj (List.append_cancel_left h)⟩

/-- The last character that is not of a kind stands at one place only. -/
theorem append_cons_inj_of_back {p : Char → Bool} {front₁ front₂ rest₁ rest₂ : List Char}
    {c₁ c₂ : Char} (h₁ : ∀ c ∈ rest₁, p c = true) (hc₁ : p c₁ = false)
    (h₂ : ∀ c ∈ rest₂, p c = true) (hc₂ : p c₂ = false)
    (h : front₁ ++ c₁ :: rest₁ = front₂ ++ c₂ :: rest₂) :
    front₁ = front₂ ∧ c₁ = c₂ ∧ rest₁ = rest₂ := by
  have hreverse :
      rest₁.reverse ++ c₁ :: front₁.reverse = rest₂.reverse ++ c₂ :: front₂.reverse := by
    simpa using congrArg List.reverse h
  obtain ⟨hrest, hc, hfront⟩ := append_cons_inj_of_front
    (fun c hc => h₁ c (List.mem_reverse.mp hc)) hc₁ (fun c hc => h₂ c (List.mem_reverse.mp hc)) hc₂
    hreverse
  exact ⟨List.reverse_injective hfront, hc, List.reverse_injective hrest⟩

/-! ## Character classes -/

/-- White space is below the visible ASCII characters or beyond ASCII. -/
theorem toNat_of_isSpace {c : Char} (h : isSpace c = true) :
    c.toNat ≤ 32 ∨ 0x85 ≤ c.toNat := by
  simp only [isSpace, Bool.or_eq_true, beq_iff_eq, Bool.and_eq_true, decide_eq_true_eq,
    Ranges.covers_iff] at h
  rcases h with (rfl | h) | ⟨r, hr, hfirst, -⟩
  · exact .inl (by decide)
  · exact .inl (by omega)
  · right
    have hall : ∀ r ∈ spaceRanges, 0x85 ≤ r.1 := by decide
    exact Nat.le_trans (hall r hr) hfirst

theorem isSpace_eq_false {c : Char} (hlow : 32 < c.toNat) (hhigh : c.toNat < 0x85) :
    isSpace c = false := by
  rw [Bool.eq_false_iff]
  intro h
  have := toNat_of_isSpace h
  omega

theorem le_iff_toNat_le {c d : Char} : c ≤ d ↔ c.toNat ≤ d.toNat := by
  rw [Char.le_def, UInt32.le_iff_toNat_le]
  rfl

/-- Hexadecimal digits are visible ASCII characters. -/
theorem toNat_of_isHex {c : Char} (h : isHex c = true) : 0x30 ≤ c.toNat ∧ c.toNat ≤ 0x66 := by
  simp only [isHex, hexValue?, le_iff_toNat_le] at h
  split_ifs at h with hdigit hlower hupper
  · rw [Char.isDigit_iff_toNat] at hdigit
    simp at hdigit
    omega
  · simp at hlower
    omega
  · simp at hupper
    omega
  · contradiction

theorem utf8Size_of_isHex {c : Char} (h : isHex c = true) : c.utf8Size = 1 := by
  rw [Char.utf8Size_eq_one_iff, UInt32.le_iff_toNat_le]
  exact Nat.le_trans (toNat_of_isHex h).2 (by decide)

end DocShell.Text
