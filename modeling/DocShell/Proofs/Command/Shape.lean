import DocShell.Command.Shape
import DocShell.Proofs.Reading

set_option autoImplicit false

/-! # The texts that have the shape of a command

A text has the shape of a command if and only if it is `db`, the parts of a collection's name
and the name of a method with points between them, and an argument list in parentheses, with
white space around it and before the parentheses (`ofText_eq_ok_iff`). The names are found again in
the text since they hold no point, no parenthesis and no white space.
-/

namespace DocShell

/-! ## Pieces -/

namespace Text

variable {mark : Char}

theorem pieces_of_not_mem {cs : List Char} (h : mark ∉ cs) : pieces mark cs = [cs] := by
  induction cs with
  | nil => rfl
  | cons c cs ih =>
      rw [List.mem_cons, not_or] at h
      rw [pieces, if_neg (Ne.symm h.1), ih h.2]

theorem pieces_append {piece : List Char} (h : mark ∉ piece) (cs : List Char) :
    pieces mark (piece ++ mark :: cs) = piece :: pieces mark cs := by
  induction piece with
  | nil => rw [List.nil_append, pieces, if_pos rfl]
  | cons c piece ih =>
      rw [List.mem_cons, not_or] at h
      rw [List.cons_append, pieces, if_neg (Ne.symm h.1), ih h.2]

/-- Pieces without the mark are found again. -/
theorem pieces_intercalate {parts : List (List Char)} (hne : parts ≠ [])
    (h : ∀ part ∈ parts, mark ∉ part) : pieces mark (List.intercalate [mark] parts) = parts := by
  induction parts with
  | nil => contradiction
  | cons part parts ih =>
      have hpart : mark ∉ part := h part (List.mem_cons_self ..)
      by_cases hparts : parts = []
      · rw [hparts, List.intercalate_singleton, pieces_of_not_mem hpart]
      · have hrest := ih hparts fun p hp => h p (List.mem_cons_of_mem part hp)
        rw [intercalate_cons hparts, pieces_append hpart, hrest]

theorem pieces_ne_nil (mark : Char) (cs : List Char) : pieces mark cs ≠ [] := by
  cases cs with
  | nil => simp [pieces]
  | cons c cs =>
      rw [pieces]
      split_ifs
      · simp
      · split <;> simp

/-- The pieces make up the text. -/
theorem intercalate_pieces (cs : List Char) : List.intercalate [mark] (pieces mark cs) = cs := by
  induction cs with
  | nil => exact List.intercalate_singleton
  | cons c cs ih =>
      have hne := pieces_ne_nil mark cs
      rw [pieces]
      split_ifs with hc
      · rw [intercalate_cons hne, ih, hc, List.nil_append]
      -- The character goes to the first piece of the rest.
      · obtain ⟨piece, more, hpieces⟩ := List.exists_cons_of_ne_nil hne
        rw [hpieces] at ih
        rw [hpieces, ← ih]
        by_cases hmore : more = []
        · rw [hmore, List.intercalate_singleton, List.intercalate_singleton]
        · rw [intercalate_cons hmore, intercalate_cons hmore, List.cons_append]

/-- No white space is a word character. -/
theorem isSpace_of_isWord {c : Char} (h : isWord c = true) : isSpace c = false := by
  -- No range of the one table meets a range of the other.
  have hdisjoint : ∀ r ∈ wordRanges, 32 < r.1 ∧ ∀ q ∈ spaceRanges, r.2 < q.1 ∨ q.2 < r.1 := by
    decide +kernel
  simp only [isWord, Bool.or_eq_true, beq_iff_eq, Ranges.covers_iff] at h
  rcases h with (h | rfl) | ⟨r, hr, hfirst, hlast⟩
  · exact Word.isSpace_of_isWordChar (by simp [Word.isWordChar, h])
  · decide
  · obtain ⟨hlow, hranges⟩ := hdisjoint r hr
    rw [Bool.eq_false_iff]
    intro hspace
    simp only [isSpace, Bool.or_eq_true, beq_iff_eq, Bool.and_eq_true, decide_eq_true_eq,
      Ranges.covers_iff] at hspace
    rcases hspace with (rfl | hspace) | ⟨q, hq, hqfirst, hqlast⟩
    · have : (' ').toNat = 32 := rfl
      omega
    · omega
    · have := hranges q hq
      omega

end Text

namespace Shape

open Text (isBlank)

/-! ## Names -/

/-- A part of a collection's name: it begins with a letter, `_` or `$`, goes on with word
characters, `$` and hyphens, and does not end with a hyphen. -/
def IsPart (t : List Char) : Prop :=
  ∃ first more, t = first :: more ∧ isInitial first = true ∧
    (∀ c ∈ more, isNameChar c = true ∨ c = '-') ∧ t.getLast? ≠ some '-'

theorem isCollectionPart_iff {t : List Char} : isCollectionPart t = true ↔ IsPart t := by
  cases t with
  | nil => simp [isCollectionPart, IsPart]
  | cons first more =>
      have hlast : isInitial first = true →
          ((first :: more).getLast? ≠ some '-' ↔ more.getLast? ≠ some '-') := by
        intro hfirst
        cases more with
        | nil =>
            simp only [List.getLast?_singleton, List.getLast?_nil, ne_eq, Option.some.injEq,
              reduceCtorEq, not_false_eq_true, iff_true]
            rintro rfl
            exact absurd hfirst (by decide)
        | cons c more => rw [List.getLast?_cons_cons]
      simp only [isCollectionPart, IsPart, Bool.and_eq_true, List.all_eq_true, Bool.or_eq_true,
        beq_iff_eq, bne_iff_ne]
      constructor
      · rintro ⟨⟨hfirst, hmore⟩, hend⟩
        exact ⟨first, more, rfl, hfirst, hmore, (hlast hfirst).mpr hend⟩
      · rintro ⟨first', more', heq, hfirst, hmore, hend⟩
        obtain ⟨rfl, rfl⟩ := List.cons.inj heq
        exact ⟨⟨hfirst, hmore⟩, (hlast hfirst).mp hend⟩

theorem isNameChar_of_isInitial {c : Char} (h : isInitial c = true) : isNameChar c = true := by
  simp only [isInitial, Bool.or_eq_true, beq_iff_eq] at h
  rcases h with (h | rfl) | rfl
  · simp [isNameChar, Text.isWord, Char.isAlphanum, h]
  · simp [isNameChar, Text.isWord]
  · simp [isNameChar]

theorem isSpace_of_isNameChar {c : Char} (h : isNameChar c = true) : Text.isSpace c = false := by
  simp only [isNameChar, Bool.or_eq_true, beq_iff_eq] at h
  rcases h with h | rfl
  · exact Text.isSpace_of_isWord h
  · decide

/-- A part of a name holds nothing but name characters and hyphens. -/
theorem IsPart.not_mem {t : List Char} (h : IsPart t) {d : Char} (hd : isNameChar d = false)
    (hhyphen : d ≠ '-') : d ∉ t := by
  obtain ⟨first, more, rfl, hfirst, hmore, -⟩ := h
  intro hmem
  rcases List.mem_cons.mp hmem with rfl | hmem
  · exact Bool.false_ne_true (hd.symm.trans (isNameChar_of_isInitial hfirst))
  · rcases hmore d hmem with hname | hname
    · exact Bool.false_ne_true (hd.symm.trans hname)
    · exact hhyphen hname

theorem isNameChar_of_isMethodName {method : List Char} (h : isMethodName method = true) :
    ∀ c ∈ method, isNameChar c = true := by
  cases method with
  | nil => simp
  | cons first more =>
      simp only [isMethodName, Bool.and_eq_true, List.all_eq_true] at h
      intro c hc
      rcases List.mem_cons.mp hc with rfl | hc
      · exact isNameChar_of_isInitial h.1
      · exact h.2 c hc

theorem ne_nil_of_isMethodName {method : List Char} (h : isMethodName method = true) :
    method ≠ [] := by
  rintro rfl
  exact absurd h (by decide)

/-- The names of a command: `db`, the parts of the collection's name and the method. -/
def nameChars (parts : List (List Char)) (method : List Char) : List Char :=
  List.intercalate ['.'] ("db".toList :: (parts ++ [method]))

theorem pieces_nameChars {parts : List (List Char)} {method : List Char}
    (hparts : ∀ t ∈ parts, IsPart t) (hmethod : isMethodName method = true) :
    Text.pieces '.' (nameChars parts method) = "db".toList :: (parts ++ [method]) := by
  have hpoint : isNameChar '.' = false := by decide +kernel
  refine Text.pieces_intercalate (List.cons_ne_nil _ _) ?_
  intro t ht
  rcases List.mem_cons.mp ht with rfl | ht
  · decide
  · rcases List.mem_append.mp ht with ht | ht
    · exact (hparts t ht).not_mem hpoint (by decide)
    · intro hmem
      rw [List.mem_singleton.mp ht] at hmem
      exact Bool.false_ne_true (hpoint.symm.trans (isNameChar_of_isMethodName hmethod _ hmem))

theorem names?_eq_some_iff {front : List Char} {parts : List (List Char)} {method : List Char} :
    names? front = some (parts, method) ↔
      Text.trimEnd front = nameChars parts method ∧ parts ≠ [] ∧ (∀ t ∈ parts, IsPart t) ∧
        isMethodName method = true := by
  have hall : parts.all isCollectionPart = true ↔ ∀ t ∈ parts, IsPart t := by
    simp only [List.all_eq_true, isCollectionPart_iff]
  constructor
  · intro h
    unfold names? at h
    split at h
    · rename_i db first more hpieces
      dsimp only at h
      split_ifs at h with hnames
      obtain ⟨rfl, rfl⟩ := Prod.mk.inj (Option.some.inj h)
      obtain ⟨rfl, hne, hparts, hmethod⟩ := hnames
      refine ⟨?_, hne, hall.mp hparts, hmethod⟩
      -- The last piece is the method, those before it are the collection.
      have hlast : (first :: more).dropLast ++ [(first :: more).getLastD []] = first :: more := by
        have hcons : first :: more ≠ [] := List.cons_ne_nil first more
        rw [List.getLastD_eq_getLast?, List.getLast?_eq_getLast_of_ne_nil hcons,
          Option.getD_some, List.dropLast_append_getLast]
      rw [nameChars, hlast, ← hpieces, Text.intercalate_pieces]
    · contradiction
  · rintro ⟨htrim, hne, hparts, hmethod⟩
    have hpieces := pieces_nameChars hparts hmethod
    obtain ⟨part, parts, rfl⟩ := List.exists_cons_of_ne_nil hne
    unfold names?
    rw [htrim, hpieces, List.cons_append]
    dsimp only
    rw [← List.cons_append, List.dropLast_concat, List.getLastD_concat,
      if_pos ⟨rfl, hne, hall.mpr hparts, hmethod⟩]

/-! ## The whole command -/

theorem head_append {front : List Char} (h : '(' ∉ front) (rest : List Char) :
    head (front ++ '(' :: rest) = front ∧ (front ++ '(' :: rest).dropWhile (· != '(') =
      '(' :: rest := by
  have hall : ∀ c ∈ front, (c != '(') = true := Text.bne_of_not_mem h
  constructor
  · rw [head, List.takeWhile_append_of_pos hall]
    simp
  · rw [List.dropWhile_append_of_pos hall]
    simp

theorem inner?_append {front : List Char} (h : '(' ∉ front) (arguments : List Char) :
    inner? (front ++ '(' :: (arguments ++ [')'])) = some arguments := by
  rw [inner?, (head_append h _).2]
  simp

/-- The text in the parentheses is all that follows the names. -/
theorem eq_of_inner? {cs arguments : List Char} (h : inner? cs = some arguments) :
    cs = head cs ++ '(' :: (arguments ++ [')']) := by
  have hsplit : head cs ++ cs.dropWhile (· != '(') = cs := List.takeWhile_append_dropWhile
  unfold inner? at h
  split at h
  · contradiction
  · rename_i c rest hrest
    split_ifs at h with hlast
    obtain rfl := Option.some.inj h
    have hc : c = '(' := by
      have hnot := List.head?_dropWhile_not (· != '(') cs
      simpa [hrest] using hnot
    rw [List.dropLast_append_getLast? _ hlast, ← hc, ← hrest, hsplit]

theorem nameChars_eq {parts : List (List Char)} (hne : parts ≠ []) (method : List Char) :
    nameChars parts method = "db.".toList ++ joinParts parts ++ '.' :: method := by
  have hdb : "db.".toList = "db".toList ++ ['.'] := by decide
  rw [nameChars, Text.intercalate_cons (by simp), Text.intercalate_concat hne, joinParts, hdb]
  simp only [List.append_assoc, List.cons_append, List.nil_append]

/-- No parenthesis stands before the one that opens the argument list. -/
theorem not_mem_nameChars {parts : List (List Char)} {method w : List Char}
    (hparts : ∀ t ∈ parts, IsPart t) (hmethod : isMethodName method = true)
    (hw : isBlank w = true) : '(' ∉ nameChars parts method ++ w := by
  have hparen : isNameChar '(' = false := by decide +kernel
  intro hmem
  rcases List.mem_append.mp hmem with hmem | hmem
  · rcases Text.mem_intercalate hmem with hpoint | ⟨t, ht, hmem⟩
    · exact absurd hpoint (by decide)
    · rcases List.mem_cons.mp ht with rfl | ht
      · exact absurd hmem (by decide)
      · rcases List.mem_append.mp ht with ht | ht
        · exact (hparts t ht).not_mem hparen (by decide) hmem
        · rw [List.mem_singleton.mp ht] at hmem
          exact Bool.false_ne_true (hparen.symm.trans (isNameChar_of_isMethodName hmethod _ hmem))
  · exact absurd (Text.isBlank_iff.mp hw _ hmem) (by decide)

/-- The names end where the white space before the parenthesis begins. -/
theorem trimEnd_nameChars {parts : List (List Char)} {method w : List Char}
    (hmethod : isMethodName method = true) (hw : isBlank w = true) :
    Text.trimEnd (nameChars parts method ++ w) = nameChars parts method := by
  obtain ⟨front, c, hc⟩ := List.eq_nil_or_concat method |>.resolve_left
    (ne_nil_of_isMethodName hmethod)
  -- The last character of the method is the last one that is no white space.
  have hspace : Text.isSpace c = false :=
    isSpace_of_isNameChar (isNameChar_of_isMethodName hmethod c (by simp [hc]))
  have hnames : nameChars parts method =
      List.intercalate ['.'] ("db".toList :: parts) ++ '.' :: front ++ [c] := by
    rw [nameChars, ← List.cons_append, Text.intercalate_concat (List.cons_ne_nil _ _), hc]
    simp
  rw [Text.trimEnd_append_of_blank hw, hnames, Text.trimEnd_of_last hspace]

/-- A command has no white space at its ends. -/
theorem isSolid_command (parts : List (List Char)) (method w arguments : List Char) :
    Text.IsSolid (nameChars parts method ++ w ++ '(' :: (arguments ++ [')'])) := by
  have hstart : nameChars parts method =
      'd' :: 'b' :: '.' :: List.intercalate ['.'] (parts ++ [method]) :=
    Text.intercalate_cons (by simp)
  refine ⟨⟨'d', _, by rw [hstart]; rfl, by decide⟩,
    nameChars parts method ++ w ++ '(' :: arguments, ')', by simp, by decide⟩

/-- A text has the shape of a command if and only if it is made up of names and arguments. -/
theorem ofText_eq_ok_iff {text : List Char} {shape : Shape} :
    ofText text = .ok shape ↔
      ∃ w₁ parts method w₂ arguments w₃ fragments,
        isBlank w₁ = true ∧ isBlank w₂ = true ∧ isBlank w₃ = true ∧
        text = w₁ ++ (nameChars parts method ++ w₂ ++ '(' :: (arguments ++ [')'])) ++ w₃ ∧
        parts ≠ [] ∧ (∀ t ∈ parts, IsPart t) ∧ isMethodName method = true ∧
        Arguments.split arguments = .ok fragments ∧
        shape = ⟨String.ofList (joinParts parts), String.ofList method, fragments.map
          (·.shifted (Text.size w₁ + Text.size (nameChars parts method ++ w₂) + 1))⟩ := by
  constructor
  · intro h
    unfold ofText at h
    split_ifs at h with hblank
    dsimp only at h
    split at h
    · rename_i parts method arguments hnames hinner
      split at h
      · contradiction
      · rename_i fragments hsplit
        obtain rfl := Except.ok.inj h
        obtain ⟨hfront, hne, hparts, hmethod⟩ := names?_eq_some_iff.mp hnames
        obtain ⟨w₁, hw₁, hlead⟩ := Text.exists_trimStart text
        obtain ⟨w₃, hw₃, htrim⟩ := Text.exists_trimEnd (Text.trimStart text)
        obtain ⟨w₂, hw₂, hhead⟩ := Text.exists_trimEnd (head (Text.trim text))
        rw [hfront] at hhead
        have hcs := eq_of_inner? hinner
        -- Places are counted from the beginning of the text, not from that of the command.
        have hoffset : Text.offsetOf text (Text.trimStart text) = Text.size w₁ := by
          have happend := Text.offsetOf_append w₁ (Text.trimStart text)
          rw [← hlead] at happend
          exact happend
        refine ⟨w₁, parts, method, w₂, arguments, w₃, fragments, hw₁, hw₂, hw₃, ?_, hne, hparts,
          hmethod, hsplit, ?_⟩
        · rw [← hhead, ← hcs, List.append_assoc, Text.trim, ← htrim, ← hlead]
        · rw [hoffset, hhead]
    · contradiction
  · rintro ⟨w₁, parts, method, w₂, arguments, w₃, fragments, hw₁, hw₂, hw₃, rfl, hne, hparts,
      hmethod, hsplit, rfl⟩
    -- What `trim` leaves is the command, and the first parenthesis in it is the one that opens the
    -- argument list.
    have hsolid := isSolid_command parts method w₂ arguments
    have htrim := Text.trim_append_append hw₁ hsolid hw₃
    have hparen := not_mem_nameChars hparts hmethod hw₂
    have hnames : names? (nameChars parts method ++ w₂) = some (parts, method) :=
      names?_eq_some_iff.mpr ⟨trimEnd_nameChars hmethod hw₂, hne, hparts, hmethod⟩
    have hblank : isBlank (w₁ ++ (nameChars parts method ++ w₂ ++ '(' :: (arguments ++ [')'])) ++
        w₃) = false := by
      rw [Text.isBlank_append, Text.isBlank_append, hsolid.not_blank, Bool.and_false,
        Bool.false_and]
    have hlead := Text.offsetOf_trimStart hw₁ hsolid w₃
    unfold ofText
    rw [if_neg (by rw [hblank]; exact Bool.false_ne_true)]
    simp only [htrim, (head_append hparen _).1, inner?_append hparen, hnames, hsplit, hlead]

end Shape

end DocShell
