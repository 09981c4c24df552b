import DocShell.Proofs.Command.Language

set_option autoImplicit false

/-! # A text is a command in one way only

A `Decomposition` of a text says where its names, its arguments and its white space are. There
is at most one: the parenthesis that opens the argument list is the first one of the text, the
method follows the last point before it, and the closing parenthesis is the last character that
is no white space. The texts that have the shape of a command are those with a decomposition
whose arguments can be cut, and the arguments are found in the text at their offsets.

Since nothing is open at the end of the arguments of a command, a command is never the beginning
of another one, white space apart (`ofText_append`).
-/

namespace DocShell

open Text (isBlank isSpace)

namespace Shape

/-! ## Decompositions -/

/-- A part of a collection's name: one character, or more of which the last is no hyphen. -/
inductive IsSegment : List Char → Prop
  | one {first : Char} (hfirst : isInitial first = true) : IsSegment [first]
  | more {first last : Char} {middle : List Char} (hfirst : isInitial first = true)
      (hmiddle : ∀ c ∈ middle, isNameChar c = true ∨ c = '-') (hlast : isNameChar last = true) :
      IsSegment (first :: middle ++ [last])

theorem isPart_iff_isSegment {t : List Char} : IsPart t ↔ IsSegment t := by
  have hhyphen : isNameChar '-' = false := by decide +kernel
  have hgetLast : ∀ (first last : Char) (middle : List Char),
      (first :: (middle ++ [last])).getLast? = some last := by
    intro first last middle
    rw [← List.cons_append, List.getLast?_concat]
  constructor
  · rintro ⟨first, more, rfl, hfirst, hmore, hend⟩
    rcases List.eq_nil_or_concat' more with rfl | ⟨middle, last, rfl⟩
    · exact .one hfirst
    · rw [hgetLast] at hend
      have hlast : isNameChar last = true :=
        (hmore last (by simp)).resolve_right fun h => hend (congrArg some h)
      exact .more hfirst (fun c hc => hmore c (List.mem_append_left _ hc)) hlast
  · intro h
    cases h with
    | @one first hfirst =>
        refine ⟨first, [], rfl, hfirst, by simp, ?_⟩
        intro hend
        obtain rfl : first = '-' := Option.some.inj hend
        exact absurd hfirst (by decide)
    | @more first last middle hfirst hmiddle hlast =>
        refine ⟨first, middle ++ [last], rfl, hfirst, ?_, ?_⟩
        · intro c hc
          rcases List.mem_append.mp hc with hc | hc
          · exact hmiddle c hc
          · rw [List.mem_singleton.mp hc]
            exact .inl hlast
        · intro hend
          rw [List.cons_append, hgetLast] at hend
          rw [Option.some.inj hend] at hlast
          exact Bool.false_ne_true (hhyphen.symm.trans hlast)

theorem isMethodName_iff {t : List Char} :
    isMethodName t = true ↔ ∃ first more, t = first :: more ∧ isInitial first = true ∧
      ∀ c ∈ more, isNameChar c = true := by
  cases t with
  | nil => simp [isMethodName]
  | cons first more =>
      simp only [isMethodName, Bool.and_eq_true, List.all_eq_true]
      constructor
      · intro h
        exact ⟨first, more, rfl, h⟩
      · rintro ⟨first', more', heq, h⟩
        obtain ⟨rfl, rfl⟩ := List.cons.inj heq
        exact h

/-- A text taken apart as a command, whatever its arguments are. -/
@[ext]
structure Decomposition (text : List Char) where
  lead : List Char
  collection : List Char
  method : List Char
  gap : List Char
  arguments : List Char
  trail : List Char
  text_eq : text = lead ++ "db.".toList ++ collection ++ '.' :: method ++ gap ++
    '(' :: arguments ++ ')' :: trail
  lead_blank : isBlank lead = true
  collection_parts : ∃ parts, parts ≠ [] ∧ (∀ t ∈ parts, IsSegment t) ∧
    collection = List.intercalate ['.'] parts
  method_name : ∃ first more, method = first :: more ∧ isInitial first = true ∧
    ∀ c ∈ more, isNameChar c = true
  gap_blank : isBlank gap = true
  trail_blank : isBlank trail = true

namespace Decomposition

variable {text : List Char}

/-- What stands before the arguments and their parenthesis. -/
def front (d : Decomposition text) : List Char :=
  d.lead ++ "db.".toList ++ d.collection ++ '.' :: d.method ++ d.gap

theorem text_eq_front (d : Decomposition text) :
    text = d.front ++ '(' :: d.arguments ++ ')' :: d.trail :=
  d.text_eq

theorem isMethodName_method (d : Decomposition text) : isMethodName d.method = true :=
  isMethodName_iff.mpr d.method_name

theorem exists_parts (d : Decomposition text) :
    ∃ parts, parts ≠ [] ∧ (∀ t ∈ parts, IsPart t) ∧ d.collection = joinParts parts := by
  obtain ⟨parts, hne, hparts, hcollection⟩ := d.collection_parts
  exact ⟨parts, hne, fun t ht => isPart_iff_isSegment.mpr (hparts t ht), hcollection⟩

theorem front_eq (d : Decomposition text) {parts : List (List Char)} (hne : parts ≠ [])
    (hcollection : d.collection = joinParts parts) :
    d.front = d.lead ++ (nameChars parts d.method ++ d.gap) := by
  rw [front, nameChars_eq hne, hcollection]
  simp only [List.append_assoc]

/-- Where the arguments begin, in bytes. -/
def base (d : Decomposition text) : Nat :=
  Text.size (d.front ++ ['('])

theorem base_eq (d : Decomposition text) {parts : List (List Char)} (hne : parts ≠ [])
    (hcollection : d.collection = joinParts parts) :
    d.base = Text.size d.lead + Text.size (nameChars parts d.method ++ d.gap) + 1 := by
  rw [base, d.front_eq hne hcollection, Text.size_append, Text.size_append]
  rfl

/-! ## Where the parts are -/

/-- The arguments begin after the first parenthesis. -/
theorem not_mem_front (d : Decomposition text) : '(' ∉ d.front := by
  obtain ⟨parts, hne, hparts, hcollection⟩ := d.exists_parts
  rw [d.front_eq hne hcollection, List.mem_append, not_or]
  refine ⟨?_, not_mem_nameChars hparts d.isMethodName_method d.gap_blank⟩
  intro hmem
  exact absurd (Text.isBlank_iff.mp d.lead_blank _ hmem) (by decide)

/-- The method begins after the last point before that parenthesis. -/
theorem not_mem_method_gap (d : Decomposition text) : '.' ∉ d.method ++ d.gap := by
  have hpoint : isNameChar '.' = false := by decide +kernel
  rw [List.mem_append, not_or]
  constructor
  · intro hmem
    exact Bool.false_ne_true
      (hpoint.symm.trans (isNameChar_of_isMethodName d.isMethodName_method _ hmem))
  · intro hmem
    exact absurd (Text.isBlank_iff.mp d.gap_blank _ hmem) (by decide)

/-- The arguments end before the last character that is no white space. -/
theorem trimEnd_text (d : Decomposition text) :
    Text.trimEnd text = d.front ++ '(' :: d.arguments ++ [')'] := by
  have htext : text = d.front ++ '(' :: d.arguments ++ [')'] ++ d.trail :=
    d.text_eq_front.trans (by simp)
  calc Text.trimEnd text
      = Text.trimEnd (d.front ++ '(' :: d.arguments ++ [')'] ++ d.trail) := congrArg _ htext
    _ = Text.trimEnd (d.front ++ '(' :: d.arguments ++ [')']) :=
        Text.trimEnd_append_of_blank d.trail_blank _
    _ = d.front ++ '(' :: d.arguments ++ [')'] := Text.trimEnd_of_last (by decide)

/-- The method ends where the white space after it begins. -/
theorem takeWhile_method_gap (d : Decomposition text) :
    (d.method ++ d.gap).takeWhile (fun c => !isSpace c) = d.method := by
  have hmethod : ∀ c ∈ d.method, (!isSpace c) = true := by
    intro c hc
    have hname := isNameChar_of_isMethodName d.isMethodName_method c hc
    simp [isSpace_of_isNameChar hname]
  have hgap : d.gap.takeWhile (fun c => !isSpace c) = [] := by
    rw [List.takeWhile_eq_nil_iff]
    intro hlength
    simp [Text.isBlank_iff.mp d.gap_blank _ (List.getElem_mem hlength)]
  rw [List.takeWhile_append_of_pos hmethod, hgap, List.append_nil]

/-- The first parenthesis of the text sets its names apart from its arguments. -/
theorem eq_of_paren (d : Decomposition text) {before rest : List Char} (hbefore : '(' ∉ before)
    (h : text = before ++ '(' :: rest) :
    d.front = before ∧ d.arguments ++ ')' :: d.trail = rest := by
  have hparen : d.front ++ '(' :: (d.arguments ++ ')' :: d.trail) = before ++ '(' :: rest := by
    have htext := d.text_eq_front.symm.trans h
    simpa only [List.append_assoc, List.cons_append] using htext
  obtain ⟨hfront, -, hrest⟩ := Text.append_cons_inj_of_front
    (Text.bne_of_not_mem d.not_mem_front) (by decide) (Text.bne_of_not_mem hbefore) (by decide)
    hparen
  exact ⟨hfront, hrest⟩

/-- A text is taken apart in one way only. -/
theorem unique (d d' : Decomposition text) : d = d' := by
  have hspace : isSpace ')' = false := by decide
  have hparen : text = d'.front ++ '(' :: (d'.arguments ++ ')' :: d'.trail) :=
    d'.text_eq_front.trans (by simp)
  obtain ⟨hfront, hrest⟩ := d.eq_of_paren d'.not_mem_front hparen
  -- The closing parenthesis is the last character that is no white space.
  obtain ⟨harguments, -, htrail⟩ := Text.append_cons_inj_of_back (p := isSpace)
    (Text.isBlank_iff.mp d.trail_blank) hspace (Text.isBlank_iff.mp d'.trail_blank) hspace hrest
  -- The names begin with the first character that is no white space.
  have hnames : d.lead ++ 'd' :: 'b' :: '.' :: (d.collection ++ '.' :: (d.method ++ d.gap)) =
      d'.lead ++ 'd' :: 'b' :: '.' :: (d'.collection ++ '.' :: (d'.method ++ d'.gap)) := by
    simpa [front] using hfront
  obtain ⟨hlead, -, hdb⟩ := Text.append_cons_inj_of_front (p := isSpace)
    (Text.isBlank_iff.mp d.lead_blank) (by decide) (Text.isBlank_iff.mp d'.lead_blank) (by decide)
    hnames
  -- The last point of the names is the one before the method.
  have hpoints : d.collection ++ '.' :: (d.method ++ d.gap) =
      d'.collection ++ '.' :: (d'.method ++ d'.gap) := by
    simpa using hdb
  obtain ⟨hcollection, -, hmethod⟩ := Text.append_cons_inj_of_back
    (Text.bne_of_not_mem d.not_mem_method_gap) (by decide)
    (Text.bne_of_not_mem d'.not_mem_method_gap) (by decide) hpoints
  have hname : d.method = d'.method := by
    rw [← d.takeWhile_method_gap, hmethod, d'.takeWhile_method_gap]
  have hgap : d.gap = d'.gap := by
    rw [hname] at hmethod
    exact List.append_cancel_left hmethod
  exact Decomposition.ext hlead hcollection hname hgap harguments htrail

end Decomposition

/-! ## Shapes -/

/-- A text has the shape that its decomposition gives it, if its arguments can be cut. -/
theorem ofText_eq_ok_iff_decomposition {text : List Char} {shape : Shape} :
    ofText text = .ok shape ↔
      ∃ (d : Decomposition text) (fragments : List Fragment),
        Arguments.split d.arguments = .ok fragments ∧
        shape = ⟨String.ofList d.collection, String.ofList d.method,
          fragments.map (·.shifted d.base)⟩ := by
  rw [ofText_eq_ok_iff]
  constructor
  · rintro ⟨w₁, parts, method, w₂, arguments, w₃, fragments, hw₁, hw₂, hw₃, htext, hne, hparts,
      hmethod, hsplit, rfl⟩
    have hsegments : ∀ t ∈ parts, IsSegment t :=
      fun t ht => isPart_iff_isSegment.mp (hparts t ht)
    have hwritten : text = w₁ ++ "db.".toList ++ joinParts parts ++ '.' :: method ++ w₂ ++
        '(' :: arguments ++ ')' :: w₃ := by
      rw [htext, nameChars_eq hne]
      simp only [List.append_assoc, List.cons_append, List.nil_append]
    let d : Decomposition text := ⟨w₁, joinParts parts, method, w₂, arguments, w₃, hwritten, hw₁,
      ⟨parts, hne, hsegments, rfl⟩, isMethodName_iff.mp hmethod, hw₂, hw₃⟩
    have hbase : d.base = Text.size w₁ + Text.size (nameChars parts method ++ w₂) + 1 :=
      d.base_eq hne rfl
    exact ⟨d, fragments, hsplit, by rw [hbase]⟩
  · rintro ⟨d, fragments, hsplit, rfl⟩
    obtain ⟨parts, hne, hparts, hcollection⟩ := d.exists_parts
    refine ⟨d.lead, parts, d.method, d.gap, d.arguments, d.trail, fragments, d.lead_blank,
      d.gap_blank, d.trail_blank, ?_, hne, hparts, d.isMethodName_method, hsplit, ?_⟩
    · refine d.text_eq_front.trans ?_
      rw [d.front_eq hne hcollection]
      simp only [List.append_assoc, List.cons_append, List.nil_append]
    · rw [d.base_eq hne hcollection, hcollection]

/-- The text holds the arguments of a command at their offsets. -/
theorem isAt_of_ofText {text : List Char} {shape : Shape} (h : ofText text = .ok shape)
    {f : Fragment} (hf : f ∈ shape.arguments) : f.IsAt text := by
  obtain ⟨d, fragments, hsplit, rfl⟩ := ofText_eq_ok_iff_decomposition.mp h
  obtain ⟨g, hg, rfl⟩ := List.mem_map.mp hf
  have hat := (Arguments.isAt_of_split hsplit hg).shifted (d.front ++ ['(']) (')' :: d.trail)
  have htext : text = d.front ++ ['('] ++ d.arguments ++ ')' :: d.trail :=
    d.text_eq_front.trans (by simp)
  obtain ⟨before, after, heq, hoffset⟩ := hat
  exact ⟨before, after, htext.trans heq, hoffset⟩

/-- A text has the shape of a command if and only if it can be taken apart and its arguments can
be cut. It can be taken apart in one way only, which gives the shape its names, and the arguments
are found in the text at their offsets. -/
theorem ofText_iff_unique_decomposition (text : List Char) :
    (∀ shape, ofText text = .ok shape ↔
      ∃ (d : Decomposition text) (fragments : List Fragment),
        Arguments.split d.arguments = .ok fragments ∧
        shape.collection = String.ofList d.collection ∧ shape.method = String.ofList d.method ∧
        shape.arguments = fragments.map (·.shifted d.base)) ∧
    (∀ d d' : Decomposition text, d = d') ∧
    (∀ d : Decomposition text, '(' ∉ d.front ∧ '.' ∉ d.method ++ d.gap ∧
      Text.trimEnd text = d.front ++ '(' :: d.arguments ++ [')']) ∧
    ∀ shape, ofText text = .ok shape → ∀ f ∈ shape.arguments, f.IsAt text := by
  refine ⟨?_, Decomposition.unique, ?_, fun shape h f hf => isAt_of_ofText h hf⟩
  · intro shape
    rw [ofText_eq_ok_iff_decomposition]
    obtain ⟨collection, method, arguments⟩ := shape
    simp only [Shape.mk.injEq]
  · intro d
    exact ⟨d.not_mem_front, d.not_mem_method_gap, d.trimEnd_text⟩

/-- White space of more than one byte before the command, a hyphen and a letter beyond ASCII in
the name of the collection, and a parenthesis in the first argument. -/
theorem ofText_iff_unique_decomposition_padded :
    ∃ text shape, ofText text = .ok shape ∧ shape.collection = "a-\u00e9.b" ∧
      shape.method = "find" ∧ shape.arguments.map Fragment.offset = [20, 27] ∧
      ∀ f ∈ shape.arguments, f.IsAt text := by
  have hshape : ofText "\u3000db.a-\u00e9.b.find\t( ['('], 1)\n".toList =
      .ok ⟨"a-\u00e9.b", "find", [⟨"['(']", 20⟩, ⟨"1", 27⟩]⟩ := by
    decide +kernel
  exact ⟨_, _, hshape, rfl, rfl, rfl, (ofText_iff_unique_decomposition _).2.2.2 _ hshape⟩

/-! ## What may follow a command -/

/-- Text that follows a command makes its closing parenthesis one of the argument list, where
nothing is open that it could close. -/
theorem ofText_append {text more : List Char} {shape : Shape} (h : ofText text = .ok shape)
    (hend : Text.trimEnd text = text) (hmore : isBlank more = false) (shape' : Shape) :
    ofText (text ++ more) ≠ .ok shape' := by
  intro h'
  obtain ⟨d, fragments, hsplit, -⟩ := ofText_eq_ok_iff_decomposition.mp h
  obtain ⟨d', fragments', hsplit', -⟩ := ofText_eq_ok_iff_decomposition.mp h'
  have htext : text = d.front ++ '(' :: d.arguments ++ [')'] := hend.symm.trans d.trimEnd_text
  have hall : text ++ more = d.front ++ '(' :: (d.arguments ++ ')' :: more) :=
    (congrArg (· ++ more) htext).trans (by simp)
  obtain ⟨-, hrest⟩ := d'.eq_of_paren d.not_mem_front hall
  rcases Text.append_cons_cases hrest with ⟨-, htrail⟩ | ⟨a, -, htrail⟩ | ⟨a, harguments, -⟩
  · rw [← htrail, d'.trail_blank] at hmore
    contradiction
  · -- The longer command would end before the shorter one.
    have hblank := d'.trail_blank
    rw [htrail] at hblank
    exact absurd (Text.isBlank_iff.mp hblank ')' (by simp)) (by decide)
  · rw [harguments] at hsplit'
    exact Arguments.split_append_closing hsplit (by decide) fragments' hsplit'

end Shape

namespace Command

theorem parse_of_shape_error {text : String} {e : QueryError} (hne : text ≠ "")
    (h : shape text = .error e) : parse text = .error e := by
  have hempty : ¬ text.isEmpty = true := by simpa using hne
  simp [parse, hempty, h, bind, Except.bind]

/-- A command with anything but white space after it is not a command. -/
theorem shape_append_eq_error (s u : String) (shape₀ : Shape) (hs : shape s = .ok shape₀)
    (hend : Text.trimEnd s.toList = s.toList) (hu : isBlank u.toList = false) :
    ∃ e, shape (s ++ u) = .error (.malformed e) ∧ parse (s ++ u) = .error (.malformed e) := by
  have hofText : Shape.ofText s.toList = .ok shape₀ := Except.mapError_eq_ok_iff.mp hs
  have hne : s ++ u ≠ "" := by
    intro hempty
    obtain ⟨-, rfl⟩ := String.append_eq_empty_iff.mp hempty
    contradiction
  cases hall : Shape.ofText (s.toList ++ u.toList) with
  | ok shape' => exact absurd hall (Shape.ofText_append hofText hend hu shape')
  | error e =>
      have hshape : shape (s ++ u) = .error (.malformed e) := by
        rw [shape, String.toList_append, hall]
        rfl
      exact ⟨e, hshape, parse_of_shape_error hne hshape⟩

/-- A second call, with brackets that match, after a command. -/
theorem shape_append_call :
    shape "db.foobar.find([1])" = .ok ⟨"foobar", "find", [⟨"[1]", 15⟩]⟩ ∧
      ∃ e, shape ("db.foobar.find([1])" ++ ".limit(5)") = .error (.malformed e) ∧
        parse ("db.foobar.find([1])" ++ ".limit(5)") = .error (.malformed e) := by
  have hshape : shape "db.foobar.find([1])" = .ok ⟨"foobar", "find", [⟨"[1]", 15⟩]⟩ := by
    decide +kernel
  exact ⟨hshape, shape_append_eq_error _ _ _ hshape (by decide) (by decide)⟩

end Command

end DocShell
