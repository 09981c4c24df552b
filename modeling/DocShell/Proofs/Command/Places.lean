import DocShell.Proofs.Arguments.Faults
import DocShell.Proofs.Command.Stages

set_option autoImplicit false

/-! # The places of errors in a command

A literal is read within an argument, an argument within the list in the parentheses, and the
list within a text that may have white space around it. The place of an error is found in the
innermost of these and shifted outwards, in bytes. `Text.PointsInto` is what remains true at the
end: a character of the text begins at the place, and the place is not in the white space around
the command.

All errors but the one for a blank text have such a place. For those of the list and of the
literals this follows from one lemma, `pointsInto_of_isBoundary`: a place of the list in the
parentheses, its end included, is followed by the closing parenthesis at the latest.
-/

namespace DocShell

open Text (isBlank isSpace IsBoundary)

/-! ## Places that are not in the white space around a text -/

namespace Text

variable {text before rest : List Char}

/-- Where the first character that is no white space begins. -/
def firstSolid (text : List Char) : Nat :=
  size (text.takeWhile isSpace)

/-- Where the last character that is no white space begins. -/
def lastSolid (text : List Char) : Nat :=
  size (trimEnd text).dropLast

/-- A character of the text begins at the place, and the place is not in the white space around
the text. -/
structure PointsInto (text : List Char) (n : Nat) : Prop where
  isBoundary : IsBoundary text n
  first_le : firstSolid text ≤ n
  le_last : n ≤ lastSolid text
  lt_size : n < size text

theorem offsetOf_trimStart_eq (text : List Char) :
    offsetOf text (trimStart text) = firstSolid text := by
  have htext : text.takeWhile isSpace ++ trimStart text = text := List.takeWhile_append_dropWhile
  calc offsetOf text (trimStart text)
      = offsetOf (text.takeWhile isSpace ++ trimStart text) (trimStart text) := by rw [htext]
    _ = firstSolid text := offsetOf_append _ _

/-- The white space after a text that is not blank is not the white space before it. -/
theorem trimEnd_eq (h : isBlank text = false) :
    trimEnd text = text.takeWhile isSpace ++ trim text := by
  obtain ⟨w, hw, hstart⟩ := exists_trimEnd (trimStart text)
  obtain ⟨-, front, c, hlast, hc⟩ := isSolid_trim h
  rw [← trim] at hstart
  calc trimEnd text
      = trimEnd (text.takeWhile isSpace ++ trimStart text) := by
        rw [trimStart, List.takeWhile_append_dropWhile]
    _ = trimEnd (text.takeWhile isSpace ++ trim text ++ w) := by rw [hstart, List.append_assoc]
    _ = trimEnd (text.takeWhile isSpace ++ front ++ [c]) := by
        rw [trimEnd_append_of_blank hw, hlast, List.append_assoc]
    _ = text.takeWhile isSpace ++ trim text := by
        rw [trimEnd_of_last hc, hlast, List.append_assoc]

theorem size_pos {cs : List Char} (h : cs ≠ []) : 0 < size cs := by
  obtain ⟨c, cs, rfl⟩ := List.exists_cons_of_ne_nil h
  have hc := c.utf8Size_pos
  rw [size_cons]
  omega

/-- Every character of the trimmed text stands at such a place. -/
theorem pointsInto_of_trim (h : isBlank text = false) (htrim : trim text = before ++ rest)
    (hrest : rest ≠ []) : PointsInto text (firstSolid text + size before) := by
  obtain ⟨w, -, htext⟩ := exists_trimEnd text
  have hend : trimEnd text = text.takeWhile isSpace ++ before ++ rest := by
    rw [trimEnd_eq h, htrim, List.append_assoc]
  have hplace : firstSolid text + size before = size (text.takeWhile isSpace ++ before) :=
    (size_append _ _).symm
  refine ⟨?_, ?_, ?_, ?_⟩
  · refine ⟨text.takeWhile isSpace ++ before, rest ++ w, ?_, hplace⟩
    rw [← List.append_assoc, ← hend]
    exact htext
  · omega
  · have hlast : lastSolid text = size (text.takeWhile isSpace ++ before) + size rest.dropLast := by
      rw [lastSolid, hend, List.dropLast_append_of_ne_nil hrest, size_append]
    omega
  · have hsize : size text = size (trimEnd text) + size w := by
      rw [← size_append, ← htext]
    have hpos := size_pos hrest
    rw [hend, size_append, ← hplace] at hsize
    omega

end Text

/-! ## The shape of a command -/

namespace Shape

variable {text head arguments : List Char}

/-- Everything that can become of a text that is taken apart: it is blank, it has not the form of
a command, or it is decided by the list in the parentheses. -/
theorem ofText_cases (text : List Char) :
    (isBlank text = true ∧ ofText text = .error ⟨.blankQuery, none⟩) ∨
    (isBlank text = false ∧ ofText text = .error ⟨.noCommand, some (Text.firstSolid text)⟩) ∨
    ∃ head arguments, isBlank text = false ∧
      Text.trim text = head ++ '(' :: (arguments ++ [')']) ∧
      ((∃ e, Arguments.split arguments = .error e ∧
        ofText text = .error (e.shifted (Text.firstSolid text + Text.size head + 1))) ∨
      ∃ fragments shape, Arguments.split arguments = .ok fragments ∧ ofText text = .ok shape ∧
        shape.arguments =
          fragments.map (·.shifted (Text.firstSolid text + Text.size head + 1))) := by
  cases hblank : isBlank text with
  | true => exact .inl ⟨rfl, by simp [ofText, hblank]⟩
  | false =>
      refine .inr ?_
      have hshape := ofText.eq_def text
      rw [if_neg (by simp [hblank]), Text.offsetOf_trimStart_eq] at hshape
      dsimp only at hshape
      split at hshape
      · rename_i collection method arguments hnames hinner
        refine .inr ⟨head (Text.trim text), arguments, rfl, eq_of_inner? hinner, ?_⟩
        split at hshape
        · rename_i e hsplit
          exact .inl ⟨e, hsplit, hshape⟩
        · rename_i fragments hsplit
          exact .inr ⟨fragments, _, hsplit, hshape, rfl⟩
      · exact .inl ⟨rfl, hshape⟩

/-- The places of the list in the parentheses are places of the command, the end of the list
included: the closing parenthesis stands there. -/
theorem pointsInto_of_isBoundary (h : isBlank text = false)
    (htrim : Text.trim text = head ++ '(' :: (arguments ++ [')'])) {n : Nat}
    (hn : IsBoundary arguments n) :
    Text.PointsInto text (n + (Text.firstSolid text + Text.size head + 1)) := by
  obtain ⟨before, after, rfl, rfl⟩ := hn
  have hsplit : Text.trim text = (head ++ '(' :: before) ++ (after ++ [')']) := by
    rw [htrim]
    simp only [List.append_assoc, List.cons_append]
  have hplace : Text.size before + (Text.firstSolid text + Text.size head + 1) =
      Text.firstSolid text + Text.size (head ++ '(' :: before) := by
    have hparen : ('(' : Char).utf8Size = 1 := by decide
    rw [Text.size_append, Text.size_cons, hparen]
    omega
  rw [hplace]
  exact Text.pointsInto_of_trim h hsplit (by simp)

/-- A text that has not the shape of a command is refused at one of its characters, unless it is
blank. -/
theorem pointsInto_of_error {e : SyntaxError} (h : ofText text = .error e) :
    (isBlank text = true ∧ e.offset = none) ∨
      isBlank text = false ∧ ∃ n, e.offset = some n ∧ Text.PointsInto text n := by
  rcases ofText_cases text with ⟨hblank, herror⟩ | ⟨hblank, herror⟩ |
    ⟨head, arguments, hblank, htrim, ⟨e₀, hsplit, herror⟩ | ⟨fragments, shape, -, hok, -⟩⟩
  · obtain rfl := Except.error.inj (h.symm.trans herror)
    exact .inl ⟨hblank, rfl⟩
  · obtain rfl := Except.error.inj (h.symm.trans herror)
    refine .inr ⟨hblank, _, rfl, ?_⟩
    obtain ⟨⟨c, rest, hsolid, -⟩, -⟩ := Text.isSolid_trim hblank
    have hstart : Text.trim text = [] ++ c :: rest := hsolid
    exact Text.pointsInto_of_trim hblank hstart (List.cons_ne_nil c rest)
  · obtain rfl := Except.error.inj (h.symm.trans herror)
    obtain ⟨n, hn, hboundary⟩ := Arguments.isBoundary_of_split hsplit
    refine .inr ⟨hblank, _, ?_, pointsInto_of_isBoundary hblank htrim hboundary⟩
    rw [SyntaxError.shifted, hn]
    rfl
  · rw [h] at hok
    contradiction

/-- The places of an argument are places of the command. -/
theorem pointsInto_of_mem_arguments {shape : Shape} (h : ofText text = .ok shape) {f : Fragment}
    (hf : f ∈ shape.arguments) {n : Nat} (hn : IsBoundary f.text.toList n) :
    isBlank text = false ∧ Text.PointsInto text (n + f.offset) := by
  rcases ofText_cases text with ⟨-, herror⟩ | ⟨-, herror⟩ |
    ⟨head, arguments, hblank, htrim, ⟨e, -, herror⟩ | ⟨fragments, shape', hsplit, hok, hshape⟩⟩
  · rw [h] at herror
    contradiction
  · rw [h] at herror
    contradiction
  · rw [h] at herror
    contradiction
  · obtain rfl := Except.ok.inj (h.symm.trans hok)
    rw [hshape] at hf
    obtain ⟨g, hg, rfl⟩ := List.mem_map.mp hf
    -- The argument stands in the list, and the list in the command.
    obtain ⟨before, after, harguments, hoffset⟩ := Arguments.isAt_of_split hsplit hg
    have hlist : IsBoundary arguments (n + g.offset) := by
      rw [hoffset, harguments]
      exact IsBoundary.shifted hn before after
    refine ⟨hblank, ?_⟩
    show Text.PointsInto text (n + (g.offset + _))
    rw [← Nat.add_assoc]
    exact pointsInto_of_isBoundary hblank htrim hlist

end Shape

/-! ## Commands -/

namespace Command

/-- A literal that is refused is refused within its argument. -/
theorem exists_place_of_argument {f : Fragment} {e : SyntaxError}
    (h : argument f = .error (.malformed e)) :
    ∃ n, IsBoundary f.text.toList n ∧ e.offset = some (n + f.offset) := by
  unfold argument at h
  split at h
  · rename_i e₀ hparse
    injection h with h
    injection h with h
    subst h
    obtain ⟨-, n, hn, hboundary⟩ := Literal.isBoundary_of_parse hparse
    refine ⟨n, hboundary, ?_⟩
    rw [SyntaxError.shifted, hn]
    rfl
  · contradiction

/-- The place of an error is a character of the command, unless the text is blank. -/
theorem pointsInto_of_parse {s : String} {e : SyntaxError} (h : parse s = .error (.malformed e)) :
    (isBlank s.toList = true ∧ e.offset = none) ∨
      isBlank s.toList = false ∧ ∃ n, e.offset = some n ∧ Text.PointsInto s.toList n := by
  cases parse_iff_stage.mp h with
  | misshapen _ he => exact Shape.pointsInto_of_error he
  | @excessive shape m extra hshape _ _ hextra =>
      have hmem : extra ∈ shape.arguments := List.mem_of_getElem? hextra
      have hstart : IsBoundary extra.text.toList 0 := ⟨[], _, rfl, rfl⟩
      obtain ⟨hblank, hpoints⟩ := Shape.pointsInto_of_mem_arguments hshape hmem hstart
      rw [Nat.zero_add] at hpoints
      exact .inr ⟨hblank, extra.offset, rfl, hpoints⟩
  | @refused shape m before after f e₀ hshape _ _ _ harguments _ hf =>
      have hmem : f ∈ shape.arguments := by simp [harguments]
      obtain ⟨n, hn, hplace⟩ := exists_place_of_argument (argument_of_refused hf)
      obtain ⟨hblank, hpoints⟩ := Shape.pointsInto_of_mem_arguments hshape hmem hn
      exact .inr ⟨hblank, n + f.offset, hplace, hpoints⟩

/-- Where the shape and the number of the arguments are right, the error is that of an
argument. -/
theorem exists_argument_of_parse {s : String} {e : SyntaxError} {shape : Shape} {call : Call}
    (h : parse s = .error (.malformed e)) (hshape : Shape.ofText s.toList = .ok shape)
    (hcall : Call.check shape.method shape.arguments = .ok call) :
    ∃ f ∈ shape.arguments, argument f = .error (.malformed e) := by
  cases parse_iff_stage.mp h with
  | misshapen _ he =>
      rw [hshape] at he
      contradiction
  | excessive hshape' hm hsecond hextra =>
      obtain rfl := Except.ok.inj (hshape.symm.trans hshape')
      rw [← hm, Call.check_name, if_neg hsecond, hextra] at hcall
      contradiction
  | @refused _ _ before after f _ hshape' _ _ _ harguments _ hf =>
      obtain rfl := Except.ok.inj (hshape.symm.trans hshape')
      exact ⟨f, by simp [harguments], argument_of_refused hf⟩

/-- Errors point at a character of the text, from the first to the last one that is no white
space; those of a literal point into the argument it stands in. -/
theorem parse_error_place :
    (∀ (s : String) (e : SyntaxError), parse s = .error (.malformed e) →
      (e.offset = none ↔ isBlank s.toList = true) ∧
      (isBlank s.toList = false → ∃ n, e.offset = some n ∧ IsBoundary s.toList n ∧
        Text.firstSolid s.toList ≤ n ∧ n ≤ Text.lastSolid s.toList ∧ n < Text.size s.toList) ∧
      ∀ shape, Shape.ofText s.toList = .ok shape →
        (∀ call, Call.check shape.method shape.arguments = .ok call →
          ∃ f ∈ shape.arguments, argument f = .error (.malformed e)) ∧
        ∀ f ∈ shape.arguments, argument f = .error (.malformed e) →
          ∃ n, e.offset = some n ∧ f.offset ≤ n ∧ n ≤ f.offset + Text.size f.text.toList) ∧
    ∀ (t : String) (e : SyntaxError), Literal.parse t = .error e →
      ∃ n, e.offset = some n ∧ n ≤ Text.size t.toList ∧ IsBoundary t.toList n := by
  constructor
  · intro s e h
    refine ⟨?_, ?_, ?_⟩
    · rcases pointsInto_of_parse h with ⟨hblank, hnone⟩ | ⟨hblank, n, hn, -⟩
      · simp [hblank, hnone]
      · simp [hblank, hn]
    · intro hsolid
      rcases pointsInto_of_parse h with ⟨hblank, -⟩ | ⟨-, n, hn, hpoints⟩
      · rw [hsolid] at hblank
        contradiction
      · exact ⟨n, hn, hpoints.isBoundary, hpoints.first_le, hpoints.le_last, hpoints.lt_size⟩
    · intro shape hshape
      refine ⟨fun call hcall => exists_argument_of_parse h hshape hcall, ?_⟩
      intro f _ hf
      obtain ⟨n, hn, hplace⟩ := exists_place_of_argument hf
      have hle := hn.le_size
      exact ⟨n + f.offset, hplace, by omega, by omega⟩
  · intro t e h
    obtain ⟨-, n, hn, hboundary⟩ := Literal.isBoundary_of_parse h
    exact ⟨n, hn, hboundary.le_size, hboundary⟩

/-- Characters of two and three bytes before the word that is refused, and an unfinished array of
which the place is the end of the text. -/
theorem parse_error_place_accented :
    (∃ e n, parse "\u3000db.x\u00e9.find(\x7ba: '\u00e9', b: nope\x7d) " = .error (.malformed e) ∧
      e.offset = some n ∧
      IsBoundary "\u3000db.x\u00e9.find(\x7ba: '\u00e9', b: nope\x7d) ".toList n ∧
      3 ≤ n ∧ n ≤ 33 ∧
      ∃ f ∈ [(⟨"\x7ba: '\u00e9', b: nope\x7d", 15⟩ : Fragment)],
        argument f = .error (.malformed e) ∧ f.offset ≤ n ∧ n ≤ 33) ∧
    ∃ e n, Literal.parse "['\u00e9'" = .error e ∧ e.offset = some n ∧ n ≤ 5 ∧
      IsBoundary "['\u00e9'".toList n := by
  have hshape : Shape.ofText "\u3000db.x\u00e9.find(\x7ba: '\u00e9', b: nope\x7d) ".toList =
      .ok ⟨"x\u00e9", "find", [⟨"\x7ba: '\u00e9', b: nope\x7d", 15⟩]⟩ := by
    decide +kernel
  have hparse : parse "\u3000db.x\u00e9.find(\x7ba: '\u00e9', b: nope\x7d) " =
      .error (.malformed ⟨.unknownWord "nope".toList, some 28⟩) :=
    Except.error?_eq_some_iff.mp (by decide +kernel)
  have hliteral : Literal.parse "['\u00e9'" = .error ⟨.unclosed .array, some 5⟩ :=
    Except.error?_eq_some_iff.mp (by decide +kernel)
  obtain ⟨-, hplace, hargument⟩ := parse_error_place.1 _ _ hparse
  obtain ⟨n, hn, hboundary, hfirst, hlast, -⟩ := hplace (by decide)
  obtain ⟨f, hf, hf'⟩ := (hargument _ hshape).1 _ rfl
  obtain ⟨n', hn', hstart, hstop⟩ := (hargument _ hshape).2 f hf hf'
  obtain rfl := Option.some.inj (hn.symm.trans hn')
  obtain rfl := List.mem_singleton.mp hf
  obtain ⟨k, hk, hle, hend⟩ := parse_error_place.2 _ _ hliteral
  exact ⟨⟨_, n, hparse, hn, hboundary, hfirst, hlast, _, hf, hf', hstart, hstop⟩,
    _, k, hliteral, hk, hle, hend⟩

end Command

end DocShell
