import DocShell.Proofs.Command.RoundTrip
import DocShell.Proofs.Literal.ControlFree
import DocShell.Report

set_option autoImplicit false

/-! # The lines of a text report

A text report shows the canonical text of a command and its names, which come from the user, among
lines that tell how safe the command is. Neither the canonical text nor a name has a control
character (`Command.controlFree_text`), so none of them ends a line: the lines of the report are
those that were written, and its first line is the whole canonical text. Reading that line gives
the same command, hence the same report.
-/

namespace DocShell

open Text (ControlFree)

/-! ## Names -/

/-- The table of word characters begins after the last control character. -/
theorem Text.isControl_of_isWord {c : Char} (h : isWord c = true) : isControl c = false := by
  have hhigh : ∀ r ∈ wordRanges, 0x9F < r.1 := by decide +kernel
  simp only [isWord, Bool.or_eq_true, Ranges.covers_iff] at h
  rcases h with h | ⟨r, hr, hfirst, -⟩
  · have hword : Word.isWordChar c = true := by
      simpa [Word.isWordChar] using Or.inl (b := c = '$') h
    have hrange := Word.toNat_of_isWordChar hword
    exact isControl_of_visible (by omega) (by omega)
  · have := hhigh r hr
    simp only [isControl, Bool.or_eq_false_iff, Bool.and_eq_false_iff, decide_eq_false_iff_not]
    omega

theorem Shape.isControl_of_isNameChar {c : Char} (h : isNameChar c = true) :
    Text.isControl c = false := by
  simp only [isNameChar, Bool.or_eq_true, beq_iff_eq] at h
  rcases h with h | rfl
  · exact Text.isControl_of_isWord h
  · decide

theorem Shape.IsPart.controlFree {t : List Char} (h : IsPart t) : ControlFree t := by
  obtain ⟨first, more, rfl, hfirst, hmore, -⟩ := h
  refine Text.controlFree_cons.mpr ⟨isControl_of_isNameChar (isNameChar_of_isInitial hfirst), ?_⟩
  intro c hc
  rcases hmore c hc with hname | rfl
  · exact isControl_of_isNameChar hname
  · decide

theorem Shape.controlFree_joinParts {parts : List (List Char)} (h : ∀ t ∈ parts, IsPart t) :
    ControlFree (joinParts parts) := by
  intro c hc
  rcases Text.mem_intercalate hc with rfl | ⟨t, ht, hc⟩
  · decide
  · exact (h t ht).controlFree c hc

theorem Method.controlFree_name (m : Method) : ControlFree m.name.toList := fun c hc =>
  Shape.isControl_of_isNameChar
    (Shape.isNameChar_of_isMethodName (Command.isMethodName_name m) c hc)

/-! ## Commands that were read -/

namespace Command

variable {s : String} {c : Command}

theorem controlFree_argumentChars (primary : Value) (secondary : Option Value) :
    ControlFree (argumentChars primary secondary) := by
  unfold argumentChars
  cases secondary with
  | none => simp [primary.controlFree_chars]
  | some v => simp [primary.controlFree_chars, v.controlFree_chars, isControl_of_mark]

theorem controlFree_collection (h : parse s = .ok c) : ControlFree c.collection.toList := by
  obtain ⟨w₁, parts, method, w₂, arguments, w₃, -, -, -, -, -, hparts, -, hcollection, -⟩ :=
    parse_iff_names.mp h
  rw [hcollection, String.toList_ofList]
  exact Shape.controlFree_joinParts hparts

/-- The canonical text of a command that was read has no control characters. -/
theorem controlFree_text (h : parse s = .ok c) : ControlFree c.text.toList := by
  have hdb : ControlFree "db.".toList := by decide
  have harguments := controlFree_argumentChars c.primary c.secondary
  rw [text, String.toList_ofList, chars_eq]
  simp only [Text.controlFree_append, Text.controlFree_cons]
  exact ⟨⟨⟨hdb, controlFree_collection h⟩, by decide, c.method.controlFree_name⟩, by decide,
    harguments, by decide, Text.controlFree_nil⟩

end Command

namespace Report

/-! ## Lines -/

/-- The lines of a text in which every line is ended. -/
def endedLines? (text : String) : Option (List String) :=
  let pieces := Text.pieces '\n' text.toList
  if pieces.getLast? = some [] then some (pieces.dropLast.map String.ofList) else none

theorem unlines_cons (line : String) (lines : List String) :
    unlines (line :: lines) = line ++ "\n" ++ unlines lines := by
  rw [← String.toList_inj]
  simp [unlines, String.toList_join]

theorem pieces_unlines {lines : List String} (h : ∀ line ∈ lines, '\n' ∉ line.toList) :
    Text.pieces '\n' (unlines lines).toList = lines.map String.toList ++ [[]] := by
  induction lines with
  | nil => rfl
  | cons line lines ih =>
      have hline := h line (List.mem_cons_self ..)
      have hrest := ih fun l hl => h l (List.mem_cons_of_mem line hl)
      have hchars : (unlines (line :: lines)).toList =
          line.toList ++ '\n' :: (unlines lines).toList := by
        rw [unlines_cons]
        simp
      rw [hchars, Text.pieces_append hline, hrest, List.map_cons, List.cons_append]

/-- Lines without line breaks, each with its end, are found again. -/
theorem endedLines?_unlines {lines : List String} (h : ∀ line ∈ lines, '\n' ∉ line.toList) :
    endedLines? (unlines lines) = some lines := by
  have hofList : String.ofList ∘ String.toList = id := funext fun _ => String.ofList_toList
  unfold endedLines?
  dsimp only
  rw [pieces_unlines h, List.getLast?_concat, if_pos rfl, List.dropLast_concat, List.map_map,
    hofList, List.map_id]

/-! ## Text reports -/

theorem controlFree_level (level : SafetyLevel) : ControlFree level.name.toList := by
  cases level <;> decide

theorem controlFree_warnings : ∀ w ∈ [Classification.deleteWarning,
    Classification.deleteAllWarning, Classification.updateAllWarning], ControlFree w.toList := by
  decide +kernel

theorem controlFree_warning {c : Command} {w : String}
    (h : (Classification.ofCommand c).warning = some w) : ControlFree w.toList := by
  apply controlFree_warnings w
  -- Each method gives one of the three warnings or none.
  rw [Classification.ofCommand] at h
  unfold Classification.warningFor at h
  split at h
  · split_ifs at h <;> simp [← Option.some.inj h]
  · simp [← Option.some.inj h]
  · split_ifs at h
    simp [← Option.some.inj h]
  · contradiction

theorem controlFree_labelled {label t : String} (hlabel : ControlFree label.toList)
    (ht : ControlFree t.toList) : ControlFree (label ++ t).toList := by
  rw [String.toList_append]
  exact Text.controlFree_append.mpr ⟨hlabel, ht⟩

/-- No line of the report on a command that was read has a control character. -/
theorem controlFree_textLines {s : String} {c : Command} (h : Command.parse s = .ok c) :
    ∀ line ∈ textLines c (.ofCommand c), ControlFree line.toList := by
  intro line hline
  simp only [textLines, List.mem_append, List.mem_cons, List.not_mem_nil, or_false, List.mem_map,
    Option.mem_toList] at hline
  rcases hline with (rfl | rfl | rfl | rfl) | ⟨w, hw, rfl⟩
  · exact Command.controlFree_text h
  · exact controlFree_labelled (by decide) (Command.controlFree_collection h)
  · exact controlFree_labelled (by decide) c.method.controlFree_name
  · exact controlFree_labelled (by decide) (controlFree_level _)
  · exact controlFree_labelled (by decide) (controlFree_warning hw)

/-- The lines of a text report are those that were written. -/
theorem endedLines?_render {s : String} {c : Command} (h : Command.parse s = .ok c)
    (layout : JsonLayout) :
    endedLines? (render c (.ofCommand c) .text layout) = some (textLines c (.ofCommand c)) :=
  endedLines?_unlines fun line hline => (controlFree_textLines h line hline).not_mem (by decide)

/-- The text report on a command that was read has four lines, or five if there is a warning, and
its first line is the canonical text, which holds no control character; the report on that line
is the same report. -/
theorem render_text_lines (s : String) (c : Command) (h : Command.parse s = .ok c)
    (layout : JsonLayout) :
    (∀ ch ∈ c.text.toList, Text.isControl ch = false) ∧
    ∃ lines, endedLines? (render c (.ofCommand c) .text layout) = some lines ∧
      lines = [c.text,
        "collection: " ++ c.collection,
        "method:     " ++ c.method.name,
        "safety:     " ++ (Classification.ofCommand c).level.name] ++
        (Classification.ofCommand c).warning.toList.map ("warning:    " ++ ·) ∧
      lines.length = (if (Classification.ofCommand c).warning.isSome then 5 else 4) ∧
      ∃ first d, lines.head? = some first ∧ Command.parse first = .ok d ∧ ∀ other,
        render d (.ofCommand d) .text other = render c (.ofCommand c) .text layout := by
  refine ⟨Command.controlFree_text h, _, endedLines?_render h layout, rfl, ?_, ?_⟩
  · unfold textLines
    cases (Classification.ofCommand c).warning <;> rfl
  · refine ⟨c.text, _, rfl, Command.parse_canonicalText h, fun other => ?_⟩
    -- Nothing in the report depends on the text the command was read from.
    unfold render textLines Command.text Command.chars
    rfl

/-- Line breaks and other control characters by themselves and by escapes, a string that goes on
in the next line, and a name beyond ASCII. -/
theorem render_text_lines_deleteMany :
    ∃ c, Command.parse " db.caf\u00e9.deleteMany (\x7b'a\\n': \"\u0085\\x7f\\\n.\"\x7d)\n" = .ok c ∧
      c.text = "db.caf\u00e9.deleteMany(\x7b \"a\\n\": \"\\u0085\\u007f.\" \x7d)" ∧
      ∃ lines, endedLines? (render c (.ofCommand c) .text .pretty) = some lines ∧
        lines.length = 5 := by
  have hread : (Command.parse
      " db.caf\u00e9.deleteMany (\x7b'a\\n': \"\u0085\\x7f\\\n.\"\x7d)\n").toOption.map
        (fun c => (c.text, (Classification.ofCommand c).warning.isSome)) =
      some ("db.caf\u00e9.deleteMany(\x7b \"a\\n\": \"\\u0085\\u007f.\" \x7d)", true) := by
    decide +kernel
  obtain ⟨c, hparse, hc⟩ := Except.exists_of_toOption_map hread
  obtain ⟨htext, hwarning⟩ := Prod.mk.inj hc
  obtain ⟨-, lines, hlines, -, hlength, -⟩ := render_text_lines _ c hparse .pretty
  rw [if_pos hwarning] at hlength
  exact ⟨c, hparse, htext, lines, hlines, hlength⟩

end Report

end DocShell
