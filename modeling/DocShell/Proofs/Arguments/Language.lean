import DocShell.Proofs.Arguments.Places

set_option autoImplicit false

/-! # The language of argument lists

A list is cut if and only if it is blank, or it is made up of balanced segments that are not
blank, with commas between them. That such lists are cut is the scan of balanced text. For the
other direction a run keeps the invariant `Follows`: what it has read is the finished segments,
each balanced and with its comma, and the present one, which is balanced up to the brackets and
the string that are open (`Scan.Agrees`).

The arguments are the segments without the white space around them. They stand in the list one
after the other, and what is left of the list without them is white space and the commas.
-/

namespace DocShell.Arguments

open Text (isBlank isSpace)

/-! ## Text that is not yet balanced -/

/-- Balanced text with brackets left open, and balanced text after each of them. The open
brackets are told by what closes them, the innermost first. -/
inductive Unclosed : List Char → List Char → Prop
  | whole {t : List Char} (ht : Balanced false t) : Unclosed [] t
  | opened {closings t inside : List Char} {opening closing : Char} (ht : Unclosed closings t)
      (hclosing : closing? opening = some closing) (hinside : Balanced true inside) :
      Unclosed (closing :: closings) (t ++ opening :: inside)

/-- What stands after the quote of a string that is not closed. If the next character is
`escaped`, the text ends with the backslash before it. -/
inductive PartialBody (quote : Char) : (escaped : Bool) → List Char → Prop
  | plain {b : List Char} (hb : StringBody quote b) : PartialBody quote false b
  | slash {b : List Char} (hb : StringBody quote b) : PartialBody quote true (b ++ ['\\'])

variable {commas : Bool} {closings t u : List Char}

/-- A comma is text like any other where a bracket is open. -/
theorem Unclosed.append (ht : Unclosed closings t) (hu : Balanced commas u)
    (hcommas : commas = true → closings ≠ []) : Unclosed closings (t ++ u) := by
  cases ht with
  | whole ht =>
      cases commas with
      | false => exact .whole (ht.append hu)
      | true => exact absurd rfl (hcommas rfl)
  | opened ht hclosing hinside =>
      rw [List.append_assoc, List.cons_append]
      exact .opened ht hclosing (hinside.append hu.inside)

/-- The closing bracket makes the text since the opening one balanced. -/
theorem Unclosed.close {closing : Char} (h : Unclosed (closing :: closings) t) :
    Unclosed closings (t ++ [closing]) := by
  cases h with
  | @opened _ t inside opening _ ht hclosing hinside =>
      have hbracket : Balanced false (opening :: inside ++ [closing]) :=
        .bracket hclosing hinside .nil
      rw [List.append_assoc]
      exact ht.append hbracket (by simp)

theorem Unclosed.balanced (h : Unclosed [] t) : Balanced false t := by
  cases h with
  | whole ht => exact ht

/-- A character goes on with the string, or it is the quote that ends it. -/
theorem PartialBody.step {string : OpenString} {b : List Char}
    (h : PartialBody string.quote string.escaped b) (c : Char) :
    (∃ escaped, string.step c = some { string with escaped := escaped } ∧
      PartialBody string.quote escaped (b ++ [c])) ∨
    (string.step c = none ∧ c = string.quote ∧ StringBody string.quote b) := by
  obtain ⟨quote, start, escaped⟩ := string
  cases h with
  | slash hb =>
      refine .inl ⟨false, by simp [OpenString.step], .plain ?_⟩
      rw [List.append_assoc]
      exact hb.append (.escape .nil)
  | plain hb =>
      by_cases hslash : c = '\\'
      · subst hslash
        exact .inl ⟨true, by simp [OpenString.step], .slash hb⟩
      · by_cases hquote : c = quote
        · subst hquote
          exact .inr ⟨by simp [OpenString.step, hslash], rfl, hb⟩
        · refine .inl ⟨false, by simp [OpenString.step, hslash, hquote], .plain ?_⟩
          exact hb.append (.plain hquote hslash .nil)

/-! ## What a scan knows of the present segment -/

namespace Scan

/-- The present segment is balanced up to the brackets and the string that are open. -/
inductive Agrees (s : Scan) : Prop
  | outside (hstring : s.string = none)
      (hsegment : Unclosed (s.brackets.map OpenBracket.closing) s.segment.reverse) : Agrees s
  | inside {string : OpenString} {t b : List Char} (hstring : s.string = some string)
      (hquote : Quoted.isQuote string.quote = true)
      (ht : Unclosed (s.brackets.map OpenBracket.closing) t)
      (hb : PartialBody string.quote string.escaped b)
      (hsegment : s.segment.reverse = t ++ string.quote :: b) : Agrees s

theorem agrees_initial : Agrees initial := .outside rfl (.whole .nil)

theorem Agrees.unclosed {s : Scan} (h : s.Agrees) (hstring : s.string = none) :
    Unclosed (s.brackets.map OpenBracket.closing) s.segment.reverse := by
  cases h with
  | outside _ hsegment => exact hsegment
  | inside hstring' =>
      rw [hstring] at hstring'
      contradiction

/-- Where nothing is open, the present segment is balanced. -/
theorem Agrees.balanced {s : Scan} (h : s.Agrees) (hstring : s.string = none)
    (hbrackets : s.brackets = []) : Balanced false s.segment.reverse := by
  have hunclosed := h.unclosed hstring
  rw [hbrackets] at hunclosed
  exact hunclosed.balanced

/-- Inside a string the scan goes on with it, or closes it. -/
theorem Agrees.inside_string {s : Scan} (h : s.Agrees) {string : OpenString} (c : Char)
    (hstring : s.string = some string) :
    Agrees { s.push c with string := string.step c } := by
  cases h with
  | outside hnone =>
      rw [hstring] at hnone
      contradiction
  | @inside string' t b hstring' hquote ht hb hsegment =>
      obtain rfl := Option.some.inj (hstring.symm.trans hstring')
      have hread : (c :: s.segment).reverse = t ++ string.quote :: (b ++ [c]) := by
        rw [List.reverse_cons, hsegment, List.append_assoc, List.cons_append]
      rcases hb.step c with ⟨escaped, hstep, hb'⟩ | ⟨hstep, rfl, hbody⟩
      · rw [hstep]
        exact .inside rfl hquote ht hb' hread
      · rw [hstep]
        refine .outside rfl ?_
        have hwhole : Balanced false (string.quote :: b ++ [string.quote]) :=
          .string hquote hbody .nil
        show Unclosed _ (string.quote :: s.segment).reverse
        rw [hread]
        exact ht.append hwhole (by simp)

/-- A step keeps the agreement. -/
theorem Agrees.step {s s' : Scan} {c : Char} (h : s.Agrees) (hstep : s.step c = .ok s') :
    s'.Agrees := by
  have hread : (s.push c).segment.reverse = s.segment.reverse ++ [c] := List.reverse_cons
  cases reads_of_step hstep with
  | inside hstring => exact h.inside_string c hstring
  | quote hstring hquote =>
      exact .inside rfl hquote (h.unclosed hstring) (.plain .nil) hread
  | @opening closing hstring hclosing =>
      refine .outside hstring ?_
      show Unclosed (closing :: _) (s.push c).segment.reverse
      rw [hread]
      exact .opened (h.unclosed hstring) hclosing .nil
  | closing hstring hbrackets =>
      have hunclosed := h.unclosed hstring
      rw [hbrackets] at hunclosed
      refine .outside hstring ?_
      show Unclosed _ (s.push c).segment.reverse
      rw [hread]
      exact hunclosed.close
  | cut hstring _ hbrackets hcut =>
      -- The next segment begins, and nothing is open.
      obtain ⟨-, rfl⟩ := cut_eq_ok hcut
      refine .outside hstring ?_
      show Unclosed (s.brackets.map _) []
      rw [hbrackets]
      exact .whole .nil
  | comma hstring hcomma hbrackets =>
      subst hcomma
      have hcommas : s.brackets.map OpenBracket.closing ≠ [] := by simpa using hbrackets
      refine .outside hstring ?_
      rw [hread]
      exact (h.unclosed hstring).append (.comma .nil) fun _ => hcommas
  | ordinary hstring hc =>
      have hbalanced : Balanced false [c] := .ordinary hc .nil
      refine .outside hstring ?_
      rw [hread]
      exact (h.unclosed hstring).append hbalanced (by simp)

end Scan

/-! ## The segments of a list that is cut -/

/-- What a scan has read, `text`, is the finished segments and the present one. -/
structure Tiles (text : List Char) (segments : List (List Char)) (s : Scan) : Prop where
  text_eq : text = joinSegments segments ++ s.segment.reverse
  not_blank : ∀ t ∈ segments, isBlank t = false
  fragments_eq : s.fragments.reverse = tile 0 segments
  start_eq : s.start = Text.size (joinSegments segments)
  offset_eq : s.offset = Text.size text

theorem tiles_initial : Tiles [] [] Scan.initial :=
  ⟨rfl, by simp, rfl, rfl, rfl⟩

/-- A character that is added belongs to the present segment. -/
theorem Tiles.push {text : List Char} {segments : List (List Char)} {s s' : Scan} {c : Char}
    (h : Tiles text segments s) (hfragments : s'.fragments = s.fragments)
    (hstart : s'.start = s.start) (hsegment : s'.segment = c :: s.segment)
    (hoffset : s'.offset = s.offset + c.utf8Size) : Tiles (text ++ [c]) segments s' := by
  refine ⟨?_, h.not_blank, ?_, ?_, ?_⟩
  · rw [hsegment, List.reverse_cons, ← List.append_assoc, ← h.text_eq]
  · rw [hfragments, h.fragments_eq]
  · rw [hstart, h.start_eq]
  · rw [hoffset, h.offset_eq, Text.size_append]
    rfl

/-- A comma at which the list is cut ends the present segment. -/
theorem Tiles.cut {text : List Char} {segments : List (List Char)} {s s' : Scan}
    (h : Tiles text segments s) (hcut : s.cut = .ok s') :
    Tiles (text ++ [',']) (segments ++ [s.segment.reverse]) s' := by
  obtain ⟨hblank, rfl⟩ := Scan.cut_eq_ok hcut
  have htext : text ++ [','] = joinSegments (segments ++ [s.segment.reverse]) := by
    rw [joinSegments_append_singleton, ← h.text_eq]
  have hoffset : s.offset + 1 = Text.size (text ++ [',']) := by
    rw [Text.size_append, h.offset_eq]
    rfl
  refine ⟨?_, ?_, ?_, ?_, hoffset⟩
  · simpa using htext
  · intro t ht
    rcases List.mem_append.mp ht with ht | ht
    · exact h.not_blank t ht
    · rw [List.mem_singleton.mp ht]
      exact hblank
  · rw [List.reverse_cons, h.fragments_eq, tile_append_singleton, Nat.zero_add, ← h.start_eq]
  · rw [← htext]
    exact hoffset

/-- The finished segments are balanced, and the present one is up to what is open. -/
structure Follows (text : List Char) (segments : List (List Char)) (s : Scan) : Prop
    extends Tiles text segments s where
  balanced : ∀ t ∈ segments, Balanced false t
  agrees : s.Agrees

/-- A step keeps the invariant. -/
theorem follows_step {text : List Char} {segments : List (List Char)} {s s' : Scan} {c : Char}
    (h : Follows text segments s) (hstep : s.step c = .ok s') :
    ∃ segments', Follows (text ++ [c]) segments' s' := by
  have hagrees := h.agrees.step hstep
  rcases Scan.step_cases hstep with
    ⟨hfragments, hstart, hsegment, hoffset⟩ | ⟨rfl, hstring, hbrackets, hcut⟩
  · exact ⟨segments, h.push hfragments hstart hsegment hoffset, h.balanced, hagrees⟩
  · -- The list is cut only where nothing is open, so the segment that ends here is balanced.
    refine ⟨segments ++ [s.segment.reverse], h.cut hcut, ?_, hagrees⟩
    intro t ht
    rcases List.mem_append.mp ht with ht | ht
    · exact h.balanced t ht
    · rw [List.mem_singleton.mp ht]
      exact h.agrees.balanced hstring hbrackets

/-- A run from the beginning of the text keeps the invariant. -/
theorem follows_run {cs : List Char} {s : Scan} (h : cs.foldlM Scan.step Scan.initial = .ok s) :
    ∃ segments, Follows cs segments s := by
  have hinitial : Follows [] [] Scan.initial := ⟨tiles_initial, by simp, Scan.agrees_initial⟩
  refine Except.foldlM_invariant (P := fun read s => ∃ segments, Follows read segments s)
    ?_ [] ⟨[], hinitial⟩ h
  rintro read c s s' ⟨segments, hfollows⟩ hstep
  exact follows_step hfollows hstep

/-- A list that is cut is blank, or it is made up of the segments that are cut off. -/
theorem exists_segments_of_split {cs : List Char} {fragments : List Fragment}
    (h : split cs = .ok fragments) :
    (isBlank cs = true ∧ fragments = []) ∨
      ∃ segments, segments ≠ [] ∧ cs = List.intercalate [','] segments ∧
        (∀ t ∈ segments, Balanced false t) ∧ (∀ t ∈ segments, isBlank t = false) ∧
        fragments = tile 0 segments := by
  obtain ⟨s, hscan, hfinish⟩ := Except.bind_eq_ok_iff.mp h
  obtain ⟨segments, hfollows⟩ := follows_run hscan
  obtain ⟨hstring, hbrackets, hend⟩ := Scan.finish_eq_ok hfinish
  rcases hend with ⟨hfragments, hblank, rfl⟩ | ⟨hblank, rfl⟩
  · have hsegments : segments = [] := by
      have hlength := congrArg List.length hfollows.fragments_eq
      rw [hfragments, length_tile] at hlength
      exact List.eq_nil_of_length_eq_zero hlength.symm
    refine .inl ⟨?_, rfl⟩
    rw [hfollows.text_eq, hsegments]
    simpa [joinSegments, isBlank_reverse] using hblank
  · -- The last segment has no comma after it, so it was not yet among the finished ones.
    have hlast : Balanced false s.segment.reverse := hfollows.agrees.balanced hstring hbrackets
    refine .inr ⟨segments ++ [s.segment.reverse], by simp, ?_, ?_, ?_, ?_⟩
    · rw [intercalate_append_singleton, ← hfollows.text_eq]
    · simpa [or_imp, forall_and] using ⟨hfollows.balanced, hlast⟩
    · simpa [or_imp, forall_and] using ⟨hfollows.not_blank, hblank⟩
    · rw [hfollows.fragments_eq, tile_append_singleton, Nat.zero_add, ← hfollows.start_eq]

/-- The arguments are cut from balanced segments that are not blank. -/
theorem split_eq_ok_iff {cs : List Char} {fragments : List Fragment} :
    split cs = .ok fragments ↔
      (isBlank cs = true ∧ fragments = []) ∨
        ∃ segments, segments ≠ [] ∧ cs = List.intercalate [','] segments ∧
          (∀ t ∈ segments, Balanced false t) ∧ (∀ t ∈ segments, isBlank t = false) ∧
          fragments = tile 0 segments := by
  constructor
  · exact exists_segments_of_split
  · rintro (⟨hblank, rfl⟩ | ⟨segments, hne, rfl, hbalanced, hblank, rfl⟩)
    · exact split_of_blank hblank
    · exact split_intercalate hne hbalanced hblank

/-- At the end of a list that is cut nothing is open, so no closing bracket can follow. -/
theorem split_append_closing {cs rest : List Char} {c : Char} {fragments : List Fragment}
    (h : split cs = .ok fragments) (hc : isClosing c = true) (fragments' : List Fragment) :
    split (cs ++ c :: rest) ≠ .ok fragments' := by
  intro hall
  obtain ⟨s, hscan, hfinish⟩ := Except.bind_eq_ok_iff.mp h
  obtain ⟨hstring, hbrackets, -⟩ := Scan.finish_eq_ok hfinish
  obtain ⟨s', hscan', -⟩ := Except.bind_eq_ok_iff.mp hall
  rw [Scan.foldlM_append_of_foldlM hscan, List.foldlM_cons, Except.bind_eq_ok_iff] at hscan'
  obtain ⟨s₁, hstep, -⟩ := hscan'
  simp only [isClosing, Bool.or_eq_true, beq_iff_eq] at hc
  have herror : s.step c = .error ⟨.unbalanced c, some s.offset⟩ := by
    rcases hc with (rfl | rfl) | rfl
    all_goals simp [Scan.step, hstring, Scan.close, hbrackets, Quoted.isQuote, closing?, isClosing]
  rw [herror] at hstep
  contradiction

/-- The list holds the arguments that are cut from it at their offsets. -/
theorem isAt_of_split {cs : List Char} {fragments : List Fragment} (h : split cs = .ok fragments)
    {f : Fragment} (hf : f ∈ fragments) : f.IsAt cs := by
  rcases exists_segments_of_split h with ⟨-, rfl⟩ | ⟨segments, -, rfl, -, -, rfl⟩
  · contradiction
  · have hmem : f ∈ tile (Text.size []) segments := hf
    exact isAt_of_mem_tile hmem

/-- The arguments stand one after the other, with a comma between any two. -/
theorem pairwise_of_split {cs : List Char} {fragments : List Fragment}
    (h : split cs = .ok fragments) : fragments.Pairwise fun f g => f.stop < g.offset := by
  rcases exists_segments_of_split h with ⟨-, rfl⟩ | ⟨segments, -, -, -, -, rfl⟩
  · exact .nil
  · exact pairwise_tile 0 segments

/-- Outside of the arguments there is white space, and one comma less than there are arguments. -/
theorem filter_outside_of_split {cs : List Char} {fragments : List Fragment}
    (h : split cs = .ok fragments) :
    (outside fragments 0 cs).filter (fun c => !isSpace c) =
      List.replicate (fragments.length - 1) ',' := by
  rcases exists_segments_of_split h with ⟨hblank, rfl⟩ | ⟨segments, -, rfl, -, -, rfl⟩
  · have hall : outside [] 0 cs = cs := outside_of_free (by simp)
    rw [hall, filter_blank hblank]
    rfl
  · rw [length_tile]
    exact filter_outside_tile 0 segments (List.forall_mem_nil _)

/-- A list is cut if and only if it is blank or made up of balanced segments that are not blank.
The arguments are the segments without the white space around them, at their places in the list;
they do not meet, and outside of them there are white space and commas only. -/
theorem split_iff_balanced (cs : List Char) (fragments : List Fragment) :
    (split cs = .ok fragments ↔
      (isBlank cs = true ∧ fragments = []) ∨
        ∃ segments, segments ≠ [] ∧ cs = List.intercalate [','] segments ∧
          (∀ t ∈ segments, isBlank t = false ∧ Balanced false t) ∧
          fragments.length = segments.length ∧
          ∀ i t f, segments[i]? = some t → fragments[i]? = some f →
            IsCut (joinSegments (segments.take i)) t f) ∧
    (split cs = .ok fragments →
      (∀ f ∈ fragments, f.IsAt cs) ∧ (fragments.Pairwise fun f g => f.stop < g.offset) ∧
      (outside fragments 0 cs).filter (fun c => !isSpace c) =
        List.replicate (fragments.length - 1) ',') := by
  constructor
  · rw [split_eq_ok_iff]
    apply or_congr_right
    apply exists_congr
    intro segments
    constructor
    · rintro ⟨hne, hcs, hbalanced, hblank, hfragments⟩
      exact ⟨hne, hcs, fun t ht => ⟨hblank t ht, hbalanced t ht⟩,
        (eq_tile_iff hblank).mp hfragments⟩
    · rintro ⟨hne, hcs, hsegments, hcut⟩
      have hblank : ∀ t ∈ segments, isBlank t = false := fun t ht => (hsegments t ht).1
      exact ⟨hne, hcs, fun t ht => (hsegments t ht).2, hblank, (eq_tile_iff hblank).mpr hcut⟩
  · intro h
    exact ⟨fun f hf => isAt_of_split h hf, pairwise_of_split h, filter_outside_of_split h⟩

/-- Commas, brackets and quotes in a string and in brackets, and characters of more than one
byte. -/
theorem split_iff_balanced_nested :
    ∃ cs fragments, split cs = .ok fragments ∧ fragments.map Fragment.offset = [1, 11] ∧
      (∀ f ∈ fragments, f.IsAt cs) ∧ (fragments.Pairwise fun f g => f.stop < g.offset) ∧
      (outside fragments 0 cs).filter (fun c => !isSpace c) = [','] := by
  have hsplit : split " '\u00e9,)'\u3000,[1, ('\\'', \x7b\x7d)]\n".toList =
      .ok [⟨"'\u00e9,)'", 1⟩, ⟨"[1, ('\\'', \x7b\x7d)]", 11⟩] := by
    decide +kernel
  exact ⟨_, _, hsplit, rfl, (split_iff_balanced _ _).2 hsplit⟩

end DocShell.Arguments
