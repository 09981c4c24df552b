import DocShell.Proofs.Arguments.Faults
import DocShell.Proofs.Arguments.Language

set_option autoImplicit false

/-! # The beginning at which a list is refused

A beginning of a list is `Viable` if some continuation makes it a list that is cut. A scan stops
at the first character that makes a beginning not viable, and for a reason that can be read off
the text before it: `Outside` says which brackets of a text are open, outside of all strings. Where
all beginnings are viable, the list ends too early: inside a string, inside a bracket, or after a
comma.

That a scan goes on means that its text is viable (`viable_iff`): what is open can be closed, and
one more character makes a blank argument a whole one. Each way in which a text can end gives one
error (`split_of_endsInString`, `split_of_endsInBracket`), so the error tells how it ends.
-/

namespace DocShell.Arguments

open Text (isBlank)

/-! ## Notions -/

/-- Some continuation of the text is a list that is cut. -/
def Viable (cs : List Char) : Prop :=
  ∃ more fragments, split (cs ++ more) = .ok fragments

/-- `front` with the character after it is the shortest beginning of the text that is not
viable. -/
structure BreaksAt (cs front : List Char) (c : Char) : Prop where
  isPrefix : front ++ [c] <+: cs
  not_viable : ¬ Viable (front ++ [c])
  shortest : ∀ beginning, beginning <+: cs → ¬ Viable beginning → front ++ [c] <+: beginning

/-- The text is whole arguments, each with its comma, and then one in which the brackets are open
that `closings` would close, the innermost first. It ends outside of all strings. -/
def Outside (closings text : List Char) : Prop :=
  ∃ segments last, text = joinSegments segments ++ last ∧
    (∀ t ∈ segments, Balanced false t) ∧ (∀ t ∈ segments, isBlank t = false) ∧
    Unclosed closings last

/-- The text ends inside the string that begins at the place. -/
def EndsInString (text : List Char) (place : Nat) : Prop :=
  ∃ closings before quote escaped body, text = before ++ quote :: body ∧
    Outside closings before ∧ Quoted.isQuote quote = true ∧ PartialBody quote escaped body ∧
    place = Text.size before

/-- The text ends outside of all strings, and the innermost open bracket stands at the place. -/
def EndsInBracket (text : List Char) (closing : Char) (place : Nat) : Prop :=
  ∃ closings before opening inside, text = before ++ opening :: inside ∧
    Outside closings before ∧ closing? opening = some closing ∧ Balanced true inside ∧
    place = Text.size before

/-- The text ends with a comma outside of all brackets and strings, and white space that begins at
the place. -/
def EndsInComma (text : List Char) (place : Nat) : Prop :=
  ∃ before w, text = before ++ ',' :: w ∧ Outside [] before ∧ isBlank w = true ∧
    place = Text.size before + 1

/-- The last argument of the text is blank and begins at the place, which is that of the text or
one past a comma. -/
def EndsBlank (text : List Char) (place : Nat) : Prop :=
  (isBlank text = true ∧ place = 0) ∨ EndsInComma text place

variable {closings t : List Char}

/-! ## Text that is continued -/

/-- Closing what is open makes the text balanced. -/
theorem Unclosed.append_closings (h : Unclosed closings t) : Balanced false (t ++ closings) := by
  induction closings generalizing t with
  | nil =>
      rw [List.append_nil]
      exact h.balanced
  | cons closing closings ih =>
      have hrest := ih h.close
      rwa [List.append_assoc, List.singleton_append] at hrest

/-- A string that is not closed can be. -/
theorem PartialBody.exists_stringBody {quote : Char} {escaped : Bool} {b : List Char}
    (h : PartialBody quote escaped b) : ∃ more, StringBody quote (b ++ more) := by
  cases h with
  | plain hb => exact ⟨[], by rwa [List.append_nil]⟩
  | @slash b hb =>
      refine ⟨['x'], ?_⟩
      rw [List.append_assoc]
      exact hb.append (.escape .nil)

/-- The present argument can be completed. -/
theorem Scan.Agrees.exists_balanced {s : Scan} (h : s.Agrees) :
    ∃ more, Balanced false (s.segment.reverse ++ more) := by
  cases h with
  | outside _ hsegment => exact ⟨_, hsegment.append_closings⟩
  | @inside string t b _ hquote ht hb hsegment =>
      obtain ⟨more, hbody⟩ := hb.exists_stringBody
      have hstring : Balanced false (string.quote :: (b ++ more) ++ [string.quote]) :=
        .string hquote hbody .nil
      have hclosed := (ht.append hstring (by simp)).append_closings
      refine ⟨more ++ string.quote :: s.brackets.map OpenBracket.closing, ?_⟩
      rw [hsegment]
      simpa using hclosed

theorem viable_of_run {cs : List Char} {s : Scan}
    (h : cs.foldlM Scan.step Scan.initial = .ok s) : Viable cs := by
  obtain ⟨segments, hfollows⟩ := follows_run h
  obtain ⟨more, hmore⟩ := hfollows.agrees.exists_balanced
  have hdigit : Balanced false ['0'] := .ordinary (by decide) .nil
  -- With one more character the last argument is not blank either.
  have hlast : Balanced false (s.segment.reverse ++ (more ++ ['0'])) := by
    rw [← List.append_assoc]
    exact hmore.append hdigit
  have hsolid : isBlank (s.segment.reverse ++ (more ++ ['0'])) = false := by
    have hzero : Text.isSpace '0' = false := by decide
    simp [hzero]
  have hne : segments ++ [s.segment.reverse ++ (more ++ ['0'])] ≠ [] := by simp
  have hsplit := split_intercalate hne
    (List.forall_mem_append.mpr ⟨hfollows.balanced, List.forall_mem_singleton.mpr hlast⟩)
    (List.forall_mem_append.mpr ⟨hfollows.not_blank, List.forall_mem_singleton.mpr hsolid⟩)
  rw [intercalate_append_singleton, ← List.append_assoc, ← hfollows.text_eq] at hsplit
  exact ⟨_, _, hsplit⟩

/-- A scan goes through the texts that are viable, and through no others. -/
theorem viable_iff {cs : List Char} :
    Viable cs ↔ ∃ s, cs.foldlM Scan.step Scan.initial = .ok s := by
  constructor
  · rintro ⟨more, fragments, hsplit⟩
    obtain ⟨s, hrun, -⟩ := Except.bind_eq_ok_iff.mp hsplit
    rw [List.foldlM_append, Except.bind_eq_ok_iff] at hrun
    obtain ⟨s₁, hcs, -⟩ := hrun
    exact ⟨s₁, hcs⟩
  · rintro ⟨s, h⟩
    exact viable_of_run h

theorem Viable.of_isPrefix {cs beginning : List Char} (h : Viable cs) (hbegins : beginning <+: cs) :
    Viable beginning := by
  obtain ⟨rest, rfl⟩ := hbegins
  obtain ⟨more, fragments, hsplit⟩ := h
  exact ⟨rest ++ more, fragments, by rwa [← List.append_assoc]⟩

/-- The character that a scan refuses makes the beginning not viable. -/
theorem breaksAt_of_step {front rest : List Char} {c : Char} {s : Scan} {e : SyntaxError}
    (hfront : front.foldlM Scan.step Scan.initial = .ok s) (hstep : s.step c = .error e) :
    BreaksAt (front ++ c :: rest) front c := by
  refine ⟨⟨rest, by simp⟩, ?_, ?_⟩
  · rw [viable_iff]
    rintro ⟨s', hrun⟩
    rw [Scan.foldlM_append_of_foldlM hfront, List.foldlM_cons, hstep] at hrun
    contradiction
  · intro beginning hbeginning hdead
    have hfirst : front ++ [c] <+: front ++ c :: rest := ⟨rest, by simp⟩
    rcases List.prefix_or_prefix_of_prefix hfirst hbeginning with h | h
    · exact h
    · -- A shorter beginning is one of `front`, which is viable.
      rcases List.prefix_concat_iff.mp h with rfl | hshorter
      · exact List.prefix_rfl
      · exact absurd ((viable_of_run hfront).of_isPrefix hshorter) hdead

/-! ## The scan of text that is not finished -/

namespace Scan

/-- A bracket is open until it is closed, whatever balanced text follows it. -/
theorem exists_run_bracket {s : Scan} {opening closing : Char} {inside : List Char}
    (hstring : s.string = none) (hclosing : closing? opening = some closing)
    (hinside : Balanced true inside) :
    ∃ s', (opening :: inside).foldlM step s = .ok s' ∧ s'.string = none ∧
      s'.brackets = ⟨closing, s.offset⟩ :: s.brackets := by
  rw [foldlM_cons_of_step (step_opening hstring hclosing)]
  exact ⟨_, foldlM_balanced hinside hstring (fun _ => List.cons_ne_nil _ _), hstring, rfl⟩

/-- A string is open after its quote until it is closed. -/
theorem exists_run_string {s : Scan} {quote : Char} {escaped : Bool} {body : List Char}
    (hstring : s.string = none) (hquote : Quoted.isQuote quote = true)
    (hbody : PartialBody quote escaped body) :
    ∃ s', (quote :: body).foldlM step s = .ok s' ∧ s'.string = some ⟨quote, s.offset, escaped⟩ := by
  rw [foldlM_cons_of_step (step_quote hstring hquote)]
  cases hbody with
  | plain hb => exact ⟨_, foldlM_stringBody hb rfl, rfl⟩
  | slash hb =>
      rw [foldlM_append_of_foldlM (foldlM_stringBody hb rfl)]
      refine ⟨_, foldlM_cons_of_step rfl [], ?_⟩
      simp [OpenString.step]

/-- Whole arguments leave nothing open. -/
theorem exists_run_joinSegments {segments : List (List Char)} {s : Scan}
    (hbalanced : ∀ t ∈ segments, Balanced false t) (hblank : ∀ t ∈ segments, isBlank t = false)
    (hsegment : s.segment = []) (hstring : s.string = none) (hbrackets : s.brackets = []) :
    ∃ s', (joinSegments segments).foldlM step s = .ok s' ∧ s'.string = none ∧
      s'.brackets = [] := by
  induction segments generalizing s with
  | nil => exact ⟨s, rfl, hstring, hbrackets⟩
  | cons segment segments ih =>
      obtain ⟨hhead, htail⟩ := List.forall_mem_cons.mp hbalanced
      obtain ⟨hsolid, hsolids⟩ := List.forall_mem_cons.mp hblank
      rw [joinSegments_cons, foldlM_segment hhead hsolid hsegment hstring hbrackets]
      exact ih (s := s.next segment) htail hsolids rfl hstring hbrackets

end Scan

/-- A scan goes through the text and keeps its open brackets. -/
theorem Unclosed.exists_run (h : Unclosed closings t) {s : Scan} (hstring : s.string = none)
    (hbrackets : s.brackets = []) :
    ∃ s', t.foldlM Scan.step s = .ok s' ∧ s'.string = none ∧
      s'.brackets.map OpenBracket.closing = closings := by
  induction h with
  | whole ht =>
      refine ⟨_, Scan.foldlM_balanced ht hstring (by simp), hstring, ?_⟩
      show s.brackets.map _ = []
      rw [hbrackets, List.map_nil]
  | opened _ hclosing hinside ih =>
      obtain ⟨s₁, hrun₁, hstring₁, hmap⟩ := ih
      obtain ⟨s', hrun, hstring', hopen⟩ := Scan.exists_run_bracket hstring₁ hclosing hinside
      rw [Scan.foldlM_append_of_foldlM hrun₁]
      refine ⟨s', hrun, hstring', ?_⟩
      rw [hopen, List.map_cons, hmap]

theorem Outside.exists_run (h : Outside closings t) :
    ∃ s, t.foldlM Scan.step Scan.initial = .ok s ∧ s.string = none ∧
      s.brackets.map OpenBracket.closing = closings ∧ s.offset = Text.size t := by
  obtain ⟨segments, last, rfl, hbalanced, hblank, hlast⟩ := h
  obtain ⟨s₁, hrun₁, hstring₁, hbrackets₁⟩ :=
    Scan.exists_run_joinSegments hbalanced hblank (s := Scan.initial) rfl rfl rfl
  obtain ⟨s, hrun, hstring, hbrackets⟩ := hlast.exists_run hstring₁ hbrackets₁
  have hall : (joinSegments segments ++ last).foldlM Scan.step Scan.initial = .ok s := by
    rw [Scan.foldlM_append_of_foldlM hrun₁, hrun]
  exact ⟨s, hall, hstring, hbrackets, (Scan.keepsPlaces_run hall).offset_eq⟩

/-! ## What a scan knows of the whole text -/

section Run

variable {cs : List Char} {s : Scan}

theorem outside_of_run (h : cs.foldlM Scan.step Scan.initial = .ok s) (hstring : s.string = none) :
    Outside (s.brackets.map OpenBracket.closing) cs := by
  obtain ⟨segments, hfollows⟩ := follows_run h
  exact ⟨segments, _, hfollows.text_eq, hfollows.balanced, hfollows.not_blank,
    hfollows.agrees.unclosed hstring⟩

theorem endsInString_of_run (h : cs.foldlM Scan.step Scan.initial = .ok s) {string : OpenString}
    (hstring : s.string = some string) : ∃ place, EndsInString cs place := by
  obtain ⟨segments, hfollows⟩ := follows_run h
  cases hfollows.agrees with
  | outside hnone =>
      rw [hstring] at hnone
      contradiction
  | @inside string t b _ hquote ht hb hsegment =>
      refine ⟨_, _, joinSegments segments ++ t, string.quote, string.escaped, b, ?_,
        ⟨segments, t, rfl, hfollows.balanced, hfollows.not_blank, ht⟩, hquote, hb, rfl⟩
      rw [hfollows.text_eq, hsegment, List.append_assoc]

theorem endsInBracket_of_run (h : cs.foldlM Scan.step Scan.initial = .ok s) {bracket : OpenBracket}
    {brackets : List OpenBracket} (hstring : s.string = none)
    (hbrackets : s.brackets = bracket :: brackets) :
    ∃ place, EndsInBracket cs bracket.closing place := by
  obtain ⟨segments, hfollows⟩ := follows_run h
  have hunclosed := hfollows.agrees.unclosed hstring
  rw [hbrackets, List.map_cons] at hunclosed
  generalize hsegment : s.segment.reverse = segment at hunclosed
  cases hunclosed with
  | @opened _ t inside opening _ ht hclosing hinside =>
      refine ⟨_, _, joinSegments segments ++ t, opening, inside, ?_,
        ⟨segments, t, rfl, hfollows.balanced, hfollows.not_blank, ht⟩, hclosing, hinside, rfl⟩
      rw [hfollows.text_eq, hsegment, List.append_assoc]

/-- The present argument begins with the text, or one past the comma of the argument before. -/
theorem endsBlank_of_run (h : cs.foldlM Scan.step Scan.initial = .ok s)
    (hblank : isBlank s.segment.reverse = true) : EndsBlank cs s.start := by
  obtain ⟨segments, hfollows⟩ := follows_run h
  have htext := hfollows.text_eq
  have hstart := hfollows.start_eq
  have hbalanced := hfollows.balanced
  have hsolid := hfollows.not_blank
  rcases List.eq_nil_or_concat' segments with rfl | ⟨segments, segment, rfl⟩
  · left
    rw [htext, hstart]
    exact ⟨hblank, rfl⟩
  · right
    rw [List.forall_mem_append, List.forall_mem_singleton] at hbalanced hsolid
    have hbefore : Outside [] (joinSegments segments ++ segment) :=
      ⟨segments, segment, rfl, hbalanced.1, hsolid.1, .whole hbalanced.2⟩
    refine ⟨_, _, ?_, hbefore, hblank, ?_⟩
    · rw [htext, joinSegments_append_singleton, List.append_assoc, List.singleton_append]
    · rw [hstart, joinSegments_append_singleton, Text.size_append]
      rfl

end Run

/-! ## Each end has its error -/

variable {cs : List Char} {e : SyntaxError}

theorem split_of_endsInString {place : Nat} (h : EndsInString cs place) :
    split cs = .error ⟨.unterminatedString, some place⟩ := by
  obtain ⟨closings, before, quote, escaped, body, rfl, hbefore, hquote, hbody, rfl⟩ := h
  obtain ⟨s, hrun, hstring, -, hoffset⟩ := hbefore.exists_run
  obtain ⟨s', hrun', hstring'⟩ := Scan.exists_run_string hstring hquote hbody
  refine Except.bind_eq_error_iff.mpr (.inr ⟨s', ?_, ?_⟩)
  · rw [Scan.foldlM_append_of_foldlM hrun, hrun']
  · rw [← hoffset]
    simp [Scan.finish, hstring']

theorem split_of_endsInBracket {closing : Char} {place : Nat} (h : EndsInBracket cs closing place) :
    split cs = .error ⟨.missing closing, some place⟩ := by
  obtain ⟨closings, before, opening, inside, rfl, hbefore, hclosing, hinside, rfl⟩ := h
  obtain ⟨s, hrun, hstring, -, hoffset⟩ := hbefore.exists_run
  obtain ⟨s', hrun', hstring', hopen⟩ := Scan.exists_run_bracket hstring hclosing hinside
  refine Except.bind_eq_error_iff.mpr (.inr ⟨s', ?_, ?_⟩)
  · rw [Scan.foldlM_append_of_foldlM hrun, hrun']
  · rw [← hoffset]
    simp [Scan.finish, hstring', hopen]

/-- A text that ends too early ends inside a string, inside a bracket, or after a comma. -/
theorem ends_of_lacks {s : Scan} (hrun : cs.foldlM Scan.step Scan.initial = .ok s)
    (h : split cs = .error e) (hlacks : Scan.Lacks s e) :
    (∃ place, EndsInString cs place) ∨ (∃ closing place, EndsInBracket cs closing place) ∨
      ∃ place, EndsInComma cs place ∧ e = ⟨.emptyArgument, some place⟩ := by
  cases hlacks with
  | quote hstring => exact .inl (endsInString_of_run hrun hstring)
  | bracket hstring hbrackets =>
      exact .inr (.inl ⟨_, endsInBracket_of_run hrun hstring hbrackets⟩)
  | argument _ _ hblank =>
      rcases endsBlank_of_run hrun hblank with ⟨hall, -⟩ | hcomma
      · -- A list that is all blank is cut.
        rw [split_of_blank hall] at h
        contradiction
      · exact .inr (.inr ⟨s.start, hcomma, rfl⟩)

/-- The character at which a beginning breaks is a bracket that closes nothing or something else,
or a comma after a blank argument. -/
theorem breaks_of_refuses {front : List Char} {c : Char} {s : Scan}
    (hfront : front.foldlM Scan.step Scan.initial = .ok s) (h : Scan.Refuses s c e) :
    ∃ closings, Outside closings front ∧
      ((isClosing c = true ∧
        ((closings = [] ∧ e = ⟨.unbalanced c, some (Text.size front)⟩) ∨
          ∃ closing outer, closings = closing :: outer ∧ c ≠ closing ∧
            e = ⟨.expected closing (some c), some (Text.size front)⟩)) ∨
      (c = ',' ∧ closings = [] ∧
        ∃ place, EndsBlank front place ∧ e = ⟨.emptyArgument, some place⟩)) := by
  have hoffset := (Scan.keepsPlaces_run hfront).offset_eq
  cases h with
  | unbalanced hstring hc hbrackets =>
      have houtside := outside_of_run hfront hstring
      rw [hbrackets, List.map_nil] at houtside
      exact ⟨_, houtside, .inl ⟨hc, .inl ⟨rfl, by rw [hoffset]⟩⟩⟩
  | @mismatched bracket brackets hstring hc hbrackets hne =>
      have houtside := outside_of_run hfront hstring
      rw [hbrackets, List.map_cons] at houtside
      exact ⟨_, houtside, .inl ⟨hc, .inr ⟨_, _, rfl, hne, by rw [hoffset]⟩⟩⟩
  | empty hstring hcomma hbrackets hblank =>
      have houtside := outside_of_run hfront hstring
      rw [hbrackets, List.map_nil] at houtside
      exact ⟨_, houtside, .inr ⟨hcomma, rfl, s.start, endsBlank_of_run hfront hblank, rfl⟩⟩

/-- A list is refused at the first character that makes its beginning not viable. If there is no
such character, the error tells what the list ends in. -/
theorem split_error_by_beginning (h : split cs = .error e) :
    ((∃ beginning, beginning <+: cs ∧ ¬ Viable beginning) →
      ∃ front c closings, BreaksAt cs front c ∧ Outside closings front ∧
        ((isClosing c = true ∧
          ((closings = [] ∧ e = ⟨.unbalanced c, some (Text.size front)⟩) ∨
            ∃ closing outer, closings = closing :: outer ∧ c ≠ closing ∧
              e = ⟨.expected closing (some c), some (Text.size front)⟩)) ∨
        (c = ',' ∧ closings = [] ∧
          ∃ place, EndsBlank front place ∧ e = ⟨.emptyArgument, some place⟩))) ∧
    ((∀ beginning, beginning <+: cs → Viable beginning) →
      (∀ place, e = ⟨.unterminatedString, some place⟩ ↔ EndsInString cs place) ∧
      ((∀ place, ¬ EndsInString cs place) →
        (∀ closing place, e = ⟨.missing closing, some place⟩ ↔ EndsInBracket cs closing place) ∧
        ((∀ closing place, ¬ EndsInBracket cs closing place) →
          ∃ place, EndsInComma cs place ∧ e = ⟨.emptyArgument, some place⟩))) := by
  have hstring : ∀ {place}, EndsInString cs place → e = ⟨.unterminatedString, some place⟩ :=
    fun hends => Except.error.inj (h.symm.trans (split_of_endsInString hends))
  have hbracket : ∀ {closing place}, EndsInBracket cs closing place →
      e = ⟨.missing closing, some place⟩ :=
    fun hends => Except.error.inj (h.symm.trans (split_of_endsInBracket hends))
  rcases Except.bind_eq_error_iff.mp h with hrun | ⟨s, hrun, hfinish⟩
  · -- The scan stops at a character.
    obtain ⟨front, c, rest, s, rfl, hfront, hstep⟩ := Except.exists_of_foldlM_eq_error hrun
    have hbreaks : BreaksAt (front ++ c :: rest) front c := breaksAt_of_step hfront hstep
    refine ⟨fun _ => ?_, fun hall => absurd (hall _ hbreaks.isPrefix) hbreaks.not_viable⟩
    obtain ⟨closings, houtside, hcases⟩ := breaks_of_refuses hfront (Scan.refuses_of_step hstep)
    exact ⟨front, c, closings, hbreaks, houtside, hcases⟩
  · -- The scan comes to the end.
    have hviable : Viable cs := viable_of_run hrun
    refine ⟨fun ⟨beginning, hbegins, hdead⟩ => absurd (hviable.of_isPrefix hbegins) hdead,
      fun _ => ?_⟩
    have hends := ends_of_lacks hrun h (Scan.lacks_of_finish hfinish)
    refine ⟨fun place => ⟨fun he => ?_, hstring⟩, fun hnostring => ?_⟩
    · rcases hends with ⟨place', hends⟩ | ⟨closing, place', hends⟩ | ⟨place', -, hempty⟩
      · have hplace := hstring hends
        rw [he] at hplace
        obtain rfl : place = place' := by simpa using hplace
        exact hends
      · have hmissing := hbracket hends
        simp [he] at hmissing
      · simp [he] at hempty
    · have hends' := hends.resolve_left (not_exists.mpr hnostring)
      refine ⟨fun closing place => ⟨fun he => ?_, hbracket⟩, fun hnobracket => ?_⟩
      · rcases hends' with ⟨closing', place', hends⟩ | ⟨place', -, hempty⟩
        · have hmissing := hbracket hends
          rw [he] at hmissing
          obtain ⟨rfl, rfl⟩ : closing = closing' ∧ place = place' := by simpa using hmissing
          exact hends
        · simp [he] at hempty
      · exact hends'.resolve_left fun ⟨closing, place, hends⟩ => hnobracket closing place hends

/-- A bracket of another kind after a character of two bytes, and a list that ends after a backslash
in a string. -/
theorem split_error_by_beginning_nested :
    (∃ front, split "'\u00e9', [1\x7d, 2".toList = .error ⟨.expected ']' (some '\x7d'), some 8⟩ ∧
      BreaksAt "'\u00e9', [1\x7d, 2".toList front '\x7d' ∧ Text.size front = 8) ∧
    split "1, ['a\\".toList = .error ⟨.unterminatedString, some 4⟩ ∧
      EndsInString "1, ['a\\".toList 4 := by
  have hbracket : split "'\u00e9', [1\x7d, 2".toList =
      .error ⟨.expected ']' (some '\x7d'), some 8⟩ := by
    decide +kernel
  have hdead : ¬ Viable "'\u00e9', [1\x7d, 2".toList := by
    intro hviable
    obtain ⟨s, hs⟩ := viable_iff.mp hviable
    have hrun : "'\u00e9', [1\x7d, 2".toList.foldlM Scan.step Scan.initial =
        .error ⟨.expected ']' (some '\x7d'), some 8⟩ := by
      decide +kernel
    rw [hrun] at hs
    contradiction
  have hquote : split "1, ['a\\".toList = .error ⟨.unterminatedString, some 4⟩ := by
    decide +kernel
  have hviable : Viable "1, ['a\\".toList :=
    ⟨"'']".toList, [⟨"1", 0⟩, ⟨"['a\\'']", 3⟩], by decide +kernel⟩
  constructor
  · obtain ⟨front, c, closings, hbreaks, -, ⟨-, ⟨-, he⟩ | ⟨closing, outer, -, -, he⟩⟩ |
      ⟨-, -, place, -, he⟩⟩ :=
      (split_error_by_beginning hbracket).1 ⟨_, List.prefix_rfl, hdead⟩
    · simp at he
    · obtain ⟨⟨rfl, rfl⟩, hplace⟩ : (']' = closing ∧ '\x7d' = c) ∧ 8 = Text.size front := by
        simpa using he
      exact ⟨front, hbracket, hbreaks, hplace.symm⟩
    · simp at he
  · exact ⟨hquote, ((split_error_by_beginning hquote).2
      fun _ => hviable.of_isPrefix).1 4 |>.mp rfl⟩

end DocShell.Arguments
