import DocShell.Arguments
import DocShell.Proofs.Result
import DocShell.Proofs.Text

set_option autoImplicit false

/-! # Where argument lists are cut

`Balanced` describes the text that a scan goes through without a change of its brackets and its
string: ordinary characters, whole strings, and brackets around balanced text. Outside all
brackets a comma is no balanced text, since the list is cut there.

Balanced segments with commas between them are cut at these commas and nowhere else
(`split_intercalate`), and there is one way only to cut a text into two balanced arguments
(`eq_of_balanced_comma`).
-/

namespace DocShell.Arguments

open Text (isBlank)

/-! ## Balanced text -/

/-- Characters that mean nothing to the scan. -/
def isOrdinary (c : Char) : Bool :=
  !Quoted.isQuote c && (closing? c).isNone && !isClosing c && c != ','

/-- What may stand between two quotes. A backslash takes the next character with it. -/
inductive StringBody (quote : Char) : List Char → Prop
  | nil : StringBody quote []
  | plain {c : Char} {cs : List Char} (hquote : c ≠ quote) (hslash : c ≠ '\\')
      (hcs : StringBody quote cs) : StringBody quote (c :: cs)
  | escape {c : Char} {cs : List Char} (hcs : StringBody quote cs) :
      StringBody quote ('\\' :: c :: cs)

/-- Text in which all strings and all brackets are closed, with or without commas outside of
them. -/
inductive Balanced : (commas : Bool) → List Char → Prop
  | nil {commas : Bool} : Balanced commas []
  | ordinary {commas : Bool} {c : Char} {cs : List Char} (hc : isOrdinary c = true)
      (hcs : Balanced commas cs) : Balanced commas (c :: cs)
  | comma {cs : List Char} (hcs : Balanced true cs) : Balanced true (',' :: cs)
  | string {commas : Bool} {quote : Char} {body cs : List Char}
      (hquote : Quoted.isQuote quote = true) (hbody : StringBody quote body)
      (hcs : Balanced commas cs) : Balanced commas (quote :: body ++ quote :: cs)
  | bracket {commas : Bool} {opening closing : Char} {inside cs : List Char}
      (hclosing : closing? opening = some closing) (hinside : Balanced true inside)
      (hcs : Balanced commas cs) : Balanced commas (opening :: inside ++ closing :: cs)

variable {commas : Bool} {t u : List Char}

theorem StringBody.append {quote : Char} (ht : StringBody quote t) (hu : StringBody quote u) :
    StringBody quote (t ++ u) := by
  induction ht with
  | nil => exact hu
  | plain hquote hslash _ ih => exact .plain hquote hslash ih
  | escape _ ih => exact .escape ih

theorem Balanced.append (ht : Balanced commas t) (hu : Balanced commas u) :
    Balanced commas (t ++ u) := by
  induction ht with
  | nil => exact hu
  | ordinary hc _ ih => exact .ordinary hc (ih hu)
  | comma _ ih => exact .comma (ih hu)
  | @string commas quote body cs hquote hbody _ ih =>
      have hstring := Balanced.string hquote hbody (ih hu)
      simpa using hstring
  | @bracket commas opening closing inside cs hclosing hinside _ _ ih =>
      have hbracket := Balanced.bracket hclosing hinside (ih hu)
      simpa using hbracket

/-- Inside brackets commas are allowed. -/
theorem Balanced.inside (ht : Balanced commas t) : Balanced true t := by
  induction ht with
  | nil => exact .nil
  | ordinary hc _ ih => exact .ordinary hc ih
  | comma _ ih => exact .comma ih
  | string hquote hbody _ ih => exact .string hquote hbody ih
  | bracket hclosing hinside _ _ ih => exact .bracket hclosing hinside ih

theorem balanced_of_ordinary (h : t.all isOrdinary = true) : Balanced commas t := by
  induction t with
  | nil => exact .nil
  | cons c t ih =>
      rw [List.all_cons, Bool.and_eq_true] at h
      exact .ordinary h.1 (ih h.2)

/-! ## The scan of balanced text -/

namespace Scan

/-- Adds a text to the present argument. -/
def pushAll (s : Scan) (t : List Char) : Scan :=
  { s with offset := s.offset + Text.size t, segment := t.reverse ++ s.segment }

theorem pushAll_push (s : Scan) (c : Char) (t : List Char) :
    (s.push c).pushAll t = s.pushAll (c :: t) := by
  simp [pushAll, push, Nat.add_assoc]

theorem pushAll_pushAll (s : Scan) (t u : List Char) :
    (s.pushAll t).pushAll u = s.pushAll (t ++ u) := by
  simp [pushAll, Nat.add_assoc]

theorem foldlM_cons_of_step {s s' : Scan} {c : Char} (h : s.step c = .ok s') (t : List Char) :
    (c :: t).foldlM step s = t.foldlM step s' := by
  rw [List.foldlM_cons, h]
  rfl

theorem foldlM_append_of_foldlM {s s' : Scan} (h : t.foldlM step s = .ok s') (u : List Char) :
    (t ++ u).foldlM step s = u.foldlM step s' := by
  rw [List.foldlM_append, h]
  rfl

/-- Inside a string the scan goes on until the quote. -/
theorem foldlM_stringBody {quote : Char} (ht : StringBody quote t) {s : Scan} {start : Nat}
    (hstring : s.string = some ⟨quote, start, false⟩) :
    t.foldlM step s = .ok (s.pushAll t) := by
  induction ht generalizing s with
  | nil => rfl
  | @plain c cs hquote hslash _ ih =>
      have hstep : s.step c = .ok (s.push c) := by
        simp [step, hstring, OpenString.step, hquote, hslash, push]
      rw [foldlM_cons_of_step hstep, ← pushAll_push]
      exact ih hstring
  | @escape c cs _ ih =>
      -- The character after the backslash is taken whatever it is, a quote included.
      have hslash : s.step '\\' =
          .ok { s.push '\\' with string := some ⟨quote, start, true⟩ } := by
        simp [step, hstring, OpenString.step]
      have hstep : step { s.push '\\' with string := some ⟨quote, start, true⟩ } c =
          .ok ((s.push '\\').push c) := by
        simp [step, OpenString.step, push, hstring]
      rw [foldlM_cons_of_step hslash, foldlM_cons_of_step hstep, ← pushAll_push, ← pushAll_push]
      exact ih hstring

theorem step_ordinary {s : Scan} {c : Char} (hstring : s.string = none)
    (hc : isOrdinary c = true) : s.step c = .ok (s.push c) := by
  simp only [isOrdinary, Bool.and_eq_true, Bool.not_eq_true', Option.isNone_iff_eq_none,
    bne_iff_ne] at hc
  obtain ⟨⟨⟨hquote, hopening⟩, hclosing⟩, hcomma⟩ := hc
  simp [step, hstring, hquote, hopening, hclosing, hcomma]

theorem step_comma {s : Scan} (hstring : s.string = none) (hbrackets : s.brackets ≠ []) :
    s.step ',' = .ok (s.push ',') := by
  simp [step, hstring, hbrackets, Quoted.isQuote, closing?, isClosing]

theorem isQuote_of_closing? {opening closing : Char} (h : closing? opening = some closing) :
    Quoted.isQuote opening = false ∧ Quoted.isQuote closing = false ∧
      closing? closing = none ∧ isClosing closing = true := by
  unfold closing? at h
  split_ifs at h with hbrace hbracket hparen
  · obtain rfl := Option.some.inj h
    subst hbrace
    decide
  · obtain rfl := Option.some.inj h
    subst hbracket
    decide
  · obtain rfl := Option.some.inj h
    subst hparen
    decide

theorem step_quote {s : Scan} {quote : Char} (hstring : s.string = none)
    (hquote : Quoted.isQuote quote = true) :
    s.step quote = .ok { s.push quote with string := some ⟨quote, s.offset, false⟩ } := by
  simp [step, hstring, hquote]

theorem step_opening {s : Scan} {opening closing : Char} (hstring : s.string = none)
    (hclosing : closing? opening = some closing) :
    s.step opening =
      .ok { s.push opening with brackets := ⟨closing, s.offset⟩ :: s.brackets } := by
  obtain ⟨hquote, -⟩ := isQuote_of_closing? hclosing
  simp [step, hstring, hquote, hclosing]

/-- A string is gone through from quote to quote. -/
theorem foldlM_string {quote : Char} {body : List Char} (hquote : Quoted.isQuote quote = true)
    (hbody : StringBody quote body) {s : Scan} (hstring : s.string = none) (rest : List Char) :
    (quote :: body ++ quote :: rest).foldlM step s =
      rest.foldlM step (s.pushAll (quote :: body ++ [quote])) := by
  have hslash : quote ≠ '\\' := by
    rintro rfl
    exact absurd hquote (by decide)
  have hinside := foldlM_stringBody hbody
    (s := { s.push quote with string := some ⟨quote, s.offset, false⟩ }) rfl
  have hclose : step (pushAll { s.push quote with string := some ⟨quote, s.offset, false⟩ } body)
      quote = .ok (s.pushAll (quote :: body ++ [quote])) := by
    simp [step, pushAll, push, OpenString.step, hslash, hstring, Nat.add_assoc]
  rw [List.cons_append, foldlM_cons_of_step (step_quote hstring hquote),
    foldlM_append_of_foldlM hinside, foldlM_cons_of_step hclose]

/-- A scan goes through balanced text; commas count only inside brackets. -/
theorem foldlM_balanced (ht : Balanced commas t) {s : Scan} (hstring : s.string = none)
    (hcommas : commas = true → s.brackets ≠ []) : t.foldlM step s = .ok (s.pushAll t) := by
  induction ht generalizing s with
  | nil => rfl
  | @ordinary commas c cs hc _ ih =>
      rw [foldlM_cons_of_step (step_ordinary hstring hc), ← pushAll_push]
      exact ih hstring hcommas
  | @comma cs _ ih =>
      rw [foldlM_cons_of_step (step_comma hstring (hcommas rfl)), ← pushAll_push]
      exact ih hstring hcommas
  | @string commas quote body cs hquote hbody _ ih =>
      have hsplit : quote :: body ++ quote :: cs = quote :: body ++ [quote] ++ cs := by simp
      have hrest := ih (s := s.pushAll (quote :: body ++ [quote])) hstring hcommas
      rw [foldlM_string hquote hbody hstring, hrest, pushAll_pushAll, hsplit]
  | @bracket commas opening closing inside cs hclosing _ _ ihinside ih =>
      -- Inside, the bracket is open, so commas are allowed there; the closing one leaves the
      -- brackets as they were.
      obtain ⟨-, hquote, hopening, hisClosing⟩ := isQuote_of_closing? hclosing
      have hinside := ihinside
        (s := { s.push opening with brackets := ⟨closing, s.offset⟩ :: s.brackets }) hstring
        (fun _ => List.cons_ne_nil _ _)
      have hclose : step
          (pushAll { s.push opening with brackets := ⟨closing, s.offset⟩ :: s.brackets } inside)
          closing = .ok (s.pushAll (opening :: inside ++ [closing])) := by
        simp [step, pushAll, push, close, hstring, hquote, hopening, hisClosing, Nat.add_assoc]
      have hsplit : opening :: inside ++ closing :: cs = opening :: inside ++ [closing] ++ cs := by
        simp
      have hrest := ih (s := s.pushAll (opening :: inside ++ [closing])) hstring hcommas
      rw [List.cons_append, foldlM_cons_of_step (step_opening hstring hclosing),
        foldlM_append_of_foldlM hinside, foldlM_cons_of_step hclose, hrest, pushAll_pushAll,
        ← List.cons_append, hsplit]

end Scan

/-! ## Segments -/

/-- The fragment of a segment that begins at `start`. -/
def fragmentAt (start : Nat) (segment : List Char) : Fragment :=
  ⟨String.ofList (Text.trim segment), start + Text.offsetOf segment (Text.trimStart segment)⟩

/-- The fragments of segments that stand one after the other, with a comma between them. -/
def tile (start : Nat) : List (List Char) → List Fragment
  | [] => []
  | segment :: segments =>
      fragmentAt start segment :: tile (start + Text.size segment + 1) segments

theorem length_tile (start : Nat) (segments : List (List Char)) :
    (tile start segments).length = segments.length := by
  induction segments generalizing start with
  | nil => rfl
  | cons segment segments ih => rw [tile, List.length_cons, ih, List.length_cons]

theorem ofSegment_eq_ok_iff {start : Nat} {segment : List Char} {f : Fragment} :
    Fragment.ofSegment start segment = .ok f ↔
      isBlank segment = false ∧ f = fragmentAt start segment := by
  unfold Fragment.ofSegment fragmentAt
  split_ifs with hblank
  · simp [hblank]
  · simp [hblank, eq_comm]

theorem isBlank_reverse (cs : List Char) : isBlank cs.reverse = isBlank cs :=
  List.all_reverse

namespace Scan

/-- After a segment and its comma. -/
def next (s : Scan) (segment : List Char) : Scan :=
  { s with
    offset := s.offset + Text.size segment + 1
    fragments := fragmentAt s.start segment :: s.fragments
    start := s.offset + Text.size segment + 1
    segment := [] }

theorem cut_pushAll {s : Scan} {segment : List Char} (hsegment : s.segment = [])
    (hblank : isBlank segment = false) : cut (s.pushAll segment) = .ok (s.next segment) := by
  have hfragment : Fragment.ofSegment s.start segment = .ok (fragmentAt s.start segment) :=
    ofSegment_eq_ok_iff.mpr ⟨hblank, rfl⟩
  simp [cut, pushAll, next, hsegment, hfragment, bind, Except.bind, pure, Except.pure]

theorem finish_pushAll {s : Scan} {segment : List Char} (hsegment : s.segment = [])
    (hstring : s.string = none) (hbrackets : s.brackets = []) (hblank : isBlank segment = false) :
    finish (s.pushAll segment) = .ok (s.fragments.reverse ++ [fragmentAt s.start segment]) := by
  have hfragment : Fragment.ofSegment s.start segment = .ok (fragmentAt s.start segment) :=
    ofSegment_eq_ok_iff.mpr ⟨hblank, rfl⟩
  simp [finish, pushAll, hsegment, hstring, hbrackets, isBlank_reverse, hblank, hfragment, bind,
    Except.bind, pure, Except.pure]

theorem step_cut {s : Scan} (hstring : s.string = none) (hbrackets : s.brackets = []) :
    s.step ',' = s.cut := by
  simp [step, hstring, hbrackets, Quoted.isQuote, closing?, isClosing]

/-- A whole argument is cut off at the comma after it. -/
theorem foldlM_segment {s : Scan} {segment : List Char} (hbalanced : Balanced false segment)
    (hblank : isBlank segment = false) (hsegment : s.segment = []) (hstring : s.string = none)
    (hbrackets : s.brackets = []) (rest : List Char) :
    (segment ++ ',' :: rest).foldlM step s = rest.foldlM step (s.next segment) := by
  have hscan := foldlM_balanced hbalanced hstring (by simp)
  have hcut := (step_cut (s := s.pushAll segment) hstring hbrackets).trans
    (cut_pushAll hsegment hblank)
  rw [foldlM_append_of_foldlM hscan, foldlM_cons_of_step hcut]

/-- Balanced segments are cut at the commas between them. -/
theorem finish_of_segments {segments : List (List Char)} {segment : List Char} {s : Scan}
    (hbalanced : ∀ t ∈ segment :: segments, Balanced false t)
    (hblank : ∀ t ∈ segment :: segments, isBlank t = false) (hsegment : s.segment = [])
    (hstring : s.string = none) (hbrackets : s.brackets = []) (hstart : s.start = s.offset) :
    (List.foldlM step s (List.intercalate [','] (segment :: segments)) >>= finish) =
      .ok (s.fragments.reverse ++ tile s.start (segment :: segments)) := by
  induction segments generalizing segment s with
  | nil =>
      have hscan := foldlM_balanced (hbalanced segment (by simp)) hstring (by simp)
      rw [List.intercalate_singleton, hscan]
      exact finish_pushAll hsegment hstring hbrackets (hblank segment (by simp))
  | cons segment' segments ih =>
      rw [Text.intercalate_cons (by simp), foldlM_segment (hbalanced segment (by simp))
        (hblank segment (by simp)) hsegment hstring hbrackets]
      -- After the comma the scan stands as at the beginning, with one argument more.
      have hrest := ih (s := s.next segment)
        (fun t ht => hbalanced t (List.mem_cons_of_mem segment ht))
        (fun t ht => hblank t (List.mem_cons_of_mem segment ht)) rfl hstring hbrackets rfl
      rw [hrest]
      simp [next, tile, hstart]

end Scan

/-- Balanced segments that are not blank are the arguments of the list they make up. -/
theorem split_intercalate {segments : List (List Char)} (hne : segments ≠ [])
    (hbalanced : ∀ t ∈ segments, Balanced false t) (hblank : ∀ t ∈ segments, isBlank t = false) :
    split (List.intercalate [','] segments) = .ok (tile 0 segments) := by
  obtain ⟨segment, segments, rfl⟩ := List.exists_cons_of_ne_nil hne
  exact Scan.finish_of_segments hbalanced hblank rfl rfl rfl rfl

/-- The characters that mean something to the scan. -/
def marks : List Char := ['"', '\x27', '{', '[', '(', '}', ']', ')', ',']

theorem isOrdinary_of_not_mem {c : Char} (h : c ∉ marks) : isOrdinary c = true := by
  simp only [marks, List.mem_cons, List.not_mem_nil, or_false, not_or] at h
  simp [isOrdinary, Quoted.isQuote, closing?, isClosing, h]

/-- Text of a class of characters that has no mark in it is balanced. -/
theorem balanced_of_class {p : Char → Bool} (hmarks : marks.any p = false) (h : t.all p = true) :
    Balanced commas t := by
  refine balanced_of_ordinary (List.all_eq_true.mpr fun c hc => ?_)
  refine isOrdinary_of_not_mem fun hmem => ?_
  exact List.any_eq_false.mp hmarks c hmem (List.all_eq_true.mp h c hc)

theorem balanced_of_blank (h : isBlank t = true) : Balanced commas t :=
  balanced_of_class (by decide) h

theorem split_of_blank (h : isBlank t = true) : split t = .ok [] := by
  have hbalanced : Balanced false t := balanced_of_blank h
  have hscan := Scan.foldlM_balanced hbalanced (s := Scan.initial) rfl (by simp)
  rw [split, hscan]
  simp [bind, Except.bind, Scan.finish, Scan.pushAll, Scan.initial, isBlank_reverse, h]

/-! ## What a step can do -/

namespace Scan

/-- Everything a character can do to a scan that goes on. -/
inductive Reads (s : Scan) (c : Char) : Scan → Prop
  | inside {string : OpenString} (hstring : s.string = some string) :
      Reads s c { s.push c with string := string.step c }
  | quote (hstring : s.string = none) (hquote : Quoted.isQuote c = true) :
      Reads s c { s.push c with string := some ⟨c, s.offset, false⟩ }
  | opening {closing : Char} (hstring : s.string = none) (hclosing : closing? c = some closing) :
      Reads s c { s.push c with brackets := ⟨closing, s.offset⟩ :: s.brackets }
  | closing {start : Nat} {brackets : List OpenBracket} (hstring : s.string = none)
      (hbrackets : s.brackets = ⟨c, start⟩ :: brackets) :
      Reads s c { s.push c with brackets := brackets }
  | cut {s' : Scan} (hstring : s.string = none) (hcomma : c = ',') (hbrackets : s.brackets = [])
      (hcut : s.cut = .ok s') : Reads s c s'
  | comma (hstring : s.string = none) (hcomma : c = ',') (hbrackets : s.brackets ≠ []) :
      Reads s c (s.push c)
  | ordinary (hstring : s.string = none) (hc : isOrdinary c = true) : Reads s c (s.push c)

theorem close_eq_ok {s s' : Scan} {c : Char} (h : s.close c = .ok s') :
    ∃ start brackets, s.brackets = ⟨c, start⟩ :: brackets ∧
      s' = { s.push c with brackets := brackets } := by
  unfold close at h
  split at h
  · contradiction
  · rename_i bracket brackets hbrackets
    split_ifs at h with hclosing
    refine ⟨bracket.start, brackets, ?_, (Except.ok.inj h).symm⟩
    rw [hbrackets, hclosing]

/-- The cases are those of the definition. -/
theorem reads_of_step {s s' : Scan} {c : Char} (h : s.step c = .ok s') : Reads s c s' := by
  unfold step at h
  cases hstring : s.string with
  | some string =>
      rw [hstring] at h
      obtain rfl := Except.ok.inj h
      exact .inside hstring
  | none =>
      rw [hstring] at h
      by_cases hquote : Quoted.isQuote c = true
      · rw [if_pos hquote] at h
        obtain rfl := Except.ok.inj h
        exact .quote hstring hquote
      · rw [if_neg hquote] at h
        cases hopening : closing? c with
        | some closing =>
            rw [hopening] at h
            obtain rfl := Except.ok.inj h
            exact .opening hstring hopening
        | none =>
            rw [hopening] at h
            dsimp only at h
            split_ifs at h with hclosing hcomma
            · obtain ⟨start, brackets, hbrackets, rfl⟩ := close_eq_ok h
              exact .closing hstring hbrackets
            · exact .cut hstring hcomma.1 hcomma.2 h
            · obtain rfl := Except.ok.inj h
              by_cases hc : c = ','
              · exact .comma hstring hc fun hbrackets => hcomma ⟨hc, hbrackets⟩
              · exact .ordinary hstring (by simp [isOrdinary, hquote, hopening, hclosing, hc])

/-- What a step does to the finished arguments and to the present one: only the comma does more
than add the character. -/
theorem step_cases {s s' : Scan} {c : Char} (h : s.step c = .ok s') :
    (s'.fragments = s.fragments ∧ s'.start = s.start ∧ s'.segment = c :: s.segment ∧
      s'.offset = s.offset + c.utf8Size) ∨
    (c = ',' ∧ s.string = none ∧ s.brackets = [] ∧ s.cut = .ok s') := by
  cases reads_of_step h with
  | cut hstring hcomma hbrackets hcut => exact .inr ⟨hcomma, hstring, hbrackets, hcut⟩
  | inside => exact .inl ⟨rfl, rfl, rfl, rfl⟩
  | quote => exact .inl ⟨rfl, rfl, rfl, rfl⟩
  | opening => exact .inl ⟨rfl, rfl, rfl, rfl⟩
  | closing => exact .inl ⟨rfl, rfl, rfl, rfl⟩
  | comma => exact .inl ⟨rfl, rfl, rfl, rfl⟩
  | ordinary => exact .inl ⟨rfl, rfl, rfl, rfl⟩

theorem cut_eq_ok {s s' : Scan} (h : s.cut = .ok s') :
    isBlank s.segment.reverse = false ∧ s' = { s with
      offset := s.offset + 1
      fragments := fragmentAt s.start s.segment.reverse :: s.fragments
      start := s.offset + 1
      segment := [] } := by
  obtain ⟨f, hfragment, hs⟩ := Except.bind_eq_ok_iff.mp h
  obtain ⟨hblank, rfl⟩ := ofSegment_eq_ok_iff.mp hfragment
  exact ⟨hblank, (Except.ok.inj hs).symm⟩

/-- A scan can end where nothing is open and the present segment is not blank, unless the whole
list is. -/
theorem finish_eq_ok {s : Scan} {fragments : List Fragment} (h : s.finish = .ok fragments) :
    s.string = none ∧ s.brackets = [] ∧
      ((s.fragments = [] ∧ isBlank s.segment = true ∧ fragments = []) ∨
        (isBlank s.segment.reverse = false ∧
          fragments = s.fragments.reverse ++ [fragmentAt s.start s.segment.reverse])) := by
  unfold finish at h
  split at h
  · contradiction
  · contradiction
  · rename_i hstring hbrackets
    refine ⟨hstring, hbrackets, ?_⟩
    split_ifs at h with hempty
    · exact .inl ⟨hempty.1, hempty.2, (Except.ok.inj h).symm⟩
    · obtain ⟨f, hfragment, hlast⟩ := Except.bind_eq_ok_iff.mp h
      obtain ⟨hblank, rfl⟩ := ofSegment_eq_ok_iff.mp hfragment
      exact .inr ⟨hblank, (Except.ok.inj hlast).symm⟩

end Scan

/-! ## One comma -/

/-- Arguments that are finished stay so. -/
theorem Scan.length_fragments_le {cs : List Char} {s s' : Scan} (h : cs.foldlM step s = .ok s') :
    s.fragments.length ≤ s'.fragments.length := by
  refine Except.foldlM_invariant (P := fun _ s' => s.fragments.length ≤ s'.fragments.length)
    ?_ [] le_rfl h
  intro _ c s₁ s₂ hle hstep
  refine le_trans hle ?_
  rcases step_cases hstep with ⟨hfragments, -⟩ | ⟨-, -, -, hcut⟩
  · rw [hfragments]
  · obtain ⟨-, rfl⟩ := cut_eq_ok hcut
    exact Nat.le_succ _

/-- After balanced text a comma ends the argument. -/
theorem Balanced.not_balanced_comma (ht : Balanced false t) : ¬ Balanced false (t ++ ',' :: u) := by
  intro htu
  have hscan := Scan.foldlM_balanced ht (s := Scan.initial) rfl (by simp)
  have hall := Scan.foldlM_balanced htu (s := Scan.initial) rfl (by simp)
  -- The comma cuts off a first argument, but at the end of balanced text there is none.
  rw [Scan.foldlM_append_of_foldlM hscan, List.foldlM_cons, Scan.step_cut rfl rfl,
    Except.bind_eq_ok_iff] at hall
  obtain ⟨s, hcut, hrest⟩ := hall
  have hle := Scan.length_fragments_le hrest
  obtain ⟨-, rfl⟩ := Scan.cut_eq_ok hcut
  exact absurd hle (by simp [Scan.pushAll, Scan.initial])

/-- There is at most one way to cut a text into two balanced arguments. -/
theorem eq_of_balanced_comma {t₁ t₂ u₁ u₂ : List Char} (ht : Balanced false t₁)
    (hu : Balanced false u₁) (h : t₁ ++ ',' :: t₂ = u₁ ++ ',' :: u₂) : t₁ = u₁ ∧ t₂ = u₂ := by
  -- If one of the two goes on where the other ends, it does so with that other one's comma.
  rcases Text.append_cons_cases h with heq | ⟨a, rfl, -⟩ | ⟨a, rfl, -⟩
  · exact heq
  · exact absurd hu ht.not_balanced_comma
  · exact absurd ht hu.not_balanced_comma

end DocShell.Arguments
