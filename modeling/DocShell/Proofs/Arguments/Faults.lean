import DocShell.Proofs.Arguments.Scan

set_option autoImplicit false

/-! # Where argument lists are refused

A scan stops at the character it has come to, at the beginning of the present argument, or at a
bracket or a quote that is never closed. All these are places that the state of the scan keeps,
and `KeepsPlaces` says that they are places of the text that has been read: a character begins
there. One step keeps that, so a run does, and with it every error of an argument list has a
place in the list (`isBoundary_of_split`).
-/

namespace DocShell.Arguments

open Text (isBlank IsBoundary)

namespace Scan

/-! ## What stops a scan -/

/-- Everything that a scan can find wrong with the next character. -/
inductive Refuses (s : Scan) (c : Char) : SyntaxError → Prop
  | unbalanced (hstring : s.string = none) (hc : isClosing c = true) (hbrackets : s.brackets = []) :
      Refuses s c ⟨.unbalanced c, some s.offset⟩
  | mismatched {bracket : OpenBracket} {brackets : List OpenBracket} (hstring : s.string = none)
      (hc : isClosing c = true) (hbrackets : s.brackets = bracket :: brackets)
      (hne : c ≠ bracket.closing) :
      Refuses s c ⟨.expected bracket.closing (some c), some s.offset⟩
  | empty (hstring : s.string = none) (hcomma : c = ',') (hbrackets : s.brackets = [])
      (hblank : isBlank s.segment.reverse = true) : Refuses s c ⟨.emptyArgument, some s.start⟩

/-- Everything that a scan can find wrong at the end of the text. -/
inductive Lacks (s : Scan) : SyntaxError → Prop
  | quote {string : OpenString} (hstring : s.string = some string) :
      Lacks s ⟨.unterminatedString, some string.start⟩
  | bracket {bracket : OpenBracket} {brackets : List OpenBracket} (hstring : s.string = none)
      (hbrackets : s.brackets = bracket :: brackets) :
      Lacks s ⟨.missing bracket.closing, some bracket.start⟩
  | argument (hstring : s.string = none) (hbrackets : s.brackets = [])
      (hblank : isBlank s.segment.reverse = true) : Lacks s ⟨.emptyArgument, some s.start⟩

theorem ofSegment_eq_error {start : Nat} {segment : List Char} {e : SyntaxError}
    (h : Fragment.ofSegment start segment = .error e) :
    isBlank segment = true ∧ e = ⟨.emptyArgument, some start⟩ := by
  unfold Fragment.ofSegment at h
  split_ifs at h with hblank
  exact ⟨hblank, (Except.error.inj h).symm⟩

theorem close_eq_error {s : Scan} {c : Char} {e : SyntaxError} (h : s.close c = .error e) :
    (s.brackets = [] ∧ e = ⟨.unbalanced c, some s.offset⟩) ∨
      ∃ bracket brackets, s.brackets = bracket :: brackets ∧ c ≠ bracket.closing ∧
        e = ⟨.expected bracket.closing (some c), some s.offset⟩ := by
  unfold close at h
  split at h
  · rename_i hbrackets
    exact .inl ⟨hbrackets, (Except.error.inj h).symm⟩
  · rename_i bracket brackets hbrackets
    split_ifs at h with hne
    exact .inr ⟨bracket, brackets, hbrackets, hne, (Except.error.inj h).symm⟩

/-- Only a closing bracket and a comma can be refused. -/
theorem refuses_of_step {s : Scan} {c : Char} {e : SyntaxError} (h : s.step c = .error e) :
    Refuses s c e := by
  unfold step at h
  cases hstring : s.string with
  | some string =>
      rw [hstring] at h
      contradiction
  | none =>
      rw [hstring] at h
      by_cases hquote : Quoted.isQuote c = true
      · rw [if_pos hquote] at h
        contradiction
      · rw [if_neg hquote] at h
        cases hopening : closing? c with
        | some closing =>
            rw [hopening] at h
            contradiction
        | none =>
            rw [hopening] at h
            dsimp only at h
            split_ifs at h with hc hcut
            · rcases close_eq_error h with
                ⟨hbrackets, rfl⟩ | ⟨bracket, brackets, hbrackets, hne, rfl⟩
              · exact .unbalanced hstring hc hbrackets
              · exact .mismatched hstring hc hbrackets hne
            · rcases Except.bind_eq_error_iff.mp h with hsegment | ⟨f, -, hok⟩
              · obtain ⟨hblank, rfl⟩ := ofSegment_eq_error hsegment
                exact .empty hstring hcut.1 hcut.2 hblank
              · contradiction

theorem lacks_of_finish {s : Scan} {e : SyntaxError} (h : s.finish = .error e) : Lacks s e := by
  unfold finish at h
  split at h
  · rename_i string brackets hstring
    obtain rfl := Except.error.inj h
    exact .quote hstring
  · rename_i bracket brackets hstring hbrackets
    obtain rfl := Except.error.inj h
    exact .bracket hstring hbrackets
  · rename_i hstring hbrackets
    split_ifs at h
    rcases Except.bind_eq_error_iff.mp h with hsegment | ⟨f, -, hok⟩
    · obtain ⟨hblank, rfl⟩ := ofSegment_eq_error hsegment
      exact .argument hstring hbrackets hblank
    · contradiction

/-! ## The places that a scan keeps -/

/-- All places in the state of a scan are places of the text that has been read. -/
structure KeepsPlaces (read : List Char) (s : Scan) : Prop where
  offset_eq : s.offset = Text.size read
  start : IsBoundary read s.start
  brackets : ∀ bracket ∈ s.brackets, IsBoundary read bracket.start
  string : ∀ string ∈ s.string, IsBoundary read string.start

theorem keepsPlaces_initial : KeepsPlaces [] initial :=
  ⟨rfl, ⟨[], [], rfl, rfl⟩, by simp [initial], by simp [initial]⟩

/-- The place that a scan has come to. -/
theorem KeepsPlaces.isBoundary_offset {read : List Char} {s : Scan} (h : KeepsPlaces read s)
    (rest : List Char) : IsBoundary (read ++ rest) s.offset := by
  rw [h.offset_eq]
  exact Text.isBoundary_append read rest

/-- A character that is added moves no place that is kept. -/
theorem KeepsPlaces.push {read : List Char} {s : Scan} (h : KeepsPlaces read s) (c : Char) :
    KeepsPlaces (read ++ [c]) (s.push c) := by
  refine ⟨?_, h.start.append [c], ?_, ?_⟩
  · show s.offset + c.utf8Size = _
    rw [h.offset_eq, Text.size_append]
    rfl
  · intro bracket hbracket
    exact (h.brackets bracket hbracket).append [c]
  · intro string hstring
    exact (h.string string hstring).append [c]

theorem OpenString.start_of_step {string string' : OpenString} {c : Char}
    (h : string.step c = some string') : string'.start = string.start := by
  unfold OpenString.step at h
  split_ifs at h
  · obtain rfl := Option.some.inj h
    rfl
  · obtain rfl := Option.some.inj h
    rfl
  · obtain rfl := Option.some.inj h
    rfl

/-- A step keeps the places, and those it adds are where the scan has come to. -/
theorem KeepsPlaces.step {read : List Char} {s s' : Scan} {c : Char} (h : KeepsPlaces read s)
    (hstep : s.step c = .ok s') : KeepsPlaces (read ++ [c]) s' := by
  have hpush := h.push c
  have hplace := h.isBoundary_offset [c]
  cases reads_of_step hstep with
  | @inside string hstring =>
      refine ⟨hpush.offset_eq, hpush.start, hpush.brackets, ?_⟩
      intro string' hstring'
      rw [OpenString.start_of_step hstring']
      exact hpush.string string hstring
  | quote =>
      refine ⟨hpush.offset_eq, hpush.start, hpush.brackets, ?_⟩
      intro string hstring
      obtain rfl := Option.some.inj hstring
      exact hplace
  | opening =>
      refine ⟨hpush.offset_eq, hpush.start, ?_, hpush.string⟩
      intro bracket hbracket
      rcases List.mem_cons.mp hbracket with rfl | hbracket
      · exact hplace
      · exact hpush.brackets bracket hbracket
  | closing hstring hbrackets =>
      refine ⟨hpush.offset_eq, hpush.start, ?_, hpush.string⟩
      intro bracket hbracket
      apply hpush.brackets bracket
      show bracket ∈ s.brackets
      rw [hbrackets]
      exact List.mem_cons_of_mem _ hbracket
  | cut hstring hcomma hbrackets hcut =>
      -- The next argument begins after the comma, which is all that has been read.
      obtain ⟨-, rfl⟩ := cut_eq_ok hcut
      have hoffset : s.offset + 1 = Text.size (read ++ [c]) := by
        rw [hcomma, Text.size_append, h.offset_eq]
        rfl
      refine ⟨hoffset, ?_, hpush.brackets, hpush.string⟩
      exact ⟨read ++ [c], [], (List.append_nil _).symm, hoffset⟩
  | comma => exact hpush
  | ordinary => exact hpush

/-- A run from the beginning of the text keeps the places. -/
theorem keepsPlaces_run {cs : List Char} {s : Scan} (h : cs.foldlM step initial = .ok s) :
    KeepsPlaces cs s :=
  Except.foldlM_invariant (fun _ _ _ _ hread hstep => hread.step hstep) []
    keepsPlaces_initial h

/-! ## The places of errors -/

theorem KeepsPlaces.isBoundary_of_refuses {read : List Char} {s : Scan} {c : Char}
    {e : SyntaxError} (h : KeepsPlaces read s) (he : Refuses s c e) (rest : List Char) :
    ∃ n, e.offset = some n ∧ IsBoundary (read ++ rest) n := by
  cases he with
  | unbalanced => exact ⟨s.offset, rfl, h.isBoundary_offset rest⟩
  | mismatched => exact ⟨s.offset, rfl, h.isBoundary_offset rest⟩
  | empty => exact ⟨s.start, rfl, h.start.append rest⟩

theorem KeepsPlaces.isBoundary_of_lacks {read : List Char} {s : Scan} {e : SyntaxError}
    (h : KeepsPlaces read s) (he : Lacks s e) : ∃ n, e.offset = some n ∧ IsBoundary read n := by
  cases he with
  | @quote string hstring => exact ⟨string.start, rfl, h.string string hstring⟩
  | @bracket bracket brackets _ hbrackets =>
      refine ⟨bracket.start, rfl, h.brackets bracket ?_⟩
      rw [hbrackets]
      exact List.mem_cons_self ..
  | argument => exact ⟨s.start, rfl, h.start⟩

end Scan

/-- An argument list that is refused is refused at one of its places. -/
theorem isBoundary_of_split {cs : List Char} {e : SyntaxError} (h : split cs = .error e) :
    ∃ n, e.offset = some n ∧ IsBoundary cs n := by
  rcases Except.bind_eq_error_iff.mp h with hrun | ⟨s, hrun, hfinish⟩
  · obtain ⟨front, c, rest, s, rfl, hfront, hstep⟩ := Except.exists_of_foldlM_eq_error hrun
    have hplaces := Scan.keepsPlaces_run hfront
    exact hplaces.isBoundary_of_refuses (Scan.refuses_of_step hstep) (c :: rest)
  · exact (Scan.keepsPlaces_run hrun).isBoundary_of_lacks (Scan.lacks_of_finish hfinish)

end DocShell.Arguments
