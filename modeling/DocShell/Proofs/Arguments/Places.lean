import DocShell.Proofs.Arguments.Scan

set_option autoImplicit false

/-! # Where the arguments stand

`tile` makes the arguments of segments that stand one after the other, with a comma between
them. Each argument is its segment without the white space around it, and its offset counts the
bytes of the segments and commas before it and of that white space (`isCut_iff`). So the
arguments stand in the list at their offsets (`isAt_of_mem_tile`), one after the other
(`pairwise_tile`), and what is left of the list without them is white space and the commas
(`filter_outside_tile`).
-/

namespace DocShell

open Text (isBlank isSpace)

namespace Fragment

/-- The text holds the argument at its offset. -/
def IsAt (text : List Char) (f : Fragment) : Prop :=
  ∃ before after, text = before ++ f.text.toList ++ after ∧ f.offset = Text.size before

/-- The place after the last byte of the argument. -/
def stop (f : Fragment) : Nat :=
  f.offset + Text.size f.text.toList

/-- Whether the argument holds the byte at the place. -/
def covers (place : Nat) (f : Fragment) : Bool :=
  f.offset ≤ place && place < f.stop

theorem covers_iff {place : Nat} {f : Fragment} :
    f.covers place = true ↔ f.offset ≤ place ∧ place < f.stop := by
  simp [covers]

/-- An argument of a list is found in every text that holds the list. -/
theorem IsAt.shifted {text : List Char} {f : Fragment} (h : f.IsAt text)
    (before after : List Char) :
    (f.shifted (Text.size before)).IsAt (before ++ text ++ after) := by
  obtain ⟨before', after', rfl, hoffset⟩ := h
  refine ⟨before ++ before', after' ++ after, ?_, ?_⟩
  · show _ = before ++ before' ++ f.text.toList ++ (after' ++ after)
    simp only [List.append_assoc]
  · show f.offset + Text.size before = _
    rw [Text.size_append, hoffset, Nat.add_comm]

end Fragment

namespace Arguments

/-! ## One segment -/

/-- The argument is the segment without the white space around it, and its offset is where that
begins in a text in which the segment follows `before`. -/
structure IsCut (before segment : List Char) (f : Fragment) : Prop where
  text_eq : f.text = String.ofList (Text.trim segment)
  offset_eq : ∃ w₁ w₂, isBlank w₁ = true ∧ isBlank w₂ = true ∧
    segment = w₁ ++ Text.trim segment ++ w₂ ∧ f.offset = Text.size (before ++ w₁)

theorem toList_text_fragmentAt (start : Nat) (segment : List Char) :
    (fragmentAt start segment).text.toList = Text.trim segment :=
  String.toList_ofList

/-- The argument of a segment begins after the white space at the beginning of it. -/
theorem exists_fragmentAt (start : Nat) (segment : List Char) :
    ∃ w₁ w₂, isBlank w₁ = true ∧ isBlank w₂ = true ∧ segment = w₁ ++ Text.trim segment ++ w₂ ∧
      (fragmentAt start segment).offset = start + Text.size w₁ := by
  obtain ⟨w₁, hw₁, hstart⟩ := Text.exists_trimStart segment
  obtain ⟨w₂, hw₂, hend⟩ := Text.exists_trimEnd (Text.trimStart segment)
  refine ⟨w₁, w₂, hw₁, hw₂, ?_, ?_⟩
  · rw [List.append_assoc, Text.trim, ← hend, ← hstart]
  · have hoffset := Text.offsetOf_append w₁ (Text.trimStart segment)
    rw [← hstart] at hoffset
    show start + Text.offsetOf segment (Text.trimStart segment) = _
    rw [hoffset]

theorem isCut_iff {before segment : List Char} {f : Fragment} (hblank : isBlank segment = false) :
    IsCut before segment f ↔ f = fragmentAt (Text.size before) segment := by
  constructor
  · rintro ⟨htext, w₁, w₂, hw₁, -, hsegment, hoffset⟩
    -- There is one way only to leave out the white space before a text that is not blank.
    have hlead := Text.offsetOf_trimStart hw₁ (Text.isSolid_trim hblank) w₂
    rw [← hsegment] at hlead
    obtain ⟨text, offset⟩ := f
    rw [fragmentAt, hlead, ← Text.size_append]
    exact congrArg₂ Fragment.mk htext hoffset
  · rintro rfl
    obtain ⟨w₁, w₂, hw₁, hw₂, hsegment, hoffset⟩ := exists_fragmentAt (Text.size before) segment
    exact ⟨rfl, w₁, w₂, hw₁, hw₂, hsegment, by rw [hoffset, Text.size_append]⟩

/-- The argument of a segment stands inside of it. -/
theorem fragmentAt_bounds (start : Nat) (segment : List Char) :
    start ≤ (fragmentAt start segment).offset ∧
      (fragmentAt start segment).stop ≤ start + Text.size segment := by
  obtain ⟨w₁, w₂, -, -, hsegment, hoffset⟩ := exists_fragmentAt start segment
  have hsize := congrArg Text.size hsegment
  rw [Text.size_append, Text.size_append] at hsize
  rw [Fragment.stop, toList_text_fragmentAt, hoffset]
  omega

theorem isAt_fragmentAt (before segment after : List Char) :
    (fragmentAt (Text.size before) segment).IsAt (before ++ segment ++ after) := by
  obtain ⟨w₁, w₂, -, -, hsegment, hoffset⟩ := exists_fragmentAt (Text.size before) segment
  refine ⟨before ++ w₁, w₂ ++ after, ?_, ?_⟩
  · rw [toList_text_fragmentAt]
    nth_rewrite 1 [hsegment]
    simp only [List.append_assoc]
  · rw [hoffset, Text.size_append]

/-! ## All segments -/

/-- Segments with a comma after each. -/
def joinSegments (segments : List (List Char)) : List Char :=
  segments.flatMap (· ++ [','])

theorem joinSegments_cons (segment : List Char) (segments : List (List Char)) :
    joinSegments (segment :: segments) = segment ++ ',' :: joinSegments segments := by
  simp [joinSegments]

theorem size_joinSegments_cons (segment : List Char) (segments : List (List Char)) :
    Text.size (joinSegments (segment :: segments)) =
      Text.size segment + 1 + Text.size (joinSegments segments) := by
  have hcomma : (',').utf8Size = 1 := rfl
  rw [joinSegments_cons, Text.size_append, Text.size_cons, hcomma]
  omega

theorem joinSegments_append_singleton (segments : List (List Char)) (segment : List Char) :
    joinSegments (segments ++ [segment]) = joinSegments segments ++ segment ++ [','] := by
  simp [joinSegments]

theorem intercalate_append_singleton (segments : List (List Char)) (segment : List Char) :
    List.intercalate [','] (segments ++ [segment]) = joinSegments segments ++ segment := by
  induction segments with
  | nil => exact List.intercalate_singleton
  | cons first segments ih =>
      rw [List.cons_append, Text.intercalate_cons (by simp), ih, joinSegments_cons]
      simp

theorem tile_append_singleton (start : Nat) (segments : List (List Char)) (segment : List Char) :
    tile start (segments ++ [segment]) =
      tile start segments ++ [fragmentAt (start + Text.size (joinSegments segments)) segment] := by
  induction segments generalizing start with
  | nil => rfl
  | cons first segments ih =>
      have hplace : start + Text.size first + 1 + Text.size (joinSegments segments) =
          start + Text.size (joinSegments (first :: segments)) := by
        rw [size_joinSegments_cons]
        omega
      rw [List.cons_append, tile, ih, tile, hplace, List.cons_append]

theorem getElem?_tile (start : Nat) (segments : List (List Char)) (i : Nat) :
    (tile start segments)[i]? = segments[i]?.map
      (fragmentAt (start + Text.size (joinSegments (segments.take i)))) := by
  induction segments generalizing start i with
  | nil => rfl
  | cons segment segments ih =>
      cases i with
      | zero => rfl
      | succ i =>
          have hplace : start + Text.size segment + 1 + Text.size (joinSegments (segments.take i)) =
              start + Text.size (joinSegments (segment :: segments.take i)) := by
            rw [size_joinSegments_cons]
            omega
          rw [tile, List.getElem?_cons_succ, List.getElem?_cons_succ, List.take_succ_cons, ih,
            hplace]

/-- The arguments are those that are cut from the segments, each after the segments before it. -/
theorem eq_tile_iff {segments : List (List Char)} {fragments : List Fragment}
    (hblank : ∀ t ∈ segments, isBlank t = false) :
    fragments = tile 0 segments ↔
      fragments.length = segments.length ∧
        ∀ i t f, segments[i]? = some t → fragments[i]? = some f →
          IsCut (joinSegments (segments.take i)) t f := by
  constructor
  · rintro rfl
    refine ⟨length_tile 0 segments, ?_⟩
    intro i t f ht hf
    rw [getElem?_tile, ht, Nat.zero_add] at hf
    exact (isCut_iff (hblank t (List.mem_of_getElem? ht))).mpr (Option.some.inj hf).symm
  · rintro ⟨hlength, hcut⟩
    apply List.ext_getElem?
    intro i
    rw [getElem?_tile, Nat.zero_add]
    by_cases hi : i < segments.length
    · have hi' : i < fragments.length := hlength.symm ▸ hi
      have ht := List.getElem?_eq_getElem hi
      have hf := List.getElem?_eq_getElem hi'
      have hisCut := hcut i _ _ ht hf
      rw [ht, hf, (isCut_iff (hblank _ (List.mem_of_getElem? ht))).mp hisCut]
      rfl
    · rw [List.getElem?_eq_none (by omega), List.getElem?_eq_none (by omega)]
      rfl

theorem exists_intercalate_cons (segment : List Char) (segments : List (List Char)) :
    ∃ after, List.intercalate [','] (segment :: segments) = segment ++ after := by
  by_cases hne : segments = []
  · exact ⟨[], by rw [hne, List.intercalate_singleton, List.append_nil]⟩
  · exact ⟨',' :: List.intercalate [','] segments, Text.intercalate_cons hne⟩

/-- The list holds each argument at its offset. -/
theorem isAt_of_mem_tile {before : List Char} {segments : List (List Char)} {f : Fragment}
    (hf : f ∈ tile (Text.size before) segments) :
    f.IsAt (before ++ List.intercalate [','] segments) := by
  induction segments generalizing before with
  | nil => contradiction
  | cons segment segments ih =>
      rw [tile, List.mem_cons] at hf
      rcases hf with rfl | hf
      · obtain ⟨after, hafter⟩ := exists_intercalate_cons segment segments
        rw [hafter, ← List.append_assoc]
        exact isAt_fragmentAt before segment after
      · have hne : segments ≠ [] := by
          rintro rfl
          contradiction
        have hplace : Text.size before + Text.size segment + 1 =
            Text.size (before ++ segment ++ [',']) := by
          rw [Text.size_append, Text.size_append]
          rfl
        rw [hplace] at hf
        have hat := ih hf
        rw [Text.intercalate_cons hne]
        simpa using hat

theorem offset_of_mem_tile {start : Nat} {segments : List (List Char)} {f : Fragment}
    (hf : f ∈ tile start segments) : start ≤ f.offset := by
  induction segments generalizing start with
  | nil => contradiction
  | cons segment segments ih =>
      rw [tile, List.mem_cons] at hf
      rcases hf with rfl | hf
      · exact (fragmentAt_bounds start segment).1
      · have hle := ih hf
        omega

/-- Each argument ends before the comma, and the next one begins after it. -/
theorem pairwise_tile (start : Nat) (segments : List (List Char)) :
    (tile start segments).Pairwise fun f g => f.stop < g.offset := by
  induction segments generalizing start with
  | nil => exact .nil
  | cons segment segments ih =>
      rw [tile, List.pairwise_cons]
      refine ⟨?_, ih _⟩
      intro g hg
      have hstop := (fragmentAt_bounds start segment).2
      have hoffset := offset_of_mem_tile hg
      omega

/-! ## Between the arguments -/

/-- The characters of a text that belong to none of the arguments. The text begins at `place`. -/
def outside (fragments : List Fragment) : (place : Nat) → List Char → List Char
  | _, [] => []
  | place, c :: cs =>
    if fragments.any (·.covers place) then outside fragments (place + c.utf8Size) cs
    else c :: outside fragments (place + c.utf8Size) cs

theorem outside_append (fragments : List Fragment) (place : Nat) (cs ds : List Char) :
    outside fragments place (cs ++ ds) =
      outside fragments place cs ++ outside fragments (place + Text.size cs) ds := by
  induction cs generalizing place with
  | nil => rfl
  | cons c cs ih =>
      rw [List.cons_append, outside, outside, Text.size_cons, ih, ← Nat.add_assoc]
      split_ifs
      · rfl
      · rfl

/-- Nothing of a text inside an argument is left. -/
theorem outside_of_covered {fragments : List Fragment} {f : Fragment} (hf : f ∈ fragments)
    {place : Nat} {cs : List Char} (hoffset : f.offset ≤ place)
    (hstop : place + Text.size cs ≤ f.stop) : outside fragments place cs = [] := by
  induction cs generalizing place with
  | nil => rfl
  | cons c cs ih =>
      have hpos := c.utf8Size_pos
      rw [Text.size_cons] at hstop
      have hany : fragments.any (·.covers place) = true := by
        apply List.any_eq_true.mpr
        exact ⟨f, hf, Fragment.covers_iff.mpr ⟨hoffset, by omega⟩⟩
      rw [outside, if_pos hany]
      exact ih (by omega) (by omega)

/-- All of a text that no argument meets is left. -/
theorem outside_of_free {fragments : List Fragment} {place : Nat} {cs : List Char}
    (h : ∀ f ∈ fragments, f.stop ≤ place ∨ place + Text.size cs ≤ f.offset) :
    outside fragments place cs = cs := by
  induction cs generalizing place with
  | nil => rfl
  | cons c cs ih =>
      have hpos := c.utf8Size_pos
      rw [Text.size_cons] at h
      have hany : ¬ fragments.any (·.covers place) = true := by
        intro hany
        obtain ⟨f, hf, hcovers⟩ := List.any_eq_true.mp hany
        have hplace := Fragment.covers_iff.mp hcovers
        have hfree := h f hf
        omega
      rw [outside, if_neg hany, ih]
      intro f hf
      have hfree := h f hf
      omega

theorem filter_blank {w : List Char} (h : isBlank w = true) :
    w.filter (fun c => !isSpace c) = [] := by
  rw [List.filter_eq_nil_iff]
  intro c hc
  simp [Text.isBlank_iff.mp h c hc]

/-- Of a segment only white space is left. -/
theorem filter_outside_segment {start : Nat} {segment : List Char} {earlier later : List Fragment}
    (hearlier : ∀ f ∈ earlier, f.stop ≤ start)
    (hlater : ∀ f ∈ later, start + Text.size segment ≤ f.offset) :
    (outside (earlier ++ fragmentAt start segment :: later) start segment).filter
      (fun c => !isSpace c) = [] := by
  obtain ⟨w₁, w₂, hw₁, hw₂, hsegment, hoffset⟩ := exists_fragmentAt start segment
  have hsize := congrArg Text.size hsegment
  rw [Text.size_append, Text.size_append] at hsize
  have hstop : (fragmentAt start segment).stop =
      start + Text.size w₁ + Text.size (Text.trim segment) := by
    rw [Fragment.stop, toList_text_fragmentAt, hoffset]
  generalize hfragments : earlier ++ fragmentAt start segment :: later = fragments
  have hmem : fragmentAt start segment ∈ fragments := by
    rw [← hfragments]
    simp
  have hcases : ∀ f ∈ fragments, f.stop ≤ start ∨ f = fragmentAt start segment ∨
      start + Text.size segment ≤ f.offset := by
    intro f hf
    rw [← hfragments, List.mem_append, List.mem_cons] at hf
    rcases hf with hf | hf | hf
    · exact .inl (hearlier f hf)
    · exact .inr (.inl hf)
    · exact .inr (.inr (hlater f hf))
  -- The segment is white space, its argument and white space again.
  have hbefore : outside fragments start w₁ = w₁ := by
    apply outside_of_free
    intro f hf
    rcases hcases f hf with hf | rfl | hf
    · exact .inl hf
    · exact .inr (by omega)
    · exact .inr (by omega)
  have hinside : outside fragments (start + Text.size w₁) (Text.trim segment) = [] :=
    outside_of_covered hmem (by omega) (by omega)
  have hafter : outside fragments (start + Text.size (w₁ ++ Text.trim segment)) w₂ = w₂ := by
    rw [Text.size_append]
    apply outside_of_free
    intro f hf
    rcases hcases f hf with hf | rfl | hf
    · exact .inl (by omega)
    · exact .inl (by omega)
    · exact .inr (by omega)
  rw [hsegment, outside_append, outside_append, hbefore, hinside, hafter]
  simp [filter_blank hw₁, filter_blank hw₂]

/-- What is left of the list without its arguments is white space and the commas. -/
theorem filter_outside_tile (start : Nat) (segments : List (List Char)) {earlier : List Fragment}
    (hearlier : ∀ f ∈ earlier, f.stop ≤ start) :
    (outside (earlier ++ tile start segments) start (List.intercalate [','] segments)).filter
      (fun c => !isSpace c) = List.replicate (segments.length - 1) ',' := by
  induction segments generalizing start earlier with
  | nil => rfl
  | cons segment segments ih =>
      have hlater : ∀ f ∈ tile (start + Text.size segment + 1) segments,
          start + Text.size segment + 1 ≤ f.offset := fun f hf => offset_of_mem_tile hf
      have hfirst := filter_outside_segment hearlier fun f hf =>
        Nat.le_of_succ_le (hlater f hf)
      by_cases hne : segments = []
      · subst hne
        rw [List.intercalate_singleton]
        exact hfirst
      · have hstop := (fragmentAt_bounds start segment).2
        -- The comma belongs to no argument, and those before it count as earlier from there on.
        have hcomma : outside (earlier ++ tile start (segment :: segments))
            (start + Text.size segment) [','] = [','] := by
          apply outside_of_free
          intro f hf
          rw [tile, List.mem_append, List.mem_cons] at hf
          rcases hf with hf | rfl | hf
          · exact .inl (Nat.le_trans (hearlier f hf) (Nat.le_add_right ..))
          · exact .inl hstop
          · exact .inr (hlater f hf)
        have hearlier' : ∀ f ∈ earlier ++ [fragmentAt start segment],
            f.stop ≤ start + Text.size segment + 1 := by
          intro f hf
          rcases List.mem_append.mp hf with hf | hf
          · have hle := hearlier f hf
            omega
          · rw [List.mem_singleton.mp hf]
            omega
        have hrest := ih _ hearlier'
        rw [List.append_assoc, List.singleton_append] at hrest
        have hlist : List.intercalate [','] (segment :: segments) =
            segment ++ ([','] ++ List.intercalate [','] segments) := Text.intercalate_cons hne
        have hspace : [','].filter (fun c => !isSpace c) = [','] := by decide
        have hlength : segments.length - 1 + 1 = segments.length :=
          Nat.sub_add_cancel (List.length_pos_iff.mpr hne)
        calc (outside (earlier ++ tile start (segment :: segments)) start
              (List.intercalate [','] (segment :: segments))).filter (fun c => !isSpace c)
            = [] ++ ([','] ++ List.replicate (segments.length - 1) ',') := by
              rw [hlist, outside_append, outside_append, List.filter_append, List.filter_append,
                hcomma, hspace]
              exact congrArg₂ _ hfirst (congrArg _ hrest)
          _ = List.replicate ((segment :: segments).length - 1) ',' := by
              rw [List.length_cons, Nat.add_sub_cancel, ← hlength, List.replicate_succ]
              rfl

end Arguments

end DocShell
