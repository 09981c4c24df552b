import DocShell.Proofs.Command.Decomposition
import DocShell.Proofs.Literal.RoundTrip
import DocShell.Safety

set_option autoImplicit false

/-! # Which commands are warned of

The strong warnings depend on whether the filter of a command is the empty object. In terms of the
text that was typed, it is so if and only if the argument is left out or is a pair of braces with
nothing but white space between them (`Literal.parse_eq_empty_iff`): a field that was written stays
in the object, even if its key is written again. The filter is the first argument, which is the
text before the first comma that stands outside of brackets and strings.
-/

namespace DocShell

open Text (isBlank)

/-! ## The empty object -/

namespace Fields

theorem insert_ne_nil (key : String) (v : Value) (fields : Fields) : insert key v fields ≠ [] := by
  cases fields with
  | nil => simp [insert]
  | cons f fields =>
      rw [insert]
      split_ifs <;> simp

/-- Fields that are written one after the other do not make an empty object. -/
theorem ofPairs_ne_nil {pairs : List (String × Value)} (h : pairs ≠ []) : ofPairs pairs ≠ [] := by
  obtain ⟨front, p, rfl⟩ := (List.eq_nil_or_concat' pairs).resolve_left h
  rw [ofPairs_append]
  exact insert_ne_nil _ _ _

end Fields

namespace Value

theorem isEmpty_iff {v : Value} : v.isEmpty = true ↔ v = .empty := by
  unfold isEmpty
  split
  · simp [empty]
  · rename_i hne
    simpa [empty] using hne

end Value

namespace Literal

variable {t : List Char} {n : Nat}

/-- A pair of braces with nothing but white space between them, and white space around it. -/
def IsEmptyObject (t : List Char) : Prop :=
  ∃ w, isBlank w = true ∧ Text.trim t = '{' :: w ++ ['}']

theorem Separated.ne_nil {α : Type} {Item : List Char → α → Nat → Prop} {as : List α}
    (h : Separated Item t as n) : as ≠ [] := by
  cases h <;> simp

/-- The empty object is denoted by a pair of braces only. -/
theorem Denotes.exists_blank {v : Value} (h : Denotes t v n) (hv : v = .empty) :
    ∃ w, isBlank w = true ∧ t = '{' :: w ++ ['}'] := by
  cases h with
  | scalar ht =>
      have hdepth := ht.isReadable.depth_le
      rw [hv] at hdepth
      exact absurd hdepth (by decide)
  | emptyArray => simp [Value.empty] at hv
  | array => simp [Value.empty] at hv
  | emptyObject hw => exact ⟨_, hw, rfl⟩
  | object hpairs =>
      have hne := Fields.ofPairs_ne_nil hpairs.ne_nil
      simp [Value.empty, Value.ofPairs, hne] at hv

theorem derives_empty_iff : Derives t .empty ↔ IsEmptyObject t := by
  constructor
  · rintro ⟨w₁, u, w₂, n, hw₁, hw₂, rfl, hu, -⟩
    obtain ⟨w, hw, rfl⟩ := hu.exists_blank rfl
    exact ⟨w, hw, Text.trim_append_append hw₁ hu.isFramed.isSolid hw₂⟩
  · rintro ⟨w, hw, htrim⟩
    refine derives_trim_iff.mp ⟨[], _, [], 1, rfl, rfl, ?_, .emptyObject hw, by decide⟩
    rw [htrim, List.nil_append, List.append_nil]

/-- No text but a blank one and a pair of braces is parsed as the empty object. -/
theorem parse_eq_empty_iff (text : String) :
    parse text = .ok .empty ↔ isBlank text.toList = true ∨ IsEmptyObject text.toList := by
  cases hblank : isBlank text.toList with
  | true => simp [parse_of_blank hblank]
  | false => simp [parse_of_not_blank hblank, derives_empty_iff]

end Literal

open Literal (IsEmptyObject)

/-! ## The first argument -/

namespace Arguments

variable {arguments t u : List Char}

/-- The text before the first comma outside of brackets and strings, or all of the text if there
is no such comma. -/
def IsFirst (arguments t : List Char) : Prop :=
  Balanced false t ∧ (arguments = t ∨ ∃ rest, arguments = t ++ ',' :: rest)

theorem IsFirst.unique (ht : IsFirst arguments t) (hu : IsFirst arguments u) : t = u := by
  obtain ⟨ht, rfl | ⟨rest, rfl⟩⟩ := ht
  · obtain ⟨hu, rfl | ⟨rest, rfl⟩⟩ := hu
    · rfl
    · exact absurd ht hu.not_balanced_comma
  · obtain ⟨hu, rfl | ⟨rest', h⟩⟩ := hu
    · exact absurd hu ht.not_balanced_comma
    · exact (eq_of_balanced_comma ht hu h).1

end Arguments

open Arguments (IsFirst)

namespace Command

/-- The first argument of what a method takes is the text of its first value. It is all that stands
in the parentheses, unless the method wants a second argument; then it is not left out. -/
theorem Takes.exists_first {m : Method} {arguments : List Char} {v : Value} {w : Option Value}
    (h : Takes m arguments v w) :
    ∃ first, IsFirst arguments first ∧ Literal.parse (String.ofList first) = .ok v ∧
      (m.rule.requiresSecond = false → first = arguments) ∧
      (m.rule.requiresSecond = true → isBlank first = false) := by
  cases h with
  | omitted hm ht =>
      have hparse : Literal.parse (String.ofList arguments) = .ok .empty :=
        Literal.parse_of_blank (by rwa [String.toList_ofList])
      exact ⟨arguments, ⟨Arguments.balanced_of_blank ht, .inl rfl⟩, hparse, fun _ => rfl,
        by simp [hm]⟩
  | one hm hv =>
      exact ⟨arguments, ⟨hv.balanced, .inl rfl⟩, hv.2, fun _ => rfl, by simp [hm]⟩
  | @two t u v w hm hv hw =>
      exact ⟨t, ⟨hv.balanced, .inr ⟨u, rfl⟩⟩, hv.2, by simp [hm], fun _ => hv.1⟩

/-- A command is read from a text that can be taken apart, with what the method takes in its
parentheses. -/
theorem exists_decomposition {s : String} {c : Command} (h : parse s = .ok c) :
    ∃ d : Shape.Decomposition s.toList, c.method.name = String.ofList d.method ∧
      Takes c.method d.arguments c.primary c.secondary := by
  obtain ⟨shape, hshape, hcall⟩ := parse_iff_shape.mp h
  obtain ⟨d, fragments, hsplit, rfl⟩ := Shape.ofText_eq_ok_iff_decomposition.mp hshape
  obtain ⟨-, -, hmethod, hfits⟩ := check_bind_ofCall_iff.mp hcall
  rw [map_text_shifted] at hfits
  exact ⟨d, hmethod, takes_iff.mpr ⟨fragments, hsplit, hfits⟩⟩

end Command

/-! ## Warnings -/

namespace Classification

/-- A method with its filter deserves exactly one of the three warnings, or none. -/
theorem warningFor_iff (m : Method) (v : Value) :
    (warningFor m v = some deleteAllWarning ↔ m = .deleteMany ∧ v.isEmpty = true) ∧
    (warningFor m v = some updateAllWarning ↔ m = .updateMany ∧ v.isEmpty = true) ∧
    (warningFor m v = some deleteWarning ↔
      m = .deleteOne ∨ m = .deleteMany ∧ ¬ v.isEmpty = true) ∧
    (warningFor m v = none ↔
      ¬ (m = .deleteOne ∨ m = .deleteMany ∨ m = .updateMany ∧ v.isEmpty = true)) := by
  unfold warningFor
  cases m <;> cases v.isEmpty <;> decide

theorem requiresConfirmation_ofMethod (m : Method) :
    (SafetyLevel.ofMethod m).requiresConfirmation = false ↔
      m ∈ [.find, .findOne, .aggregate, .count] := by
  cases m <;> decide

theorem requiresWarning_iff (c : Command) :
    (ofCommand c).requiresWarning = true ↔ (ofCommand c).warning.isSome = true := by
  unfold requiresWarning ofCommand warningFor
  cases c.method <;> cases c.primary.isEmpty <;> decide

/-- The warnings of a command in terms of its text, which is taken apart in one way. A delete of
many concerns the whole collection if nothing but white space or the empty object stands in the
parentheses, an update of many if its first argument is the empty object; any other delete has the
plain warning, and any other command none. -/
theorem warning_iff_written (s : String) (c : Command) (h : Command.parse s = .ok c) :
    ∃ (d : Shape.Decomposition s.toList) (first : List Char),
      (∀ d', d' = d) ∧ c.method.name = String.ofList d.method ∧
      (∀ t, IsFirst d.arguments t ↔ t = first) ∧
      ((ofCommand c).warning = some deleteAllWarning ↔
        c.method = .deleteMany ∧ (isBlank d.arguments = true ∨ IsEmptyObject d.arguments)) ∧
      ((ofCommand c).warning = some updateAllWarning ↔
        c.method = .updateMany ∧ IsEmptyObject first) ∧
      ((ofCommand c).warning = some deleteWarning ↔
        c.method = .deleteOne ∨
          c.method = .deleteMany ∧ ¬ (isBlank d.arguments = true ∨ IsEmptyObject d.arguments)) ∧
      ((ofCommand c).warning = none ↔
        ¬ (c.method = .deleteOne ∨ c.method = .deleteMany ∨
          c.method = .updateMany ∧ IsEmptyObject first)) ∧
      ((ofCommand c).requiresConfirmation = false ↔
        c.method ∈ [.find, .findOne, .aggregate, .count]) ∧
      ((ofCommand c).requiresWarning = true ↔ (ofCommand c).warning.isSome = true) ∧
      ∀ t, Literal.parse t = .ok .empty ↔ isBlank t.toList = true ∨ IsEmptyObject t.toList := by
  obtain ⟨d, hname, htakes⟩ := Command.exists_decomposition h
  obtain ⟨first, hfirst, hparse, hall, hgiven⟩ := htakes.exists_first
  have hempty : c.primary.isEmpty = true ↔ isBlank first = true ∨ IsEmptyObject first := by
    have hiff := Literal.parse_eq_empty_iff (String.ofList first)
    rw [hparse, Except.ok.injEq, String.toList_ofList] at hiff
    rw [Value.isEmpty_iff, hiff]
  -- A delete has no other argument than its filter, and an update cannot leave its filter out.
  have hdelete (hm : c.method = .deleteMany) :
      c.primary.isEmpty = true ↔ isBlank d.arguments = true ∨ IsEmptyObject d.arguments := by
    rw [hempty, hall (by rw [hm]; rfl)]
  have hupdate (hm : c.method = .updateMany) :
      c.primary.isEmpty = true ↔ IsEmptyObject first := by
    have hblank := hgiven (by rw [hm]; rfl)
    simp [hempty, hblank]
  obtain ⟨hdeleteAll, hupdateAll, hplain, hnone⟩ := warningFor_iff c.method c.primary
  refine ⟨d, first, fun d' => d'.unique d, hname, fun t => ?_, ?_, ?_, ?_, ?_,
    requiresConfirmation_ofMethod c.method, requiresWarning_iff c,
    Literal.parse_eq_empty_iff⟩
  · exact ⟨fun ht => ht.unique hfirst, fun ht => ht ▸ hfirst⟩
  · exact hdeleteAll.trans (and_congr_right hdelete)
  · exact hupdateAll.trans (and_congr_right hupdate)
  · exact hplain.trans (or_congr_right (and_congr_right fun hm => not_congr (hdelete hm)))
  · exact hnone.trans (not_congr (or_congr_right (or_congr_right (and_congr_right hupdate))))

/-- Line breaks and blanks in and around the braces of the filter. -/
theorem warning_iff_written_updateMany :
    ∃ (s : String) (c : Command) (d : Shape.Decomposition s.toList) (first : List Char),
      s = "db.a.updateMany( \x7b\n\x7d\t, \x7b$set: 1\x7d)" ∧ Command.parse s = .ok c ∧
      IsFirst d.arguments first ∧ IsEmptyObject first ∧
      (ofCommand c).warning = some updateAllWarning ∧ (ofCommand c).requiresWarning = true := by
  have hread : (Command.parse "db.a.updateMany( \x7b\n\x7d\t, \x7b$set: 1\x7d)").toOption.map
      (fun c => (ofCommand c).warning) = some (some updateAllWarning) := by
    decide +kernel
  obtain ⟨c, hparse, hwarning⟩ := Except.exists_of_toOption_map hread
  obtain ⟨d, first, -, -, hfirst, -, hupdate, -, -, -, hrequires, -⟩ :=
    warning_iff_written _ c hparse
  refine ⟨_, c, d, first, rfl, hparse, (hfirst first).mpr rfl, (hupdate.mp hwarning).2,
    hwarning, ?_⟩
  exact hrequires.mpr (by rw [hwarning]; rfl)

end Classification

end DocShell
