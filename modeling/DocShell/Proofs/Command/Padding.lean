import DocShell.Proofs.Command.Places

set_option autoImplicit false

/-! # Commands with white space around them

White space around a command changes nothing but places. A text is trimmed before it is taken
apart, so its shape is the same, and the places of the arguments move by the white space before it
(`ofText_padded`). Each stage of a command is then reached as without the white space
(`Stage.padded`), and every error moves by as many bytes as the arguments do.
-/

namespace DocShell

open Text (isBlank)

/-! ## Places that move -/

theorem SyntaxError.shifted_shifted (e : SyntaxError) (n m : Nat) :
    (e.shifted n).shifted m = e.shifted (m + n) := by
  obtain ⟨reason, place⟩ := e
  cases place with
  | none => rfl
  | some k => simp [shifted, Nat.add_assoc, Nat.add_comm m n]

theorem Fragment.shifted_shifted (f : Fragment) (n m : Nat) :
    (f.shifted n).shifted m = f.shifted (m + n) := by
  simp [shifted, Nat.add_assoc, Nat.add_comm m n]

/-- The error as seen from a text in which the refused one begins after `base` bytes. -/
def QueryError.shifted (base : Nat) : QueryError → QueryError
  | malformed detail => malformed (detail.shifted base)
  | e => e

/-- The shape as seen from a text in which the command begins after `base` bytes. -/
def Shape.shifted (base : Nat) (shape : Shape) : Shape :=
  { shape with arguments := shape.arguments.map (·.shifted base) }

/-! ## Texts with white space around them -/

namespace Text

variable {w₁ t w₂ : List Char}

theorem isBlank_padded (ht : isBlank t = false) : isBlank (w₁ ++ t ++ w₂) = false := by
  simp [ht]

theorem trim_padded (h₁ : isBlank w₁ = true) (ht : isBlank t = false) (h₂ : isBlank w₂ = true) :
    trim (w₁ ++ t ++ w₂) = trim t := by
  obtain ⟨u₁, u₂, hu₁, hu₂, hsplit⟩ := exists_trim t
  have hfront : isBlank (w₁ ++ u₁) = true := by simp [h₁, hu₁]
  have hback : isBlank (u₂ ++ w₂) = true := by simp [hu₂, h₂]
  calc trim (w₁ ++ t ++ w₂)
      = trim (w₁ ++ (u₁ ++ trim t ++ u₂) ++ w₂) := by rw [← hsplit]
    _ = trim ((w₁ ++ u₁) ++ trim t ++ (u₂ ++ w₂)) := by simp only [List.append_assoc]
    _ = trim t := trim_append_append hfront (isSolid_trim ht) hback

/-- The first character that is no white space moves by the white space that is put in front. -/
theorem firstSolid_padded (h₁ : isBlank w₁ = true) (ht : isBlank t = false) :
    firstSolid (w₁ ++ t ++ w₂) = size w₁ + firstSolid t := by
  obtain ⟨u₁, u₂, hu₁, -, hsplit⟩ := exists_trim t
  have hfront : isBlank (w₁ ++ u₁) = true := by simp [h₁, hu₁]
  have hall : w₁ ++ t ++ w₂ = (w₁ ++ u₁) ++ trim t ++ (u₂ ++ w₂) := by
    conv_lhs => rw [hsplit]
    simp only [List.append_assoc]
  have hlead : firstSolid t = size u₁ := by
    have hstart := offsetOf_trimStart hu₁ (isSolid_trim ht) u₂
    rwa [← hsplit, offsetOf_trimStart_eq] at hstart
  rw [hall, ← offsetOf_trimStart_eq, offsetOf_trimStart hfront (isSolid_trim ht), size_append,
    hlead]

end Text

/-! ## Shapes -/

namespace Shape

variable {w₁ t w₂ : List Char}

/-- White space around a text moves its arguments, or the place of its error, by the white space
before it. -/
theorem ofText_padded (h₁ : isBlank w₁ = true) (ht : isBlank t = false) (h₂ : isBlank w₂ = true) :
    ofText (w₁ ++ t ++ w₂) =
      ((ofText t).map (shifted (Text.size w₁))).mapError (SyntaxError.shifted (Text.size w₁)) := by
  unfold ofText
  rw [Text.isBlank_padded ht, ht, Text.trim_padded h₁ ht h₂, Text.offsetOf_trimStart_eq,
    Text.offsetOf_trimStart_eq, Text.firstSolid_padded h₁ ht]
  simp only [Bool.false_eq_true, if_false]
  cases names? (head (Text.trim t)) with
  | none => simp [Except.map, Except.mapError, SyntaxError.shifted, Nat.add_comm]
  | some names =>
      cases inner? (Text.trim t) with
      | none => simp [Except.map, Except.mapError, SyntaxError.shifted, Nat.add_comm]
      | some arguments =>
          dsimp only
          cases Arguments.split arguments with
          | error e =>
              simp [Except.map, Except.mapError, SyntaxError.shifted_shifted, Nat.add_assoc]
          | ok fragments =>
              simp [Except.map, Except.mapError, shifted, Fragment.shifted_shifted,
                Function.comp_def, Nat.add_assoc]

end Shape

/-! ## Commands -/

namespace Command

/-- What becomes of a text, as told of the longer text `raw` in which it begins after `base`
bytes. -/
def moved (raw : String) (base : Nat) : Except QueryError Command → Except QueryError Command
  | .ok c => .ok { c with raw := raw }
  | .error e => .error (e.shifted base)

variable {t w₁ w₂ : String} {result : Except QueryError Command}

/-- Every stage is reached with the white space as it is without. -/
theorem Stage.padded (h₁ : isBlank w₁.toList = true) (ht : isBlank t.toList = false)
    (h₂ : isBlank w₂.toList = true) (h : Stage t result) :
    Stage (w₁ ++ t ++ w₂) (moved (w₁ ++ t ++ w₂) (Text.size w₁.toList) result) := by
  have hpadded := Shape.ofText_padded h₁ ht h₂
  rw [← String.toList_append, ← String.toList_append] at hpadded
  have hshaped : ∀ {shape}, Shape.ofText t.toList = .ok shape →
      Shape.ofText (w₁ ++ t ++ w₂).toList = .ok (shape.shifted (Text.size w₁.toList)) := by
    intro shape hs
    rw [hpadded, hs]
    rfl
  cases h with
  | missing hs =>
      subst hs
      contradiction
  | misshapen hs he =>
      have hne : w₁ ++ t ++ w₂ ≠ "" := by simp [hs]
      have hmoved := hpadded
      rw [he] at hmoved
      exact .misshapen hne hmoved
  | unsupported hs hm =>
      have hstage := Stage.unsupported (hshaped hs) hm
      exact hstage
  | lacking hs hm hsecond =>
      exact .lacking (hshaped hs) hm (by simpa [Shape.shifted] using hsecond)
  | @excessive shape m extra hs hm hsecond hextra =>
      have hmoved : (shape.shifted (Text.size w₁.toList)).arguments[m.rule.most]? =
          some (extra.shifted (Text.size w₁.toList)) := by
        simp [Shape.shifted, hextra]
      have hstage := Stage.excessive (hshaped hs) hm (by simpa [Shape.shifted] using hsecond) hmoved
      simpa [Shape.shifted, moved, QueryError.shifted, SyntaxError.shifted, Fragment.shifted]
        using hstage
  | @refused shape m before after f e hs hm hsecond hmost harguments hbefore hf =>
      have hmoved : (shape.shifted (Text.size w₁.toList)).arguments =
          before.map (·.shifted (Text.size w₁.toList)) ++ f.shifted (Text.size w₁.toList) ::
            after.map (·.shifted (Text.size w₁.toList)) := by
        simp [Shape.shifted, harguments]
      have hliterals : ∀ g ∈ before.map (·.shifted (Text.size w₁.toList)),
          ∃ v, Literal.parse g.text = .ok v := by
        simpa [Fragment.shifted] using hbefore
      have hstage := Stage.refused (hshaped hs) hm (by simpa [Shape.shifted] using hsecond)
        (by simpa [Shape.shifted] using hmost) hmoved hliterals hf
      rw [moved, QueryError.shifted, SyntaxError.shifted_shifted, Nat.add_comm]
      exact hstage
  | read hs _ hcollection hm hfits =>
      refine .read (hshaped hs) rfl hcollection hm ?_
      rwa [Shape.shifted, map_text_shifted]

/-- White space around a command leaves its parts as they are. An error remains the same, and its
place moves by the white space before the command. -/
theorem parse_padded (t w₁ w₂ : String) (ht : isBlank t.toList = false)
    (h₁ : isBlank w₁.toList = true) (h₂ : isBlank w₂.toList = true) :
    (∃ c d, parse t = .ok c ∧ parse (w₁ ++ t ++ w₂) = .ok d ∧
      d.collection = c.collection ∧ d.method = c.method ∧ d.primary = c.primary ∧
      d.secondary = c.secondary ∧ c.raw = t ∧ d.raw = w₁ ++ t ++ w₂) ∨
    (∃ name, parse t = .error (.unsupportedMethod name) ∧
      parse (w₁ ++ t ++ w₂) = .error (.unsupportedMethod name)) ∨
    (∃ name, parse t = .error (.missingOptions name) ∧
      parse (w₁ ++ t ++ w₂) = .error (.missingOptions name)) ∨
    ∃ reason n, parse t = .error (.malformed ⟨reason, some n⟩) ∧
      parse (w₁ ++ t ++ w₂) =
        .error (.malformed ⟨reason, some (n + Text.size w₁.toList)⟩) := by
  obtain ⟨result, hstage⟩ := exists_stage t
  have hparse := parse_of_stage hstage
  have hpadded := parse_of_stage (hstage.padded h₁ ht h₂)
  rcases result with (- | ⟨reason, place⟩ | name | name) | c
  · rw [missingInput_iff.mp hparse] at ht
    contradiction
  · -- The text is not blank, so the error has a place.
    rcases pointsInto_of_parse hparse with ⟨hblank, -⟩ | ⟨-, n, hn, -⟩
    · rw [ht] at hblank
      contradiction
    · obtain rfl : place = some n := hn
      exact .inr (.inr (.inr ⟨reason, n, hparse, hpadded⟩))
  · exact .inr (.inl ⟨name, hparse, hpadded⟩)
  · exact .inr (.inr (.inl ⟨name, hparse, hpadded⟩))
  · cases hstage with
    | read _ hraw => exact .inl ⟨c, _, hparse, hpadded, rfl, rfl, rfl, rfl, hraw, rfl⟩

/-- A list without its closing bracket, after white space of three bytes and with a line break
behind it: the place of the bracket moves by three bytes. -/
theorem parse_padded_ideographic :
    parse "db.a.find(1, [2)" = .error (.malformed ⟨.missing ']', some 13⟩) ∧
      parse ("\u3000" ++ "db.a.find(1, [2)" ++ "\n") =
        .error (.malformed ⟨.missing ']', some 16⟩) := by
  have hparse : parse "db.a.find(1, [2)" = .error (.malformed ⟨.missing ']', some 13⟩) :=
    Except.error?_eq_some_iff.mp (by decide +kernel)
  refine ⟨hparse, ?_⟩
  rcases parse_padded "db.a.find(1, [2)" "\u3000" "\n" (by decide) (by decide) (by decide) with
    ⟨c, d, hc, -⟩ | ⟨name, hname, -⟩ | ⟨name, hname, -⟩ | ⟨reason, n, he, hpadded⟩
  · simp [hparse] at hc
  · simp [hparse] at hname
  · simp [hparse] at hname
  · rw [hparse] at he
    obtain ⟨rfl, rfl⟩ : .missing ']' = reason ∧ 13 = n := by simpa using he
    exact hpadded

end Command

end DocShell
