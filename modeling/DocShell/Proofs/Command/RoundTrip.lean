import DocShell.Proofs.Command.Language
import DocShell.Proofs.Literal.RoundTrip

set_option autoImplicit false

/-! # The canonical text of a command is read as that command

The arguments of a command that was read are values whose text is read back, and the text of a
command has the shape of a command. So the canonical text has the same parts as the command,
and is its own canonical text.
-/

namespace DocShell.Command

open Text (isBlank)

/-- What was read as an argument can be printed and read back. -/
theorem IsArgument.isReadable {t : List Char} {v : Value} (h : IsArgument t v) :
    Literal.IsReadable v 128 := by
  obtain ⟨w₁, t, w₂, n, -, -, -, hdenotes, hn⟩ := isArgument_iff.mp h
  exact hdenotes.isReadable.mono hn

/-- The text of a value is an argument, with white space before it. -/
theorem isArgument_chars {w : List Char} {v : Value} (hw : isBlank w = true)
    (hv : Literal.IsReadable v 128) : IsArgument (w ++ v.chars) v := by
  have hdenotes := Literal.denotes_chars v hv.keysDistinct hv.allFinite
  exact isArgument_iff.mpr ⟨w, v.chars, [], v.depth, hw, rfl, by simp, hdenotes, hv.depth_le⟩

/-- The text of the arguments. -/
def argumentChars (primary : Value) (secondary : Option Value) : List Char :=
  primary.chars ++ match secondary with
    | none => []
    | some v => ',' :: ' ' :: v.chars

theorem isReadable_empty : Literal.IsReadable .empty 128 := ⟨rfl, rfl, by decide⟩

/-- What a method takes can be printed and read back. -/
theorem isReadable_of_takes {m : Method} {t : List Char} {v : Value} {w : Option Value}
    (h : Takes m t v w) :
    Literal.IsReadable v 128 ∧ ∀ u ∈ w, Literal.IsReadable u 128 := by
  cases h with
  | omitted => exact ⟨isReadable_empty, by simp⟩
  | one hm hv => exact ⟨hv.isReadable, by simp⟩
  | two hm hv hw =>
      refine ⟨hv.isReadable, ?_⟩
      intro u hu
      obtain rfl := Option.some.inj hu
      exact hw.isReadable

/-- The arguments of a command that was read can be printed and read back. -/
theorem isReadable_of_parse {s : String} {c : Command} (h : parse s = .ok c) :
    Literal.IsReadable c.primary 128 ∧ ∀ v ∈ c.secondary, Literal.IsReadable v 128 := by
  obtain ⟨w₁, parts, method, w₂, arguments, w₃, -, -, -, -, -, -, -, -, -, htakes⟩ :=
    parse_iff_names.mp h
  exact isReadable_of_takes htakes

/-- What a method takes, it takes again as it is printed. -/
theorem takes_argumentChars {m : Method} {t : List Char} {v : Value} {w : Option Value}
    (h : Takes m t v w) : Takes m (argumentChars v w) v w := by
  cases h with
  | omitted hm =>
      -- An omitted argument is printed as the empty object that it stands for.
      exact .one hm (isArgument_chars Text.isBlank_nil isReadable_empty)
  | one hm hv =>
      have hprinted := isArgument_chars Text.isBlank_nil hv.isReadable
      rw [argumentChars, List.append_nil]
      exact .one hm hprinted
  | two hm hv hw =>
      have hfirst := isArgument_chars Text.isBlank_nil hv.isReadable
      -- The blank after the comma belongs to the second argument.
      have hsecond := isArgument_chars Literal.isBlank_space hw.isReadable
      exact .two hm hfirst hsecond

theorem chars_eq (c : Command) :
    c.chars = "db.".toList ++ c.collection.toList ++ '.' :: c.method.name.toList ++
      '(' :: (argumentChars c.primary c.secondary ++ [')']) := by
  unfold chars argumentChars
  cases c.secondary <;> simp

theorem toList_text (c : Command) {parts : List (List Char)} (hne : parts ≠ [])
    (hcollection : c.collection = String.ofList (Shape.joinParts parts)) :
    c.text.toList = [] ++ (Shape.nameChars parts c.method.name.toList ++ [] ++
      '(' :: (argumentChars c.primary c.secondary ++ [')'])) ++ [] := by
  have hlist : c.collection.toList = Shape.joinParts parts := by
    rw [hcollection]
    exact String.toList_ofList
  rw [Shape.nameChars_eq hne, ← hlist, text, String.toList_ofList, chars_eq]
  simp only [List.append_nil, List.nil_append]

/-- The canonical text of a command that was read is read as the same parts. -/
theorem parse_canonicalText {s : String} {c : Command} (h : parse s = .ok c) :
    parse c.text = .ok { c with raw := c.text } := by
  obtain ⟨w₁, parts, method, w₂, arguments, w₃, -, -, -, -, hne, hparts, -, hcollection, -,
    htakes⟩ := parse_iff_names.mp h
  refine parse_iff_names.mpr ⟨[], parts, c.method.name.toList, [],
    argumentChars c.primary c.secondary, [], rfl, rfl, rfl, ?_, hne, hparts, rfl, hcollection,
    String.ofList_toList.symm, takes_argumentChars htakes⟩
  exact toList_text c hne hcollection

/-- Reading the canonical text of a command gives the same command, but for the text it was read
from, and the same canonical text. -/
theorem parse_canonical (s : String) (c : Command) (h : parse s = .ok c) :
    ∃ d, parse c.text = .ok d ∧ d.collection = c.collection ∧ d.method = c.method ∧
      d.primary = c.primary ∧ d.secondary = c.secondary ∧ d.text = c.text :=
  ⟨_, parse_canonicalText h, rfl, rfl, rfl, rfl, rfl⟩

theorem exists_of_text {s t : String} (h : (parse s).toOption.map text = some t) :
    ∃ c, parse s = .ok c ∧ c.text = t :=
  Except.exists_of_toOption_map h

/-- A comma, a bracket and quotes inside strings, and white space all around. -/
theorem parse_canonical_updateOne :
    ∃ c d, parse " db.a-b.updateOne ( \x7b'x, ]': -0.0\x7d ,\t['\"', \"it's\"])\n" = .ok c ∧
      c.text = "db.a-b.updateOne(\x7b \"x, ]\": -0.0 \x7d, [\"\\\"\", \"it's\"])" ∧
      parse c.text = .ok d ∧ d.collection = c.collection ∧ d.method = c.method ∧
      d.primary = c.primary ∧ d.secondary = c.secondary ∧ d.text = c.text := by
  have hread :
      (parse " db.a-b.updateOne ( \x7b'x, ]': -0.0\x7d ,\t['\"', \"it's\"])\n").toOption.map text =
        some "db.a-b.updateOne(\x7b \"x, ]\": -0.0 \x7d, [\"\\\"\", \"it's\"])" := by
    decide +kernel
  obtain ⟨c, hparse, htext⟩ := exists_of_text hread
  obtain ⟨d, hd⟩ := parse_canonical _ c hparse
  exact ⟨c, d, hparse, htext, hd⟩

end DocShell.Command
