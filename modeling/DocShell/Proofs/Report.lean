import DocShell.Proofs.Command.RoundTrip
import DocShell.Proofs.Literal.Json
import DocShell.Report

set_option autoImplicit false

/-! # Reports can be decoded

The JSON report on a command that was read is the JSON text of a record, and JSON text is a
literal. So the parser of literals reads the report as the record again, with identifiers as JSON
writes them, whether it stands on one line or on several. The record holds the text of the
command as it was typed; since that text is all a report depends on, reading it and reporting on
it again gives the same report.
-/

namespace DocShell

/-! ## Commands that were read -/

namespace Command

/-- A command keeps the text it was read from, and its arguments have no key twice. -/
theorem keysDistinct_of_parse {s : String} {c : Command} (h : parse s = .ok c) :
    c.raw = s ∧ c.primary.keysDistinct = true ∧ ∀ v ∈ c.secondary, v.keysDistinct = true := by
  obtain ⟨w₁, parts, method, w₂, arguments, w₃, -, -, -, -, -, -, hraw, -⟩ := parse_iff_names.mp h
  obtain ⟨hprimary, hsecondary⟩ := isReadable_of_parse h
  exact ⟨hraw, hprimary.keysDistinct, fun v hv => (hsecondary v hv).keysDistinct⟩

end Command

namespace Report

/-! ## The record -/

/-- The record of a command as a reader of its report gets it: identifiers are objects. -/
def decoded (c : Command) (safety : Classification) : Value :=
  .object [
    ("rawQuery", .string c.raw),
    ("collection", .string c.collection),
    ("method", .string c.method.name),
    ("query", c.primary.expand),
    ("queryOptions", (c.secondary.map Value.expand).getD .null),
    ("extractOptions", .bool c.secondary.isSome),
    ("safety", .object [
      ("level", .string safety.level.name),
      ("requiresConfirmation", .bool safety.requiresConfirmation),
      ("warning", (safety.warning.map Value.string).getD .null)])]

theorem expand_record (c : Command) (safety : Classification) :
    (record c safety).expand = decoded c safety := by
  have hsecondary :
      (c.secondary.getD .null).expand = (c.secondary.map Value.expand).getD .null := by
    cases c.secondary <;> rfl
  have hwarning : ((safety.warning.map Value.string).getD .null).expand =
      (safety.warning.map Value.string).getD .null := by
    cases safety.warning <;> rfl
  rw [record, Command.record, safetyRecord, decoded]
  simp only [List.cons_append, List.nil_append, Value.expand, Value.expandFields, hsecondary,
    hwarning]

theorem keysDistinct_record {c : Command} (safety : Classification)
    (hprimary : c.primary.keysDistinct = true)
    (hsecondary : ∀ v ∈ c.secondary, v.keysDistinct = true) :
    (record c safety).keysDistinct = true := by
  have hoptions : (c.secondary.getD .null).keysDistinct = true := by
    cases hc : c.secondary with
    | none => rfl
    | some v => exact hsecondary v hc
  have hwarning : ((safety.warning.map Value.string).getD .null).keysDistinct = true := by
    cases safety.warning <;> rfl
  have hsafety : (Value.object (safetyRecord safety)).keysDistinct = true := by
    refine Value.keysDistinct_object_iff.mpr ⟨by simp [safetyRecord, Fields.keys], ?_⟩
    simpa [safetyRecord] using ⟨rfl, rfl, hwarning⟩
  refine Value.keysDistinct_object_iff.mpr ⟨by simp [Command.record, Fields.keys], ?_⟩
  simpa [Command.record] using ⟨rfl, rfl, rfl, hprimary, hoptions, rfl, hsafety⟩

/-- The record takes one level more than the arguments. -/
theorem depth_decoded_le {c : Command} (safety : Classification)
    (hprimary : c.primary.expand.depth ≤ 127)
    (hsecondary : ∀ v ∈ c.secondary, v.expand.depth ≤ 127) : (decoded c safety).depth ≤ 128 := by
  have hoptions : ((c.secondary.map Value.expand).getD .null).depth ≤ 127 := by
    cases hc : c.secondary with
    | none => exact Nat.zero_le 127
    | some v => exact hsecondary v hc
  have hwarning : ((safety.warning.map Value.string).getD .null).depth = 0 := by
    cases safety.warning <;> rfl
  have hsafety : (Value.object [("level", .string safety.level.name),
      ("requiresConfirmation", .bool safety.requiresConfirmation),
      ("warning", (safety.warning.map Value.string).getD .null)]).depth ≤ 127 := by
    refine Value.depth_object_le_iff.mpr ?_
    simp [Value.depth, hwarning]
  refine Value.depth_object_le_iff.mpr ?_
  simpa [Value.depth] using ⟨hprimary, hoptions, hsafety⟩

/-! ## The report -/

/-- The JSON report on a command is read as its record. -/
theorem parse_render {s : String} {c : Command} (h : Command.parse s = .ok c)
    (hprimary : c.primary.expand.depth ≤ 127)
    (hsecondary : ∀ v ∈ c.secondary, v.expand.depth ≤ 127) (safety : Classification)
    (layout : JsonLayout) :
    Literal.parse (render c safety .json layout) = .ok (decoded c safety) := by
  obtain ⟨-, hkeys, hkeys'⟩ := Command.keysDistinct_of_parse h
  have hdenotes := Literal.denotes_json layout (keysDistinct_record safety hkeys hkeys')
  rw [expand_record] at hdenotes
  apply (Literal.parse_of_denotes hdenotes).1
  exact depth_decoded_le safety hprimary hsecondary

/-- The JSON report on a command that was read is decoded as the record of its parts, on one line
or on several, and the text in the record gives the same report again. -/
theorem parse_render_json (s : String) (c : Command) (h : Command.parse s = .ok c)
    (hprimary : c.primary.expand.depth ≤ 127)
    (hsecondary : ∀ v ∈ c.secondary, v.expand.depth ≤ 127) :
    (∀ layout, Literal.parse (render c (.ofCommand c) .json layout) =
      .ok (.object [
        ("rawQuery", .string s),
        ("collection", .string c.collection),
        ("method", .string c.method.name),
        ("query", c.primary.expand),
        ("queryOptions", (c.secondary.map Value.expand).getD .null),
        ("extractOptions", .bool c.secondary.isSome),
        ("safety", .object [
          ("level", .string (Classification.ofCommand c).level.name),
          ("requiresConfirmation", .bool (Classification.ofCommand c).requiresConfirmation),
          ("warning", ((Classification.ofCommand c).warning.map Value.string).getD .null)])])) ∧
    Literal.parse (render c (.ofCommand c) .json .pretty) =
      Literal.parse (render c (.ofCommand c) .json .compact) ∧
    ∀ layout, ∃ v raw d, Literal.parse (render c (.ofCommand c) .json layout) = .ok v ∧
      v.get? "rawQuery" = some (.string raw) ∧ Command.parse raw = .ok d ∧
      render d (.ofCommand d) .json layout = render c (.ofCommand c) .json layout := by
  have hread := parse_render h hprimary hsecondary (.ofCommand c)
  obtain ⟨rfl, -⟩ := Command.keysDistinct_of_parse h
  refine ⟨hread, ?_, ?_⟩
  · rw [hread, hread]
  · intro layout
    exact ⟨_, c.raw, c, hread layout, rfl, h, rfl⟩

/-- Quotes, a line break and characters beyond ASCII in the text of the command, and an identifier
in its second argument, which takes one level more in the report. -/
theorem parse_render_json_identifier :
    ∃ s c v, Command.parse s = .ok c ∧
      s = " db.x\u00e9.updateOne(\x7b'\"': 1\x7d,\n[ObjectId('559d3e5b8152eefd4e9bed45')])" ∧
      c.primary.expand.depth = 1 ∧ c.secondary.map (fun v => v.expand.depth) = some 2 ∧
      Literal.parse (render c (.ofCommand c) .json .pretty) = .ok v ∧
      Literal.parse (render c (.ofCommand c) .json .compact) = .ok v ∧
      v.get? "rawQuery" = some (.string s) := by
  have hread : (Command.parse
    " db.x\u00e9.updateOne(\x7b'\"': 1\x7d,\n[ObjectId('559d3e5b8152eefd4e9bed45')])").toOption.map
      (fun c => (c.primary.expand.depth, c.secondary.map fun v => v.expand.depth)) =
      some (1, some 2) := by
    decide +kernel
  obtain ⟨c, hparse, hdepth⟩ := Except.exists_of_toOption_map hread
  obtain ⟨hprimary, hsecondary⟩ := Prod.mk.inj hdepth
  have hle : ∀ v ∈ c.secondary, v.expand.depth ≤ 127 := by
    intro v hv
    rw [Option.mem_def.mp hv, Option.map_some, Option.some.injEq] at hsecondary
    omega
  have hrecord := (parse_render_json _ c hparse (by omega) hle).1
  exact ⟨_, c, _, hparse, rfl, hprimary, hsecondary, hrecord .pretty, hrecord .compact, rfl⟩

end Report

end DocShell
