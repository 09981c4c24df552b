import DocShell.Safety

set_option autoImplicit false

/-! # Reports

What is shown of a command: its canonical text with a short summary, or a JSON record.
-/

namespace DocShell

/-- The form of a report. -/
inductive ReportFormat where
  | text
  | json
deriving DecidableEq

namespace ReportFormat

/-- The name of a form. -/
def name : ReportFormat → String
  | text => "text"
  | json => "json"

/-- The form of a name, which is matched exactly. -/
def ofName? (name : String) : Option ReportFormat :=
  [text, json].find? fun f => f.name = name

/-- The form of a name in upper or lower case. No letter beyond ASCII has a lower case among the
letters of the two names. -/
def ofAnyCase? (name : String) : Option ReportFormat :=
  ofName? (String.ofList (name.toList.map Char.toLower))

/-- What is told about a name that is none of the two. -/
def unknown (name : String) : String :=
  "Invalid output format: " ++ name ++ ". Expected: text or json"

end ReportFormat

namespace Report

/-- The canonical text and a summary, a line each. -/
def textLines (c : Command) (safety : Classification) : List String :=
  [c.text,
    "collection: " ++ c.collection,
    "method:     " ++ c.method.name,
    "safety:     " ++ safety.level.name] ++
  safety.warning.toList.map ("warning:    " ++ ·)

/-- The judgement as the fields of a record. -/
def safetyRecord (safety : Classification) : Fields :=
  [("level", .string safety.level.name),
    ("requiresConfirmation", .bool safety.requiresConfirmation),
    ("warning", (safety.warning.map Value.string).getD .null)]

/-- The command and its judgement as one record. -/
def record (c : Command) (safety : Classification) : Value :=
  .object (c.record ++ [("safety", .object (safetyRecord safety))])

/-- Lines, each with its end. -/
def unlines (lines : List String) : String :=
  String.join (lines.map (· ++ "\n"))

/-- The report on a command. -/
def render (c : Command) (safety : Classification) (format : ReportFormat)
    (layout : JsonLayout) : String :=
  match format with
  | .text => unlines (textLines c safety)
  | .json => (record c safety).json layout

end Report

end DocShell
