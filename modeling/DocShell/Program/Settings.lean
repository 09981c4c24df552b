import DocShell.Program.Failure
import DocShell.Toml.Document

set_option autoImplicit false

/-! # Settings

The settings file says how reports are made when the command line does not. It is a TOML
document; its table `output` may have a `format` and a flag `pretty`. All other keys are
ignored, and a file that is not there means the default settings. In place of the table an array
may give the two by their position, and in place of its name a format may be the only key of a
table that holds nothing under it.
-/

namespace DocShell

/-- How reports are made. -/
structure Settings where
  format : ReportFormat
  pretty : Bool
deriving DecidableEq

/-- What was found at the path of the settings file. -/
inductive SettingsFile where
  | absent
  | unreadable (why : String)
  /-- A text, with what the reader of the format has to say of it if it is not valid. The reader
  is free to say nothing. -/
  | present (text : String) (complaint : Option String := none)
deriving DecidableEq

namespace Settings

/-- Text reports, and JSON on one line. -/
def default : Settings := ⟨.text, false⟩

/-- The format that a node names; case matters here. -/
def formatOf? : Toml.Node → Option ReportFormat
  | .string name => ReportFormat.ofName? name
  | .table _ [(name, node)] => if node.isEmpty then ReportFormat.ofName? name else none
  | _ => none

/-- The flag that a node stands for. -/
def prettyOf? : Toml.Node → Option Bool
  | .boolean b => some b
  | _ => none

/-- The settings of two nodes. The default stands for one that is not given. -/
def ofNodes? (format pretty : Option Toml.Node) : Option Settings := do
  let format ← format.elim (some default.format) formatOf?
  let pretty ← pretty.elim (some default.pretty) prettyOf?
  return ⟨format, pretty⟩

/-- The settings of the node `output`. A date has no entries, and so changes nothing; of an array,
the items after the second are ignored. -/
def ofOutput? : Toml.Node → Option Settings
  | .dateTime => some default
  | .table _ entries =>
    ofNodes? (Toml.Entries.get? entries "format") (Toml.Entries.get? entries "pretty")
  | node => node.items?.bind fun items => ofNodes? items[0]? items[1]?

/-- The settings that a document gives, if it is valid. -/
def ofText? (text : String) : Option Settings := do
  let entries ← Toml.parse text
  (entries.get? "output").elim (some default) ofOutput?

/-- The settings that the file at a path gives. -/
def load (path : String) : SettingsFile → Except SettingsFault Settings
  | .absent => .ok default
  | .unreadable why => .error (.unreadable why)
  | .present text complaint =>
    match ofText? text with
    | some settings => .ok settings
    | none => .error (.invalid path complaint)

end Settings

end DocShell
