import DocShell.Command.Shape
import DocShell.Json
import DocShell.Literal.Parser
import DocShell.Literal.Printer
import DocShell.Method

set_option autoImplicit false

/-! # Commands

A command is a call of a method on a collection, with its arguments as values. A text becomes
a command in three stages, and the first that fails decides: the shape of the command, the
method and the number of its arguments, the literals.
-/

namespace DocShell

/-- A command, with the text it was read from. -/
structure Command where
  raw : String
  collection : String
  method : Method
  /-- The first argument; the empty object if it was left out. -/
  primary : Value
  /-- The second argument, for methods that require one. -/
  secondary : Option Value

namespace Command

/-! ## From text -/

/-- The value of an argument. Errors are placed in the text of the command. -/
def argument (f : Fragment) : Except QueryError Value :=
  match Literal.parse f.text with
  | .error e => .error (.malformed (e.shifted f.offset))
  | .ok v => .ok v

/-- The value of an argument that may be missing. -/
def argument? : Option Fragment → Except QueryError (Option Value)
  | none => .ok none
  | some f => (argument f).map some

/-- Reads the arguments of a call. -/
def ofCall (raw collection : String) (call : Call) : Except QueryError Command := do
  let primary ← argument? call.primary
  let secondary ← argument? call.secondary
  return ⟨raw, collection, call.method, primary.getD .empty, secondary⟩

/-- The shape of a text, if it has the shape of a command. -/
def shape (text : String) : Except QueryError Shape :=
  (Shape.ofText text.toList).mapError .malformed

/-- Reads a command. -/
def parse (text : String) : Except QueryError Command := do
  if text.isEmpty then throw .missingInput
  let shape ← shape text
  let call ← Call.check shape.method shape.arguments
  ofCall text shape.collection call

/-- Reads a command from a text that may be missing. -/
def parse? : Option String → Except QueryError Command
  | none => .error .missingInput
  | some text => parse text

/-! ## To text -/

/-- The canonical text of a command. -/
def chars (c : Command) : List Char :=
  let second := match c.secondary with
    | none => []
    | some v => ',' :: ' ' :: v.chars
  "db.".toList ++ c.collection.toList ++ '.' :: c.method.name.toList ++
    '(' :: c.primary.chars ++ second ++ [')']

/-- The canonical text of a command. -/
def text (c : Command) : String :=
  String.ofList c.chars

/-- The parts of a command as the fields of a record. -/
def record (c : Command) : Fields :=
  [("rawQuery", .string c.raw),
    ("collection", .string c.collection),
    ("method", .string c.method.name),
    ("query", c.primary),
    ("queryOptions", c.secondary.getD .null),
    ("extractOptions", .bool c.secondary.isSome)]

/-- The JSON text of a command. -/
def json (layout : JsonLayout) (c : Command) : String :=
  (Value.object c.record).json layout

/-! ## Comparison -/

/-- Whether the second arguments are both absent or equal in meaning. -/
def sameSecondary : Option Value → Option Value → Bool
  | none, none => true
  | some v, some w => v.equal w
  | _, _ => false

/-- Whether two commands do the same, whatever the texts they were read from. -/
def sameParts (c d : Command) : Bool :=
  c.collection == d.collection && c.method == d.method && c.primary.equal d.primary &&
    sameSecondary c.secondary d.secondary

end Command

end DocShell
