import DocShell.Number.Shortest
import DocShell.Value.Basic

set_option autoImplicit false

/-! # JSON text

Values as JSON, on one line or set out over several with an indentation of two blanks. JSON
knows neither document identifiers nor infinities: an identifier becomes an object with the
one field `$oid`, and a number that is not finite becomes `null`. `Value.expand` makes the
same two replacements in the value itself.
-/

namespace DocShell

/-- Whether JSON stands on one line or on several. -/
inductive JsonLayout where
  | compact
  | pretty
deriving DecidableEq

namespace Json

/-- Floating point numbers in JSON. They are written positionally from `0.00001` up to `1e16`,
and a half goes to the even neighbour. -/
def floatStyle : FloatStyle where
  positionalFrom := -5
  scientificFrom := 16
  plusSign := true
  tie := .toEven
  nan := "null"
  infinity := "null"
  negativeInfinity := "null"

/-- The spelling of a character in a JSON string. -/
def spelling (c : Char) : List Char :=
  if c = '"' then ['\\', '"']
  else if c = '\\' then ['\\', '\\']
  else if c = '\x08' then ['\\', 'b']
  else if c = '\t' then ['\\', 't']
  else if c = '\n' then ['\\', 'n']
  else if c = '\x0c' then ['\\', 'f']
  else if c = '\r' then ['\\', 'r']
  else if c.toNat < 0x20 then '\\' :: 'u' :: Text.hexPadded 4 c.toNat
  else [c]

/-- A JSON string. -/
def quoted (s : List Char) : List Char :=
  '"' :: s.flatMap spelling ++ ['"']

/-- What stands before an item at the given level: a new line and its indentation, or
nothing. -/
def indent (layout : JsonLayout) (level : Nat) : List Char :=
  match layout with
  | .compact => []
  | .pretty => '\n' :: List.replicate (2 * level) ' '

/-- Items between brackets, one level deeper than the brackets. -/
def bracketed (layout : JsonLayout) (level : Nat) (container : Container) :
    (items : List (List Char)) → List Char
  | [] => [container.opening, container.closing]
  | item :: items =>
    container.opening :: indent layout (level + 1) ++ item ++
      items.flatMap (fun other => ',' :: indent layout (level + 1) ++ other) ++
      indent layout level ++ [container.closing]

/-- A member of an object. -/
def member (layout : JsonLayout) (key : String) (value : List Char) : List Char :=
  let colon := match layout with
    | .compact => [':']
    | .pretty => [':', ' ']
  quoted key.toList ++ colon ++ value

end Json

namespace Value

mutual

/-- The JSON text of a value at the given level of indentation. -/
def jsonChars (layout : JsonLayout) (level : Nat) : Value → List Char
  | null => "null".toList
  | bool true => "true".toList
  | bool false => "false".toList
  | int i => Text.decimalInt i.toInt
  | float x => x.chars Json.floatStyle
  | string s => Json.quoted s.toList
  | array items => Json.bracketed layout level .array (jsonItems layout (level + 1) items)
  | object fields => Json.bracketed layout level .object (jsonFields layout (level + 1) fields)
  | objectId id =>
    Json.bracketed layout level .object [Json.member layout "$oid" (Json.quoted id.hex.toList)]

/-- The JSON texts of the items. -/
def jsonItems (layout : JsonLayout) (level : Nat) : List Value → List (List Char)
  | [] => []
  | v :: items => v.jsonChars layout level :: jsonItems layout level items

/-- The JSON texts of the fields. -/
def jsonFields (layout : JsonLayout) (level : Nat) : List (String × Value) → List (List Char)
  | [] => []
  | (key, v) :: fields =>
    Json.member layout key (v.jsonChars layout level) :: jsonFields layout level fields

end

/-- The JSON text of a value. -/
def json (layout : JsonLayout) (v : Value) : String :=
  String.ofList (v.jsonChars layout 0)

mutual

/-- The value that JSON can tell: identifiers as objects, infinities as `null`. -/
def expand : Value → Value
  | float x => if x.isFinite then float x else null
  | array items => array (expandItems items)
  | object fields => object (expandFields fields)
  | objectId id => object [("$oid", string id.hex)]
  | v => v

/-- Item by item. -/
def expandItems : List Value → List Value
  | [] => []
  | v :: items => v.expand :: expandItems items

/-- Field by field. -/
def expandFields : List (String × Value) → List (String × Value)
  | [] => []
  | (key, v) :: fields => (key, v.expand) :: expandFields fields

end

end Value

end DocShell
