import DocShell.Literal.Key
import DocShell.Number.Shortest
import DocShell.Value.Basic

set_option autoImplicit false

/-! # The canonical text of a value

Strings stand in double quotes, keys without quotes where they can, and items are set apart by
a comma and a blank. Control characters are always escaped, so the text has one line.
-/

namespace DocShell

/-- Floating point numbers in literals. They are written positionally from `0.0001` up to
`1e16`, and a half goes up. -/
def Literal.floatStyle : FloatStyle where
  positionalFrom := -4
  scientificFrom := 16
  plusSign := false
  tie := .up
  nan := "NaN"
  infinity := "inf"
  negativeInfinity := "-inf"

namespace Quoted

/-- The spelling of a character between double quotes. -/
def spelling (c : Char) : List Char :=
  if c = '"' then ['\\', '"']
  else if c = '\\' then ['\\', '\\']
  else if c = '\n' then ['\\', 'n']
  else if c = '\r' then ['\\', 'r']
  else if c = '\t' then ['\\', 't']
  else if Text.isControl c then '\\' :: 'u' :: Text.hexPadded 4 c.toNat
  else [c]

/-- The text between double quotes. -/
def chars (s : List Char) : List Char :=
  '"' :: s.flatMap spelling ++ ['"']

end Quoted

/-- A key, quoted where it has to be. -/
def Key.chars (key : String) : List Char :=
  if Word.isBare key.toList then key.toList else Quoted.chars key.toList

namespace Value

mutual

/-- The canonical text of a value. -/
def chars : Value → List Char
  | null => "null".toList
  | bool true => "true".toList
  | bool false => "false".toList
  | int i => Text.decimalInt i.toInt
  | float x => x.chars Literal.floatStyle
  | string s => Quoted.chars s.toList
  | array [] => ['[', ']']
  | array (item :: items) => '[' :: item.chars ++ itemsChars items ++ [']']
  | object [] => ['{', '}']
  | object ((key, v) :: fields) =>
    '{' :: ' ' :: Key.chars key ++ ':' :: ' ' :: v.chars ++ fieldsChars fields ++ [' ', '}']
  | objectId id => id.chars

/-- The items after the first one, each after a comma. -/
def itemsChars : List Value → List Char
  | [] => []
  | item :: items => ',' :: ' ' :: item.chars ++ itemsChars items

/-- The fields after the first one, each after a comma. -/
def fieldsChars : List (String × Value) → List Char
  | [] => []
  | (key, v) :: fields =>
    ',' :: ' ' :: Key.chars key ++ ':' :: ' ' :: v.chars ++ fieldsChars fields

end

/-- The canonical text of a value. -/
def text (v : Value) : String :=
  String.ofList v.chars

end Value

end DocShell
