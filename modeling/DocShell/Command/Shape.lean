import DocShell.Arguments
import DocShell.Text.Word

set_option autoImplicit false

/-! # The shape of a command

A command is written `db.<collection>.<method>(<arguments>)`, with white space around it and
before the parenthesis. The name of a collection has one or more parts, set apart by points; a
part may hold hyphens but not end with one.

The opening parenthesis is the first one of the text and the closing one its last character:
neither names nor white space hold a parenthesis.
-/

namespace DocShell

/-- A command taken apart: its names, and its arguments with their places in the text. -/
structure Shape where
  collection : String
  method : String
  arguments : List Fragment
deriving DecidableEq

namespace Shape

/-! ## Names -/

/-- The characters a name begins with. -/
def isInitial (c : Char) : Bool :=
  c.isAlpha || c == '_' || c == '$'

/-- The characters a method's name goes on with. -/
def isNameChar (c : Char) : Bool :=
  Text.isWord c || c == '$'

/-- Whether the text can be the name of a method. -/
def isMethodName : List Char → Bool
  | [] => false
  | c :: cs => isInitial c && cs.all isNameChar

/-- Whether the text can be a part of a collection's name. -/
def isCollectionPart : List Char → Bool
  | [] => false
  | c :: cs =>
    isInitial c && cs.all (fun d => isNameChar d || d == '-') && cs.getLast? != some '-'

/-- Parts with points between them. -/
def joinParts (parts : List (List Char)) : List Char :=
  List.intercalate ['.'] parts

/-- The names in the text before the parenthesis: the collection's parts, and the method. -/
def names? (head : List Char) : Option (List (List Char) × List Char) :=
  match Text.pieces '.' (Text.trimEnd head) with
  | db :: first :: more =>
    let collection := (first :: more).dropLast
    let method := (first :: more).getLastD []
    if db = "db".toList ∧ collection ≠ [] ∧ collection.all isCollectionPart ∧
        isMethodName method then
      some (collection, method)
    else none
  | _ => none

/-! ## The whole command -/

/-- The text before the first parenthesis. -/
def head (cs : List Char) : List Char :=
  cs.takeWhile (· != '(')

/-- The text between the first parenthesis and the last character, which has to be the closing
one. -/
def inner? (cs : List Char) : Option (List Char) :=
  match cs.dropWhile (· != '(') with
  | [] => none
  | _ :: rest => if rest.getLast? = some ')' then some rest.dropLast else none

/-- Takes a command apart. Places are counted from the beginning of the text, white space
included. -/
def ofText (text : List Char) : Except SyntaxError Shape :=
  if Text.isBlank text then .error ⟨.blankQuery, none⟩
  else
    let lead := Text.offsetOf text (Text.trimStart text)
    let cs := Text.trim text
    match names? (head cs), inner? cs with
    | some (collection, method), some arguments =>
      let base := lead + Text.size (head cs) + 1
      match Arguments.split arguments with
      | .error e => .error (e.shifted base)
      | .ok fragments =>
        .ok {
          collection := String.ofList (joinParts collection)
          method := String.ofList method
          arguments := fragments.map (·.shifted base) }
    | _, _ => .error ⟨.noCommand, some lead⟩

end Shape

end DocShell
