import DocShell.Toml.Number
import DocShell.Toml.Table

set_option autoImplicit false

/-! # TOML documents

A document is read line by line: headers open tables, the other lines add entries to the table
that was opened last. Only the lines within an array may be broken.
-/

namespace DocShell.Toml

/-! ## Values -/

/-- The items of an array, after the opening bracket or a comma. A comma may stand after the
last item. -/
def arrayItems (item : Reader Node) (cs : List Char) : Option (List Node × List Char) :=
  match skipLayout false cs with
  | none => none
  | some (']' :: rest) => some ([], rest)
  | some cs' =>
    match item cs' with
    | none => none
    | some (node, rest) =>
      match skipLayout false rest with
      | some (']' :: rest') => some ([node], rest')
      | some (',' :: rest') =>
        if _h : rest'.length < cs.length then
          (arrayItems item rest').map fun (more, left) => (node :: more, left)
        else none
      | _ => none
termination_by cs.length

/-- A key and its value. -/
def pair (item : Reader Node) : Reader (List String × Node) := fun cs => do
  let (keys, cs) ← path cs
  let (_, cs) ← mark '=' cs
  let (node, cs) ← item (skipGap cs)
  return ((keys, node), cs)

/-- The pairs of an inline table, after the opening brace or a comma. -/
def inlinePairs (item : Reader Node) (cs : List Char) :
    Option (List (List String × Node) × List Char) :=
  match pair item cs with
  | none => none
  | some (entry, rest) =>
    match skipGap rest with
    | '}' :: rest' => some ([entry], rest')
    | ',' :: rest' =>
      if _h : rest'.length < cs.length then
        (inlinePairs item rest').map fun (more, left) => (entry :: more, left)
      else none
    | _ => none
termination_by cs.length

/-- An inline table, after the opening brace. -/
def inlineTable (item : Reader Node) : Reader Node := fun cs =>
  match skipGap cs with
  | '}' :: rest => some (.table .inline [], rest)
  | _ => do
    let (pairs, rest) ← inlinePairs item cs
    let entries ← Entries.ofPairs pairs
    return (.table .inline entries, rest)

/-- A value that holds no others. -/
def scalar : Reader Node := fun cs =>
  match cs with
  | 't' :: 'r' :: 'u' :: 'e' :: rest => some (.boolean true, rest)
  | 'f' :: 'a' :: 'l' :: 's' :: 'e' :: rest => some (.boolean false, rest)
  | _ =>
    ((string cs).map fun (s, rest) => (Node.string (String.ofList s), rest)) <|>
    ((dateTime cs).map fun (_, rest) => (Node.dateTime, rest)) <|>
    ((float cs).map fun (x, rest) => (Node.float x, rest)) <|>
    ((integer cs).map fun (i, rest) => (Node.integer i, rest))

/-- A value, with so much room for nesting. -/
def value : (room : Nat) → Reader Node
  | 0, '[' :: _ => none
  | 0, '{' :: _ => none
  | room + 1, '[' :: cs =>
    (arrayItems (value room) cs).map fun (items, rest) => (.array items, rest)
  | room + 1, '{' :: cs => inlineTable (value room) cs
  | _, cs => scalar cs

/-! ## Lines -/

/-- A document that is being read: its entries so far, and the header that was opened last. -/
structure Draft where
  root : Entries
  header : List String

/-- Reads a header with one pair of brackets, after the opening one. -/
def tableLine (draft : Draft) (cs : List Char) : Option (Draft × List Char) := do
  let (header, cs) ← path cs
  let (_, cs) ← mark ']' cs
  let root ← Entries.openTable header draft.root
  return (⟨root, header⟩, ← lineEnd? cs)

/-- Reads a header with two pairs of brackets, after the opening ones. -/
def repeatedLine (draft : Draft) (cs : List Char) : Option (Draft × List Char) := do
  let (header, cs) ← path cs
  let (_, cs) ← mark ']' cs
  let (_, cs) ← mark ']' cs
  let root ← Entries.openRepeated header draft.root
  return (⟨root, header⟩, ← lineEnd? cs)

/-- Reads a line with a key and its value. -/
def pairLine (draft : Draft) (cs : List Char) : Option (Draft × List Char) := do
  let ((keys, node), cs) ← pair (value maxLevels) cs
  let root ← Entries.addUnder draft.header keys node draft.root
  return (⟨root, draft.header⟩, ← lineEnd? cs)

/-- Reads one line, which does not begin with white space. -/
def line (draft : Draft) (cs : List Char) : Option (Draft × List Char) :=
  match cs with
  | '[' :: '[' :: rest => repeatedLine draft rest
  | '[' :: rest => tableLine draft rest
  | '#' :: _ => (lineEnd? cs).map (draft, ·)
  | c :: _ =>
    if c = '\n' ∨ c = '\r' then (newline? cs).map (draft, ·) else pairLine draft cs
  | [] => some (draft, [])

/-- Reads all lines. -/
def lines (draft : Draft) (cs : List Char) : Option Draft :=
  match skipGap cs with
  | [] => some draft
  | cs' =>
    match line draft cs' with
    | none => none
    | some (draft, rest) => if _h : rest.length < cs.length then lines draft rest else none
termination_by cs.length

/-- The text without a byte order mark. -/
def skipMark : List Char → List Char
  | c :: cs => if c.toNat = 0xFEFF then cs else c :: cs
  | [] => []

/-- The entries of a document, or nothing if the text is not a valid one. -/
def parse (text : String) : Option Entries :=
  (lines ⟨[], []⟩ (skipMark text.toList)).map (·.root)

end DocShell.Toml
