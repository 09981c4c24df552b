import DocShell.Text.Basic

set_option autoImplicit false

/-! # Characters, comments and strings of TOML

Readers of this format take a piece from the beginning of a text and give the rest, or nothing
if the text does not begin with such a piece. Where a loop goes on with what a reader left, it
checks that this is shorter than before.
-/

namespace DocShell.Toml

/-- Reads an `α` from the beginning of a text. -/
abbrev Reader (α : Type) := List Char → Option (α × List Char)

/-! ## White space and comments -/

/-- White space within a line. -/
def isGap (c : Char) : Bool :=
  c == ' ' || c == '\t'

/-- The text without the white space of the line it begins with. -/
def skipGap (cs : List Char) : List Char :=
  cs.dropWhile isGap

/-- Characters that may stand for themselves in comments and strings: all but the control
characters of ASCII, and the tab. -/
def isPlain (c : Char) : Bool :=
  c == '\t' || (0x20 ≤ c.toNat && c.toNat != 0x7F)

/-- What follows a line break. -/
def newline? : List Char → Option (List Char)
  | '\n' :: cs => some cs
  | '\r' :: '\n' :: cs => some cs
  | _ => none

/-- What follows the end of a line; the end of the text ends a line, too. -/
def lineBreak? : List Char → Option (List Char)
  | [] => some []
  | cs => newline? cs

/-- What follows the rest of a line that holds nothing but white space and a comment. -/
def lineEnd? (cs : List Char) : Option (List Char) :=
  match skipGap cs with
  | '#' :: comment => lineBreak? (comment.dropWhile isPlain)
  | cs => lineBreak? cs

/-- Skips white space, line breaks and comments between the items of an array. -/
def skipLayout : (inComment : Bool) → List Char → Option (List Char)
  | _, [] => some []
  | inComment, '\r' :: cs =>
    match cs with
    | '\n' :: rest => skipLayout false rest
    | _ => if inComment then none else some ('\r' :: cs)
  | inComment, c :: cs =>
    if c = '\n' then skipLayout false cs
    else if inComment then if isPlain c then skipLayout true cs else none
    else if c = '#' then skipLayout true cs
    else if isGap c then skipLayout false cs
    else some (c :: cs)

/-! ## Strings -/

/-- The character of a code point escape with so many digits. -/
def codeEscape (count : Nat) : Reader Char := fun cs =>
  match Text.hexNumber? count cs with
  | some code => if code.isValidChar then some (Char.ofNat code, cs.drop count) else none
  | none => none

/-- The character that is meant by what follows a backslash. -/
def escape : Reader Char
  | 'b' :: cs => some ('\x08', cs)
  | 't' :: cs => some ('\t', cs)
  | 'n' :: cs => some ('\n', cs)
  | 'f' :: cs => some ('\x0c', cs)
  | 'r' :: cs => some ('\r', cs)
  | '"' :: cs => some ('"', cs)
  | '\\' :: cs => some ('\\', cs)
  | 'u' :: cs => codeEscape 4 cs
  | 'U' :: cs => codeEscape 8 cs
  | _ => none

/-- A string in double quotes, after the opening one. -/
def basicString (cs : List Char) : Option (List Char × List Char) :=
  match cs with
  | [] => none
  | '"' :: rest => some ([], rest)
  | '\\' :: rest =>
    match escape rest with
    | none => none
    | some (c, rest') =>
      if _h : rest'.length ≤ rest.length then
        (basicString rest').map fun (more, left) => (c :: more, left)
      else none
  | c :: rest =>
    if isPlain c then (basicString rest).map fun (more, left) => (c :: more, left) else none
termination_by cs.length

/-- A string in single quotes, after the opening one. Nothing is escaped in it. -/
def literalString : Reader (List Char)
  | [] => none
  | c :: cs =>
    if c = '\x27' then some ([], cs)
    else if isPlain c then (literalString cs).map fun (more, left) => (c :: more, left)
    else none

/-- Three quotes that close a string, with up to two more before them that belong to it. -/
def closingQuotes (quote : Char) : Reader (List Char)
  | a :: b :: c :: cs =>
    if a = quote ∧ b = quote ∧ c = quote then
      let extra := (cs.take 2).takeWhile (· == quote)
      some (extra, cs.drop extra.length)
    else none
  | _ => none

/-- Whether a backslash stands at the end of its line, white space aside. -/
def endsLine (cs : List Char) : Bool :=
  (newline? (skipGap cs)).isSome

/-- A string in three double quotes, after them. While `joining`, the white space after a
backslash at the end of a line is left out. -/
def multilineBasic (joining : Bool) (cs : List Char) : Option (List Char × List Char) :=
  match closingQuotes '"' cs with
  | some closed => some closed
  | none =>
    match cs with
    | [] => none
    | '\\' :: rest =>
      if endsLine rest then multilineBasic true rest
      else
        match escape rest with
        | none => none
        | some (c, rest') =>
          if _h : rest'.length ≤ rest.length then
            (multilineBasic false rest').map fun (more, left) => (c :: more, left)
          else none
    | '\r' :: rest => if rest.head? = some '\n' then multilineBasic joining rest else none
    | c :: rest =>
      if joining ∧ (c = '\n' ∨ isGap c) then multilineBasic true rest
      else if c = '\n' ∨ isPlain c then
        (multilineBasic false rest).map fun (more, left) => (c :: more, left)
      else none
termination_by cs.length

/-- A string in three single quotes, after them. -/
def multilineLiteral (cs : List Char) : Option (List Char × List Char) :=
  match closingQuotes '\x27' cs with
  | some closed => some closed
  | none =>
    match cs with
    | [] => none
    | '\r' :: rest => if rest.head? = some '\n' then multilineLiteral rest else none
    | c :: rest =>
      if c = '\n' ∨ isPlain c then
        (multilineLiteral rest).map fun (more, left) => (c :: more, left)
      else none
termination_by cs.length

/-- The text of a multi-line string without the line break it begins with. -/
def skipNewline (cs : List Char) : List Char :=
  (newline? cs).getD cs

/-- A string of any kind. -/
def string : Reader (List Char)
  | '"' :: '"' :: '"' :: cs => multilineBasic false (skipNewline cs)
  | '"' :: cs => basicString cs
  | '\x27' :: '\x27' :: '\x27' :: cs => multilineLiteral (skipNewline cs)
  | '\x27' :: cs => literalString cs
  | _ => none

/-! ## Keys -/

/-- Characters of a key without quotes. -/
def isKeyChar (c : Char) : Bool :=
  c.isAlphanum || c == '-' || c == '_'

/-- A key: a bare one, or a string on one line. -/
def simpleKey : Reader (List Char)
  | '"' :: cs => basicString cs
  | '\x27' :: cs => literalString cs
  | cs =>
    match cs.takeWhile isKeyChar with
    | [] => none
    | key => some (key, cs.dropWhile isKeyChar)

/-- Keys with points between them, and white space around each. -/
def dottedKey (cs : List Char) : Option (List String × List Char) :=
  match simpleKey (skipGap cs) with
  | none => none
  | some (key, rest) =>
    match skipGap rest with
    | '.' :: rest' =>
      if _h : rest'.length < cs.length then
        (dottedKey rest').map fun (more, left) => (String.ofList key :: more, left)
      else none
    | rest' => some ([String.ofList key], rest')
termination_by cs.length

/-- The number of levels a document may have. -/
def maxLevels : Nat := 79

/-- A path of keys that is not too long. -/
def path : Reader (List String) := fun cs =>
  match dottedKey cs with
  | some (keys, rest) => if keys.length ≤ maxLevels then some (keys, rest) else none
  | none => none

end DocShell.Toml
