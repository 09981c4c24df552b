import DocShell.Literal.Quoted

set_option autoImplicit false

/-! # Argument lists

An argument list is cut at the commas that stand outside all brackets and strings. The text is
scanned once, character by character; the state of the scan knows the brackets and the string
that are open, and the argument that is being read. Arguments are trimmed, and none may be
blank, but a blank list has no arguments.
-/

namespace DocShell

/-- One argument: its trimmed text and the place where that begins, in bytes. -/
structure Fragment where
  text : String
  offset : Nat
deriving DecidableEq

namespace Fragment

/-- The argument as seen from a text in which the list begins after `base` bytes. -/
def shifted (base : Nat) (f : Fragment) : Fragment :=
  { f with offset := f.offset + base }

/-- The argument that stands between two commas; the text between them begins at `start`. -/
def ofSegment (start : Nat) (segment : List Char) : Except SyntaxError Fragment :=
  if Text.isBlank segment then .error ⟨.emptyArgument, some start⟩
  else
    .ok ⟨String.ofList (Text.trim segment),
      start + Text.offsetOf segment (Text.trimStart segment)⟩

end Fragment

namespace Arguments

/-- A string that is being scanned: its quote, where it begins, and whether the next character
stands after a backslash. -/
structure OpenString where
  quote : Char
  start : Nat
  escaped : Bool
deriving DecidableEq

/-- A bracket that waits for its closing one. -/
structure OpenBracket where
  closing : Char
  start : Nat
deriving DecidableEq

/-- The state of a scan. -/
structure Scan where
  /-- The bytes that have been read. -/
  offset : Nat
  /-- The finished arguments, the latest first. -/
  fragments : List Fragment
  /-- Where the present argument begins. -/
  start : Nat
  /-- The characters of the present argument, the latest first. -/
  segment : List Char
  /-- The open brackets, the innermost first. -/
  brackets : List OpenBracket
  /-- The open string. -/
  string : Option OpenString
deriving DecidableEq

/-- The bracket that closes what `c` opens. -/
def closing? (c : Char) : Option Char :=
  if c = '{' then some '}'
  else if c = '[' then some ']'
  else if c = '(' then some ')'
  else none

/-- Whether `c` is a closing bracket. -/
def isClosing (c : Char) : Bool :=
  c == '}' || c == ']' || c == ')'

/-- The string after one more character; none if that ends it. -/
def OpenString.step (s : OpenString) (c : Char) : Option OpenString :=
  if s.escaped then some { s with escaped := false }
  else if c = '\\' then some { s with escaped := true }
  else if c = s.quote then none
  else some s

namespace Scan

/-- Before the first character. -/
def initial : Scan := ⟨0, [], 0, [], [], none⟩

/-- Adds a character to the present argument. -/
def push (s : Scan) (c : Char) : Scan :=
  { s with offset := s.offset + c.utf8Size, segment := c :: s.segment }

/-- Ends the present argument at a comma. -/
def cut (s : Scan) : Except SyntaxError Scan := do
  let fragment ← Fragment.ofSegment s.start s.segment.reverse
  return { s with
    offset := s.offset + 1
    fragments := fragment :: s.fragments
    start := s.offset + 1
    segment := [] }

/-- Closes the innermost bracket, which has to be of the same kind. -/
def close (s : Scan) (c : Char) : Except SyntaxError Scan :=
  match s.brackets with
  | [] => .error ⟨.unbalanced c, some s.offset⟩
  | bracket :: brackets =>
    if c = bracket.closing then .ok { s.push c with brackets := brackets }
    else .error ⟨.expected bracket.closing (some c), some s.offset⟩

/-- Reads one character. -/
def step (s : Scan) (c : Char) : Except SyntaxError Scan :=
  match s.string with
  | some string => .ok { s.push c with string := string.step c }
  | none =>
    if Quoted.isQuote c then .ok { s.push c with string := some ⟨c, s.offset, false⟩ }
    else
      match closing? c with
      | some closing => .ok { s.push c with brackets := ⟨closing, s.offset⟩ :: s.brackets }
      | none =>
        if isClosing c then s.close c
        else if c = ',' ∧ s.brackets = [] then s.cut
        else .ok (s.push c)

/-- The arguments, at the end of the text. -/
def finish (s : Scan) : Except SyntaxError (List Fragment) :=
  match s.string, s.brackets with
  | some string, _ => .error ⟨.unterminatedString, some string.start⟩
  | none, bracket :: _ => .error ⟨.missing bracket.closing, some bracket.start⟩
  | none, [] =>
    if s.fragments = [] ∧ Text.isBlank s.segment then .ok []
    else do
      let last ← Fragment.ofSegment s.start s.segment.reverse
      return s.fragments.reverse ++ [last]

end Scan

/-- Cuts an argument list into its arguments. -/
def split (cs : List Char) : Except SyntaxError (List Fragment) := do
  let s ← cs.foldlM Scan.step Scan.initial
  s.finish

end Arguments

end DocShell
