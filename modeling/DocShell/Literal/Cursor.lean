import DocShell.Literal.Parser

set_option autoImplicit false

/-! # Reading in place

The readers of `DocShell.Literal.Parser` pass on the text that is left. Here the same language is
read in place: the text stays as it is, and a cursor moves through it that knows its place in
bytes and how many containers are open around it. Nothing in the types keeps the cursor at the
beginning of a character, the depth from falling, or the loops from running on, so the ways in
which this could go wrong are part of the model. A slice of the text is only defined between
places where characters begin, and stops the reading otherwise (`Stop.badSlice`); so does a
container that is left without having been entered (`Stop.underflow`), and a loop or a recursion
that takes more turns than it is given (`Stop.endless`).
-/

namespace DocShell

/-! ## Slices of a text -/

namespace Text

/-- The text before a place, which is told in bytes, and the text from there on; none if the
place is past the end or in the middle of a character. -/
def cut? : List Char → Nat → Option (List Char × List Char)
  | cs, 0 => some ([], cs)
  | [], _ + 1 => none
  | c :: cs, n + 1 =>
    if c.utf8Size ≤ n + 1 then
      (cut? cs (n + 1 - c.utf8Size)).map fun (before, after) => (c :: before, after)
    else none

/-- The text between two places; none if one of them is no place of the text, or if the second
one stands before the first. -/
def slice? (cs : List Char) (start stop : Nat) : Option (List Char) := do
  let (_, rest) ← cut? cs start
  if start ≤ stop then
    let (part, _) ← cut? rest (stop - start)
    return part
  else none

end Text

/-! ## The cursor -/

/-- How far the text has been read, in bytes, and how many containers are open. -/
structure Cursor where
  place : Nat
  depth : Nat
deriving DecidableEq

namespace Cursor

/-- Why reading stops before its end. -/
inductive Stop where
  /-- The text is refused. -/
  | refused (e : SyntaxError)
  /-- A slice was asked for at a place where no character begins, or past the end. -/
  | badSlice
  /-- A container was left that had not been entered. -/
  | underflow
  /-- There were no turns left for a loop or for the recursion. -/
  | endless
deriving DecidableEq

/-- Reads an `α` and moves the cursor. -/
abbrev Action (α : Type) := StateT Cursor (Except Stop) α

/-! ## Steps -/

/-- The place of the cursor. -/
def here : Action Nat := do
  return (← get).place

/-- Moves the cursor on by so many bytes. -/
def advance (bytes : Nat) : Action Unit :=
  modify fun c => { c with place := c.place + bytes }

/-- Refuses the text at a place. -/
def refuseAt {α : Type} (place : Nat) (reason : Reason) : Action α :=
  throw (.refused ⟨reason, some place⟩)

/-- Refuses the text where the cursor stands. -/
def refuse {α : Type} (reason : Reason) : Action α := do
  refuseAt (← here) reason

/-- Opens a container, if there is room for it. -/
def enter : Action Unit := do
  modify fun c => { c with depth := c.depth + 1 }
  if Literal.maxDepth < (← get).depth then refuse (.tooDeep Literal.maxDepth)

/-- Closes a container; `floor` of them were open from the outset. -/
def leave (floor : Nat) : Action Unit := do
  if (← get).depth ≤ floor then throw .underflow
  else modify fun c => { c with depth := c.depth - 1 }

variable (source : List Char)

/-- The text from a place on. -/
def tailFrom (place : Nat) : Action (List Char) :=
  match Text.cut? source place with
  | some (_, rest) => pure rest
  | none => throw .badSlice

/-- The text between two places. -/
def slice (start stop : Nat) : Action (List Char) :=
  match Text.slice? source start stop with
  | some part => pure part
  | none => throw .badSlice

/-- The character at the cursor; none at the end of the text. -/
def peek : Action (Option Char) := do
  return (← tailFrom source (← here)).head?

/-- Takes the character at the cursor. -/
def bump : Action (Option Char) := do
  match ← peek source with
  | some c =>
    advance c.utf8Size
    return some c
  | none => return none

/-- Takes a certain character if it stands at the cursor, and tells whether it does. -/
def eat (wanted : Char) : Action Bool := do
  if (← peek source) = some wanted then
    advance wanted.utf8Size
    return true
  else return false

/-- Moves past the characters of a kind, by what is taken for the width of each. -/
def skipWhile (accept : Char → Bool) (width : Char → Nat) : (turns : Nat) → Action Unit
  | 0 => throw .endless
  | turns + 1 => do
    match ← peek source with
    | some c =>
      if accept c then
        advance (width c)
        skipWhile accept width turns
      else return
    | none => return

variable (turns : Nat)

/-- Moves past white space. -/
def skipSpace : Action Unit :=
  skipWhile source Text.isSpace Char.utf8Size turns

/-- One certain character, after white space. -/
def expect (wanted : Char) : Action Unit := do
  skipSpace source turns
  match ← peek source with
  | some c =>
    if c = wanted then advance c.utf8Size
    else refuse (.expected wanted (some c))
  | none => refuse (.expected wanted none)

/-! ## Strings -/

/-- The number that so many hexadecimal digits stand for; none, and the cursor stays, if there
are not as many. -/
def takeHex (count : Nat) : Action (Option Nat) := do
  let start ← here
  match (Text.slice? source start (start + count)).bind (Text.hexNumber? count) with
  | some code =>
    advance count
    return some code
  | none => return none

/-- The character of a code, if it has one. -/
def charOf? (code : Nat) : Option Char :=
  if code.isValidChar then some (Char.ofNat code) else none

/-- The two digits of a byte escape. -/
def byteEscape : Action Char := do
  let start ← here
  match (← takeHex source 2).bind charOf? with
  | some c => return c
  | none => refuseAt start .badByteEscape

/-- Four digits of a code point escape. -/
def hexQuad : Action Nat := do
  let start ← here
  match ← takeHex source 4 with
  | some code => return code
  | none => refuseAt start .badCodeEscape

/-- The second half of a surrogate pair, with the escape that spells it. -/
def lowSurrogate (start : Nat) : Action Nat := do
  if ['\\', 'u'].isPrefixOf (← tailFrom source (← here)) then
    advance 2
    let low ← hexQuad source
    if Quoted.isLowSurrogate low then return low
    else refuseAt start .unpairedSurrogate
  else refuseAt start .unpairedSurrogate

/-- The code of a code point escape, which may be a surrogate pair. -/
def codePoint (start : Nat) : Action Nat := do
  let high ← hexQuad source
  if Quoted.isHighSurrogate high then
    let low ← lowSurrogate source start
    return 0x10000 + (high - 0xD800) * 0x400 + (low - 0xDC00)
  else return high

/-- The digits of a code point escape. -/
def codeEscape : Action Char := do
  let start ← here
  match charOf? (← codePoint source start) with
  | some c => return c
  | none => refuseAt start .badCodeEscape

/-- What follows a backslash: the character it spells, or nothing for a line break. The string
began at `start`. -/
def escape (start : Nat) : Action (Option Char) := do
  match ← bump source with
  | none => refuseAt start .unterminatedString
  | some c =>
    if c = 'x' then return some (← byteEscape source)
    else if c = 'u' then return some (← codeEscape source)
    else if c = '\n' then return none
    else if c = '\r' then
      let _ ← eat source '\n'
      return none
    else return some (Quoted.escaped c)

/-- What stands after the opening quote, up to and with the closing one; `s` has been read. -/
def stringBody (quote : Char) (start : Nat) : (turns : Nat) → (s : String) → Action String
  | 0, _ => throw .endless
  | turns + 1, s => do
    match ← bump source with
    | none => refuseAt start .unterminatedString
    | some c =>
      if c = quote then return s
      else if c = '\n' ∨ c = '\r' then refuseAt start .unterminatedString
      else if c = '\\' then
        match ← escape source start with
        | some d => stringBody quote start turns (s.push d)
        | none => stringBody quote start turns s
      else stringBody quote start turns (s.push c)

/-- The string at the cursor, with its quotes. -/
def string (quote : Char) : Action String := do
  let start ← here
  let _ ← bump source
  stringBody source quote start turns ""

/-! ## Numbers -/

/-- How many digits stand at the cursor; it moves past them. -/
def takeDigits : Action Nat := do
  let start ← here
  skipWhile source Char.isDigit (fun _ => 1) turns
  return (← here) - start

/-- At least one digit of a number that began at `start`. -/
def someDigits (start : Nat) : Action Unit := do
  if (← takeDigits source turns) = 0 then refuseAt start .badNumber

/-- The sign and the digits of a whole number, without leading zeros. -/
def wholePart (start : Nat) : Action Unit := do
  let _ ← eat source '-'
  let first ← here
  let count ← takeDigits source turns
  if count = 0 then refuseAt start .badNumber
  else if 1 < count then
    if (← tailFrom source first).head? = some '0' then refuseAt start .badNumber

/-- A point and the digits after it, if there is a point. -/
def fractionPart (start : Nat) : Action Unit := do
  if ← eat source '.' then someDigits source turns start

/-- The sign of an exponent, if there is one, and whether it is a minus sign. -/
def exponentSign : Action Bool := do
  if ← eat source '+' then return false
  else eat source '-'

/-- The exponent, if there is one. -/
def exponentPart (start : Nat) : Action Unit := do
  match ← peek source with
  | some c =>
    if c = 'e' ∨ c = 'E' then
      let _ ← bump source
      let _ ← exponentSign source
      someDigits source turns start
  | none => return

/-- Moves past a number that begins at `start`. -/
def skipNumeral (start : Nat) : Action Unit := do
  wholePart source turns start
  fractionPart source turns start
  exponentPart source turns start

/-- The value of the text of a numeral, if it is finite. -/
def numeralValue? (text : List Char) : Option Value :=
  (Numeral.scan text).bind fun (n, _) => n.toValue?

/-- The number at the cursor. -/
def number : Action Value := do
  let start ← here
  skipNumeral source turns start
  let text ← slice source start (← here)
  match numeralValue? text with
  | some v => return v
  | none => refuseAt start (.numberOutOfRange text)

/-! ## Words and keys -/

/-- The word at the cursor, which may be empty. -/
def takeWord : Action (List Char) := do
  let start ← here
  skipWhile source Word.isWordChar (fun _ => 1) turns
  slice source start (← here)

/-- An object key. -/
def key : Action String := do
  match ← peek source with
  | some c =>
    if Quoted.isQuote c then string source turns c
    else if Word.isWordChar c then return String.ofList (← takeWord source turns)
    else refuse (.noKey (some c))
  | none => refuse (.noKey none)

/-- The argument of `ObjectId`, whose name stands at `start`. -/
def objectIdCall (start : Nat) : Action Value := do
  expect source turns '('
  skipSpace source turns
  match ← peek source with
  | some c =>
    if Quoted.isQuote c then
      let hex ← string source turns c
      expect source turns ')'
      match ObjectId.ofHex hex with
      | .ok id => return .objectId id
      | .error reason => refuseAt start reason
    else refuse .noIdentifierText
  | none => refuse .noIdentifierText

/-- What follows the word `new`. -/
def construction : Action Value := do
  skipSpace source turns
  let start ← here
  if (← takeWord source turns) = "ObjectId".toList then objectIdCall source turns start
  else refuseAt start .noConstructor

/-- A literal that begins with a word. -/
def keyword : Action Value := do
  let start ← here
  let word ← takeWord source turns
  if word = "true".toList then return .bool true
  else if word = "false".toList then return .bool false
  else if word = "null".toList then return .null
  else if word = "ObjectId".toList then objectIdCall source turns start
  else if word = "new".toList then construction source turns
  else refuseAt start (.unknownWord word)

/-! ## Containers and values -/

/-- The opening bracket of a container, and the closing one if nothing stands between them, of
which it tells whether it is there. -/
def opened (container : Container) : Action Bool := do
  let _ ← bump source
  enter
  skipSpace source turns
  eat source container.closing

/-- What stands after an item: a comma, if it returns true, or the closing bracket. -/
def separator (container : Container) : Action Bool := do
  skipSpace source turns
  match ← peek source with
  | some c =>
    if c = ',' then
      let _ ← bump source
      skipSpace source turns
      if (← peek source) = some container.closing then refuse (.trailingComma container)
      else return true
    else if c = container.closing then
      let _ ← bump source
      return false
    else refuse (.noSeparator container c)
  | none => refuse (.unclosed container)

section Contents

variable (value : Action Value) (floor : Nat)

/-- A field of an object, a key, a colon and a value, after those that have been read. -/
def field (read : Fields) : Action Fields := do
  skipSpace source turns
  let name ← key source turns
  expect source turns ':'
  let v ← value
  return read.insert name v

/-- An item of an array, after those that have been read. -/
def item (read : List Value) : Action (List Value) := do
  let v ← value
  return read ++ [v]

/-- The fields of an object and its closing bracket. -/
def fields : (turns : Nat) → (read : Fields) → Action Fields
  | 0, _ => throw .endless
  | turns + 1, read => do
    let read ← field source (turns + 1) value read
    if ← separator source (turns + 1) .object then fields turns read
    else return read

/-- The items of an array and its closing bracket. -/
def items : (turns : Nat) → (read : List Value) → Action (List Value)
  | 0, _ => throw .endless
  | turns + 1, read => do
    let read ← item value read
    if ← separator source (turns + 1) .array then items turns read
    else return read

/-- The object at the cursor. -/
def object : Action Value := do
  if ← opened source turns .object then
    leave floor
    return .object []
  else
    let read ← fields source value turns []
    leave floor
    return .object read

/-- The array at the cursor. -/
def array : Action Value := do
  if ← opened source turns .array then
    leave floor
    return .array []
  else
    let read ← items source value turns []
    leave floor
    return .array read

end Contents

/-- The value at the cursor, after white space; `floor` containers were open from the outset. -/
def value (floor : Nat) : (turns : Nat) → Action Value
  | 0 => throw .endless
  | turns + 1 => do
    skipSpace source (turns + 1)
    match ← peek source with
    | some c =>
      if c = '{' then object source (turns + 1) (value floor turns) floor
      else if c = '[' then array source (turns + 1) (value floor turns) floor
      else if Quoted.isQuote c then return .string (← string source (turns + 1) c)
      else if c = '-' ∨ c.isDigit then number source (turns + 1)
      else if Word.isWordChar c then keyword source (turns + 1)
      else refuse (.unexpected c)
    | none => refuse .noValue

/-- One value, and nothing but white space after it. -/
def whole : Action Value := do
  let v ← value source 0 turns
  skipSpace source turns
  match ← peek source with
  | some c => refuse (.afterValue c)
  | none => return v

/-- Reads a whole text in place. Text without a literal in it denotes the empty object. There is a
turn for each byte, and one to see that the text has ended. -/
def parse (text : String) : Except Stop Value :=
  let source := text.toList
  if Text.isBlank source then .ok .empty
  else (whole source (Text.size source + 1)).run' ⟨0, 0⟩

end Cursor

end DocShell
