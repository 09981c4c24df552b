import DocShell.Literal.Key
import DocShell.Literal.Numeral

set_option autoImplicit false

/-! # Literals

The literals of the shell: objects, arrays, strings, numbers, `true`, `false`, `null` and
document identifiers. White space may stand between all tokens. Nothing is evaluated: any
other word is refused.

`Literal.value` reads one literal. Its first argument is the room that is left for nesting;
each object and each array takes one level of it.
-/

namespace DocShell.Literal

/-- How deep objects and arrays may be nested. -/
def maxDepth : Nat := 128

/-- What follows the name `ObjectId`: a string in parentheses. A text that is no identifier is
reported at `start`, the tail that begins with the name. -/
def identifierCall (start : List Char) : Reader Value := fun cs => do
  let opened ← Reader.expect '(' cs
  match h : Text.trimStart opened.rest with
  | [] => throw ⟨.noIdentifierText, []⟩
  | c :: rest =>
    if Quoted.isQuote c then
      let hex ← Quoted.text c rest
      let closed ← Reader.expect ')' hex.rest
      match ObjectId.ofHex hex.value with
      | .error reason => throw ⟨reason, start⟩
      | .ok id =>
        return ⟨.objectId id, closed.rest, by
          have := Text.length_trimStart_le opened.rest
          have := opened.shorter
          have := hex.shorter
          have := closed.shorter
          simp only [h, List.length_cons] at *
          omega⟩
    else throw ⟨.noIdentifierText, c :: rest⟩

/-- What follows the word `new`: the name `ObjectId` and its argument. -/
def construction (cs : List Char) : Except Fault (Parsed Value cs) :=
  let start := Text.trimStart cs
  if Word.leading start = "ObjectId".toList then
    (identifierCall start (Word.after start)).map (·.within
      (Nat.le_trans (Word.length_after_le start) (Text.length_trimStart_le cs)))
  else .error ⟨.noConstructor, start⟩

/-- A literal that begins with a word; `cs` begins with a word character. -/
def keyword (cs : List Char) (h : (Word.after cs).length < cs.length) :
    Except Fault (Parsed Value cs) :=
  let word := Word.leading cs
  let rest := Word.after cs
  if word = "true".toList then .ok ⟨.bool true, rest, h⟩
  else if word = "false".toList then .ok ⟨.bool false, rest, h⟩
  else if word = "null".toList then .ok ⟨.null, rest, h⟩
  else if word = "ObjectId".toList then
    (identifierCall cs rest).map (·.within (Nat.le_of_lt h))
  else if word = "new".toList then (construction rest).map (·.within (Nat.le_of_lt h))
  else .error ⟨.unknownWord word, cs⟩

/-- A field of an object: a key, a colon and a value. -/
def field (value : Reader Value) : Reader (String × Value) := fun cs => do
  let key ← Key.read cs
  let colon ← Reader.expect ':' key.rest
  let v ← value colon.rest
  return ⟨(key.value, v.value), v.rest,
    Nat.lt_trans v.shorter (Nat.lt_trans colon.shorter key.shorter)⟩

/-- Reads a value, after white space, with so much room for nesting. -/
def value : (room : Nat) → Reader Value
  | room, cs =>
    match h : Text.trimStart cs with
    | [] => .error ⟨.noValue, []⟩
    | c :: rest =>
      have shorter := Text.length_le_of_trimStart_eq_cons h
      if c = '{' then
        match room with
        | 0 => .error ⟨.tooDeep maxDepth, rest⟩
        | room + 1 =>
          (Reader.contents .object (field (value room)) rest).map fun p =>
            (p.map Value.ofPairs).within (Nat.le_of_lt shorter)
      else if c = '[' then
        match room with
        | 0 => .error ⟨.tooDeep maxDepth, rest⟩
        | room + 1 =>
          (Reader.contents .array (value room) rest).map fun p =>
            (p.map Value.array).within (Nat.le_of_lt shorter)
      else if Quoted.isQuote c then
        (Quoted.text c rest).map fun p => (p.map Value.string).within shorter
      else if c = '-' ∨ c.isDigit then (Numeral.read (c :: rest)).map (·.within shorter)
      else if hc : Word.isWordChar c = true then
        (keyword (c :: rest) (Word.length_after_lt hc rest)).map (·.within shorter)
      else .error ⟨.unexpected c, c :: rest⟩

/-- Reads a whole text as one value. -/
def whole (cs : List Char) : Except Fault Value :=
  match value maxDepth cs with
  | .error fault => .error fault
  | .ok p =>
    match Text.trimStart p.rest with
    | [] => .ok p.value
    | c :: rest => .error ⟨.afterValue c, c :: rest⟩

/-- The value that a text denotes. Text without a literal in it denotes the empty object, which
is what an omitted argument means. -/
def parse (text : String) : Except SyntaxError Value :=
  let cs := text.toList
  if Text.isBlank cs then .ok .empty
  else (whole cs).mapError (·.toError cs)

end DocShell.Literal
