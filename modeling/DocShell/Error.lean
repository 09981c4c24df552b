import DocShell.Text.Basic

set_option autoImplicit false

/-! # Why a text is refused

The causes are constructors, and their wording stands in one function, `Reason.message`. A
`SyntaxError` is a cause with the place it was found at, in bytes from the beginning of the
text; a `QueryError` is what keeps a text from being a command.
-/

namespace DocShell

/-- The two kinds of literal that hold other literals. -/
inductive Container where
  | object
  | array
deriving DecidableEq

namespace Container

/-- The character that opens the container. -/
def opening : Container → Char
  | object => '{'
  | array => '['

/-- The character that closes the container. -/
def closing : Container → Char
  | object => '}'
  | array => ']'

/-- What the container is called in messages. -/
def name : Container → String
  | object => "object"
  | array => "array"

end Container

/-- The cause of a syntax error. -/
inductive Reason where
  /-- The text ends where a value should stand. -/
  | noValue
  /-- No value begins with this character. -/
  | unexpected (found : Char)
  /-- Something follows the value. -/
  | afterValue (found : Char)
  /-- A certain character should stand here; `none` is the end of the text. -/
  | expected (wanted : Char) (found : Option Char)
  /-- Objects and arrays are nested too deep. -/
  | tooDeep (limit : Nat)
  /-- A comma stands before the closing bracket. -/
  | trailingComma (container : Container)
  /-- Neither a comma nor the closing bracket follows an item. -/
  | noSeparator (container : Container) (found : Char)
  /-- The text ends inside the container. -/
  | unclosed (container : Container)
  /-- An object key should stand here; `none` is the end of the text. -/
  | noKey (found : Option Char)
  /-- The string has no closing quote on its line. -/
  | unterminatedString
  /-- A byte escape lacks its two digits. -/
  | badByteEscape
  /-- A code point escape lacks its four digits, or they are half of a surrogate pair. -/
  | badCodeEscape
  /-- The first half of a surrogate pair is not followed by a second. -/
  | unpairedSurrogate
  /-- The text is no number although it begins like one. -/
  | badNumber
  /-- The number is too large to be represented. -/
  | numberOutOfRange (number : List Char)
  /-- A bare word that is no literal. -/
  | unknownWord (word : List Char)
  /-- `new` is followed by something else than `ObjectId`. -/
  | noConstructor
  /-- The argument of `ObjectId` is not a string. -/
  | noIdentifierText
  /-- The text of an identifier has the wrong length, counted in bytes. -/
  | identifierSize (size : Nat)
  /-- The text of an identifier is not hexadecimal. -/
  | identifierDigits (text : String)
  /-- A closing bracket without an opening one. -/
  | unbalanced (closing : Char)
  /-- A bracket that is never closed; `closing` is what would close it. -/
  | missing (closing : Char)
  /-- Nothing but white space stands between two commas. -/
  | emptyArgument
  /-- The text holds white space only. -/
  | blankQuery
  /-- The text is not of the form of a command. -/
  | noCommand
  /-- The method is given fewer arguments than it needs. -/
  | tooFewArguments (method : String) (least given : Nat)
  /-- The method is given more arguments than it takes. -/
  | tooManyArguments (method : String) (most given : Nat)
  /-- A cause that a host gives in its own words. -/
  | stated (text : String)
deriving DecidableEq

namespace Reason

/-- A character between single quotes. -/
def quoteChar (c : Char) : String :=
  "'" ++ c.toString ++ "'"

/-- A character between single quotes, or the end of the text. -/
def describe : Option Char → String
  | some c => quoteChar c
  | none => "end of input"

/-- The wording of a cause. -/
def message : Reason → String
  | noValue => "expected a value, found end of input"
  | unexpected c => "unexpected " ++ quoteChar c
  | afterValue c => "unexpected " ++ quoteChar c ++ " after value"
  | expected wanted found => "expected " ++ quoteChar wanted ++ ", found " ++ describe found
  | tooDeep limit => "nesting deeper than " ++ limit.repr ++ " levels"
  | trailingComma container => "trailing comma in " ++ container.name
  | noSeparator container found =>
    "expected ',' or " ++ quoteChar container.closing ++ ", found " ++ quoteChar found
  | unclosed container => "unterminated " ++ container.name
  | noKey found => "expected object key, found " ++ describe found
  | unterminatedString => "unterminated string"
  | badByteEscape => "invalid \\x escape"
  | badCodeEscape => "invalid \\u escape"
  | unpairedSurrogate => "unpaired surrogate in \\u escape"
  | badNumber => "invalid number"
  | numberOutOfRange number => "number out of range: " ++ String.ofList number
  | unknownWord word => "unknown token '" ++ String.ofList word ++ "'"
  | noConstructor => "expected ObjectId after 'new'"
  | noIdentifierText => "ObjectId expects a quoted hex string"
  | identifierSize size => "ObjectId must be 24 hex characters, got " ++ size.repr
  | identifierDigits text => "ObjectId contains non-hex characters: " ++ text
  | unbalanced closing => "unbalanced " ++ quoteChar closing
  | missing closing => "missing " ++ quoteChar closing
  | emptyArgument => "empty argument"
  | blankQuery => "blank query"
  | noCommand => "expected db.<collection>.<method>(<arguments>)"
  | tooFewArguments method least given =>
    method ++ " expects at least " ++ least.repr ++ " argument(s), got " ++ given.repr
  | tooManyArguments method most given =>
    method ++ " accepts at most " ++ most.repr ++ " argument(s), got " ++ given.repr
  | stated text => text

end Reason

/-- A cause and the place it was found at, in bytes; a cause that concerns the text as a whole
has no place. -/
structure SyntaxError where
  reason : Reason
  offset : Option Nat
deriving DecidableEq

namespace SyntaxError

/-- The error as seen from a text in which the refused one begins after `base` bytes. -/
def shifted (base : Nat) (e : SyntaxError) : SyntaxError :=
  { e with offset := e.offset.map (· + base) }

/-- The wording of the cause, and its place if it has one. -/
def message (e : SyntaxError) : String :=
  e.reason.message ++
    match e.offset with
    | some n => " (at offset " ++ n.repr ++ ")"
    | none => ""

end SyntaxError

/-- Why a text is no command. -/
inductive QueryError where
  /-- There is no text. -/
  | missingInput
  /-- The text, or a literal in it, breaks the rules of the language. -/
  | malformed (detail : SyntaxError)
  /-- The command names a method that is not supported. -/
  | unsupportedMethod (name : String)
  /-- The method needs a second argument and is not given one. -/
  | missingOptions (name : String)
deriving DecidableEq

namespace QueryError

/-- The message for the user. What is wrong with a malformed text is told by its detail. -/
def message : QueryError → String
  | missingInput => "Query - parse() : rawQuery is required"
  | malformed _ => "Invalid query"
  | unsupportedMethod name => name ++ " is not a supported query"
  | missingOptions name => "query options are required for mongo " ++ name

/-- The kind of error, as shown in log lines. -/
def category : QueryError → String
  | missingInput => "Missing Input Error"
  | malformed _ => "Syntax Error"
  | unsupportedMethod _ => "Unsupported Method Error"
  | missingOptions _ => "Missing Options Error"

/-- What is wrong with a malformed text. -/
def detail? : QueryError → Option SyntaxError
  | malformed detail => some detail
  | _ => none

end QueryError

end DocShell
