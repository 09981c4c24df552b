import DocShell.Program.Failure
import DocShell.Text.Hidden

set_option autoImplicit false

/-! # Log lines

What the stages of a run report while they work. An event has a level, the part of the program
it comes from, a message and fields. Text from the outside is spelled out where it could not be
seen or would steer a terminal.
-/

namespace DocShell

/-- How important an event is. -/
inductive LogLevel where
  | error
  | warn
  | info
  | debug
  | trace
deriving DecidableEq

namespace LogLevel

/-- All levels, the most important first. -/
def all : List LogLevel :=
  [error, warn, info, debug, trace]

/-- The place of a level, the most important first. -/
def rank : LogLevel → Nat
  | error => 0
  | warn => 1
  | info => 2
  | debug => 3
  | trace => 4

/-- The name of a level, five characters wide. -/
def label : LogLevel → String
  | error => "ERROR"
  | warn => " WARN"
  | info => " INFO"
  | debug => "DEBUG"
  | trace => "TRACE"

/-- The level of a name in lower case. -/
def ofName? : String → Option LogLevel
  | "error" => some error
  | "warn" => some warn
  | "info" => some info
  | "debug" => some debug
  | "trace" => some trace
  | _ => none

end LogLevel

/-- What a field of an event shows. -/
inductive LogField where
  /-- A name from the text of a command, between quotes. -/
  | quoted (s : String)
  /-- A name of this program. -/
  | plain (s : String)
  | number (n : Nat)
  | flag (b : Bool)
deriving DecidableEq

/-- Something that happened in a run. -/
structure LogEvent where
  level : LogLevel
  target : String
  message : String
  fields : List (String × LogField)
deriving DecidableEq

namespace LogEvent

/-- The code of a character in braces, after a mark. -/
def bracedCode (c : Char) : List Char :=
  "\\u".toList ++ '{' :: Nat.toDigits 16 c.toNat ++ ['}']

/-- The spelling of a character in a quoted field. Names hold word characters, `$`, `-` and
points; of these, the ones that cannot be seen by themselves are spelled out. -/
def fieldSpelling (c : Char) : List Char :=
  if c = '"' ∨ c = '\\' then ['\\', c]
  else if Text.isControl c ∨ Text.isHidden c then bracedCode c
  else [c]

/-- The text of a field. -/
def fieldChars : LogField → List Char
  | .quoted s => '"' :: s.toList.flatMap fieldSpelling ++ ['"']
  | .plain s => s.toList
  | .number n => Text.decimal n
  | .flag b => (if b then "true" else "false").toList

/-- The spelling of a character in a message. What would steer a terminal is spelled out. -/
def messageSpelling (c : Char) : List Char :=
  if c.toNat = 0x1B ∨ c.toNat = 0x07 ∨ c.toNat = 0x08 ∨ c.toNat = 0x0C ∨ c.toNat = 0x7F then
    "\\x".toList ++ Text.hexPadded 2 c.toNat
  else if 0x80 ≤ c.toNat ∧ c.toNat ≤ 0x9F then bracedCode c
  else [c]

/-- The text that shows an event. -/
def chars (e : LogEvent) : List Char :=
  e.level.label.toList ++ ' ' :: e.target.toList ++ ':' :: ' ' ::
    e.message.toList.flatMap messageSpelling ++
    e.fields.flatMap fun (name, field) => ' ' :: name.toList ++ '=' :: fieldChars field

/-- The text that shows an event. -/
def text (e : LogEvent) : String :=
  String.ofList e.chars

/-- The lines that show an event. A line break in its message is kept, so there may be several;
only the first one begins with the level. -/
def lines (e : LogEvent) : List String :=
  (Text.pieces '\n' e.chars).map String.ofList

/-- Whether a filter lets the event through; without a level, it lets nothing through. -/
def passes (filter : Option LogLevel) (e : LogEvent) : Bool :=
  filter.any fun level => e.level.rank ≤ level.rank

/-! ## The events of a run -/

/-- The settings file is about to be read. -/
def loading (path : String) : LogEvent :=
  ⟨.debug, "dbq", "Loading config from: " ++ path, []⟩

/-- The text has the shape of a command. -/
def matched (shape : Shape) : LogEvent :=
  ⟨.debug, "db_query::query::grammar", "matched command shape",
    [("collection", .quoted shape.collection), ("method", .quoted shape.method),
      ("arguments", .number shape.arguments.length)]⟩

/-- The arguments fit the method. -/
def checked (call : Call) : LogEvent :=
  ⟨.debug, "db_query::query::registry", "validated arguments",
    [("method", .quoted call.method.name), ("has_primary", .flag call.primary.isSome),
      ("has_secondary", .flag call.secondary.isSome)]⟩

/-- An argument was read. -/
def literal (v : Value) : LogEvent :=
  ⟨.trace, "db_query::query::literal", "parsed literal", [("kind", .quoted v.kind)]⟩

/-- The command was read. -/
def parsed (c : Command) : LogEvent :=
  ⟨.debug, "db_query::query", "parsed command",
    [("collection", .quoted c.collection), ("method", .plain c.method.name)]⟩

/-- The command was judged. -/
def classified (safety : Classification) : LogEvent :=
  ⟨.info, "dbq", "parsed command",
    [("method", .plain safety.method.name), ("safety", .plain safety.level.name)]⟩

/-- The run failed. -/
def failed (f : Failure) : LogEvent :=
  ⟨.error, "dbq", f.category ++ ": " ++ f.message, []⟩

/-- The values of the arguments of a call, up to the first that cannot be read. -/
def readArguments : List Fragment → List Value
  | [] => []
  | f :: fragments =>
    match Command.argument f with
    | .ok v => v :: readArguments fragments
    | .error _ => []

/-- What reading a command reports. -/
def ofParse (text : String) : List LogEvent :=
  if text.isEmpty then []
  else
    match Command.shape text with
    | .error _ => []
    | .ok shape =>
      matched shape ::
        match Call.check shape.method shape.arguments with
        | .error _ => []
        | .ok call =>
          checked call ::
            (readArguments (call.primary.toList ++ call.secondary.toList)).map literal

/-- What reading and judging a query reports. -/
def ofQuery (text : String) : List LogEvent :=
  ofParse text ++
    match Command.parse text with
    | .error _ => []
    | .ok c => [parsed c, classified (.ofCommand c)]

end LogEvent

end DocShell
