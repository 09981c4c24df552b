set_option autoImplicit false

/-! # Command line options

Words are read from left to right. An option that takes a value and has none attached waits
for the next word, and takes it if that is no option; until then it is *pending*. Any other
word is the query. No option may be given twice, and `--` makes all words after it queries.
-/

namespace DocShell

/-- What the command line asks for. -/
structure Options where
  query : Option String
  format : Option String
  pretty : Bool
  config : Option String
  /-- The beginning of the method names to list. -/
  methods : Option String
deriving DecidableEq

/-- What a command line means. -/
inductive Invocation where
  | run (options : Options)
  | version
  | help
  /-- The words break a rule of the command line. -/
  | misuse
deriving DecidableEq

namespace Options

/-- Nothing asked for. -/
def empty : Options := ⟨none, none, false, none, none⟩

/-- Options that take a value. -/
inductive Key where
  | format
  | config
  | methods
deriving DecidableEq

/-- The words read so far. -/
structure Reading where
  options : Options
  pending : Option Key
  /-- Whether only queries can follow. -/
  closed : Bool
deriving DecidableEq

/-- Reading stops early, or goes on. -/
abbrev Step := Except Invocation Reading

namespace Reading

/-- Before the first word. -/
def initial : Reading := ⟨Options.empty, none, false⟩

/-- Gives an option its value. The list of methods can do without one, and the path of a file
cannot be empty. -/
def give (r : Reading) (key : Key) (value : Option String) : Step :=
  match key, value with
  | .format, some v =>
    if r.options.format.isSome then .error .misuse
    else .ok { r with options := { r.options with format := v } }
  | .config, some v =>
    if r.options.config.isSome ∨ v.isEmpty then .error .misuse
    else .ok { r with options := { r.options with config := v } }
  | .methods, v =>
    if r.options.methods.isSome then .error .misuse
    else .ok { r with options := { r.options with methods := some (v.getD "") } }
  | _, none => .error .misuse

/-- Ends the wait of a pending option. -/
def settle (r : Reading) : Step :=
  match r.pending with
  | none => .ok r
  | some key => { r with pending := none }.give key none

/-- An option with an attached value, or one that has to wait for it. -/
def option (r : Reading) (key : Key) (attached : Option String) : Step := do
  let r ← r.settle
  match attached with
  | some v => r.give key v
  | none => return { r with pending := some key }

/-- The flag that asks for JSON on several lines. -/
def setPretty (r : Reading) : Step := do
  let r ← r.settle
  if r.options.pretty then throw .misuse
  return { r with options := { r.options with pretty := true } }

/-- A flag that ends the reading. -/
def stop (r : Reading) (invocation : Invocation) : Step := do
  let _ ← r.settle
  throw invocation

/-- A word that is the query. -/
def positional (r : Reading) (word : String) : Step := do
  let r ← r.settle
  if r.options.query.isSome then throw .misuse
  return { r with options := { r.options with query := word } }

/-- A long option, without its two hyphens. -/
def long (r : Reading) (word : List Char) : Step :=
  let name := String.ofList (word.takeWhile (· != '='))
  let attached := match word.dropWhile (· != '=') with
    | [] => none
    | _ :: value => some (String.ofList value)
  match name, attached with
  | "format", v => r.option .format v
  | "config", v => r.option .config v
  | "methods", v => r.option .methods v
  | "pretty", none => r.setPretty
  | "version", none => r.stop .version
  | "help", none => r.stop .help
  | _, _ => .error .misuse

/-- Short options, without their hyphen. -/
def short (r : Reading) : List Char → Step
  | 'f' :: [] => r.option .format none
  | 'f' :: '=' :: value => r.option .format (String.ofList value)
  | 'f' :: value => r.option .format (String.ofList value)
  | 'V' :: _ => r.stop .version
  | 'h' :: _ => r.stop .help
  | _ => .error .misuse

/-- A word that is no option: the value of a pending option, or the query. -/
def plain (r : Reading) (word : String) : Step :=
  match r.pending with
  | some key => { r with pending := none }.give key word
  | none => r.positional word

/-- Reads one word. A single hyphen is no option. -/
def word (r : Reading) (word : String) : Step :=
  if r.closed then r.positional word
  else
    match word.toList with
    | ['-', '-'] => .ok { r with closed := true }
    | '-' :: '-' :: name => r.long name
    | '-' :: c :: letters => r.short (c :: letters)
    | _ => r.plain word

end Reading

/-- Reads a command line. -/
def parse (words : List String) : Invocation :=
  match words.foldlM Reading.word Reading.initial >>= Reading.settle with
  | .ok r => .run r.options
  | .error invocation => invocation

end Options

end DocShell
