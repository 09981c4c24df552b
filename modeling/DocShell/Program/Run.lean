import DocShell.Program.Log
import DocShell.Program.Options
import DocShell.Program.Settings

set_option autoImplicit false

/-! # Runs

A run of the program, as a function of its command line, the settings file and its input. What
is to be done is found out first: the settings are loaded, the format is settled, and unless
methods are to be listed the query is read. The first stage that fails ends the run, and then
nothing is written but the failure.
-/

namespace DocShell

/-- What a run leaves behind. -/
structure Outcome where
  exit : Nat
  stdout : String
  stderr : String
  log : List LogEvent
deriving DecidableEq

/-- What is to be done. -/
inductive Task where
  /-- List the methods whose names begin so. -/
  | list (start : String)
  /-- Report on the command of a text. -/
  | report (text : String) (format : ReportFormat) (layout : JsonLayout)
deriving DecidableEq

namespace Options

/-- The format of the report; the command line comes before the settings. -/
def reportFormat (options : Options) (settings : Settings) :
    Except SettingsFault ReportFormat :=
  match options.format with
  | none => .ok settings.format
  | some name =>
    match ReportFormat.ofAnyCase? name with
    | some format => .ok format
    | none => .error (.unknownFormat name)

/-- The layout of JSON reports. -/
def jsonLayout (options : Options) (settings : Settings) : JsonLayout :=
  if options.pretty ∨ settings.pretty then .pretty else .compact

/-- Where the settings file is looked for. -/
def settingsPath (options : Options) (usual : String) : String :=
  options.config.getD usual

/-- Whether the query is to be read from the input. -/
def readsInput (options : Options) : Bool :=
  options.query.isNone || options.query == some "-"

end Options

/-- The input without one line break at its end. -/
def chomp (cs : List Char) : List Char :=
  match cs.reverse with
  | '\n' :: '\r' :: before => before.reverse
  | '\n' :: before => before.reverse
  | _ => cs

/-- The text of the query, from the command line or from the input. -/
def Options.queryText (options : Options) (input : ByteArray) : Except InputFault String :=
  if options.readsInput then
    match String.fromUTF8? input with
    | some text => .ok (String.ofList (chomp text.toList))
    | none => .error .notUtf8
  else .ok (options.query.getD "")

namespace Task

/-- Finds out what is to be done. -/
def ofOptions (options : Options) (path : String) (file : SettingsFile) (input : ByteArray) :
    Except Failure Task := do
  let settings ← (Settings.load path file).mapError .settings
  let format ← (options.reportFormat settings).mapError .settings
  match options.methods with
  | some start => return .list start
  | none =>
    let text ← (options.queryText input).mapError .input
    return .report text format (options.jsonLayout settings)

/-- A text with blanks after it, to the given width. -/
def padded (width : Nat) (s : String) : String :=
  s ++ String.ofList (List.replicate (width - s.length) ' ')

/-- The two lines on a method: what it does, and how it is called. -/
def methodLines (m : Method) : List String :=
  [padded 12 m.name ++ " " ++ m.rule.description, padded 12 "" ++ " " ++ m.rule.usage]

/-- The report on a command, with the end of its last line. -/
def reportOn (c : Command) (format : ReportFormat) (layout : JsonLayout) : String :=
  let body := Report.render c (.ofCommand c) format layout
  match format with
  | .text => body
  | .json => body ++ "\n"

/-- What the task writes. -/
def output : Task → Except Failure String
  | list start => .ok (Report.unlines ((Method.completions start).flatMap methodLines))
  | report text format layout => do
    let c ← (Command.parse text).mapError .query
    return reportOn c format layout

/-- What the task reports in the log. -/
def events : Task → List LogEvent
  | list _ => []
  | report text _ _ => LogEvent.ofQuery text

end Task

namespace Outcome

/-- The run did its work. -/
def success (stdout : String) (log : List LogEvent) : Outcome :=
  ⟨0, stdout, "", log⟩

/-- The run failed. -/
def failure (f : Failure) (log : List LogEvent) : Outcome :=
  ⟨1, "", Report.unlines f.lines, log ++ [.failed f]⟩

/-- A run with the given options. -/
def ofOptions (options : Options) (path : String) (file : SettingsFile) (input : ByteArray) :
    Outcome :=
  let log := [LogEvent.loading path]
  match Task.ofOptions options path file input with
  | .error f => failure f log
  | .ok task =>
    match task.output with
    | .error f => failure f (log ++ task.events)
    | .ok stdout => success stdout (log ++ task.events)

/-- The name and the version of the program. -/
def versionText : String :=
  "dbq 0.1.0\n"

/-- The options of the program. -/
def helpText : String :=
  Report.unlines [
    "Parse and validate shell-style document database commands",
    "",
    "Usage: dbq [OPTIONS] [QUERY]",
    "",
    "Arguments:",
    "  [QUERY]  Command to parse, e.g. 'db.users.find(\x7b active: true \x7d)'. " ++
      "Reads stdin when omitted or \"-\"",
    "",
    "Options:",
    "  -f, --format <FORMAT>     Output format: text or json (overrides config)",
    "      --pretty              Pretty-print JSON output",
    "      --config <PATH>       Config file path",
    "      --methods [<PREFIX>]  List supported methods, " ++
      "optionally only those starting with PREFIX",
    "  -h, --help                Print help",
    "  -V, --version             Print version"]

/-- What is told when the words on the command line break its rules. The wording is this library's
own: it does not name the word at fault, as the message of a full parser of command lines does. -/
def usageText : String :=
  Report.unlines [
    "error: invalid arguments",
    "",
    "Usage: dbq [OPTIONS] [QUERY]",
    "",
    "For more information, try '--help'."]

/-- What a command line leads to. The settings file is looked for at the path that the command
line gives, or at the usual one. -/
def ofInvocation (usual : String) (files : String → SettingsFile) (input : ByteArray) :
    Invocation → Outcome
  | .run options =>
    let path := options.settingsPath usual
    ofOptions options path (files path) input
  | .version => success versionText []
  | .help => success helpText []
  | .misuse => ⟨2, "", usageText, []⟩

end Outcome

end DocShell
