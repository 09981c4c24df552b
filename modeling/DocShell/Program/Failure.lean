import DocShell.Report

set_option autoImplicit false

/-! # Why a run fails

The causes that end a run of the program: a query that is refused, settings that cannot be
used, input that cannot be read, output that cannot be made.
-/

namespace DocShell

/-- Why the settings cannot be used. -/
inductive SettingsFault where
  /-- The report format asked for is not known. -/
  | unknownFormat (name : String)
  /-- The settings file is there but cannot be read. -/
  | unreadable (why : String)
  /-- The settings file at this path is not valid. What is wrong with it is told in the words of the
  reader of its format, if it has any. -/
  | invalid (path : String) (complaint : Option String)
  /-- A cause that a host gives in its own words. -/
  | stated (text : String)
deriving DecidableEq

/-- The wording of a cause. What is wrong inside a settings file is told in lines of its own. -/
def SettingsFault.message : SettingsFault → String
  | unknownFormat name => ReportFormat.unknown name
  | unreadable why => "Failed to read config file: " ++ why
  | invalid path complaint =>
    "Configuration error in " ++ path ++ ":" ++ complaint.elim "" ("\n  " ++ ·)
  | stated text => text

/-- Why the input cannot be read. -/
inductive InputFault where
  /-- The bytes are not UTF-8. -/
  | notUtf8
  /-- A cause that a host gives in its own words. -/
  | stated (text : String)
deriving DecidableEq

/-- The wording of a cause. -/
def InputFault.message : InputFault → String
  | notUtf8 => "stream did not contain valid UTF-8"
  | stated text => text

/-- What ends a run before it has done its work. -/
inductive Failure where
  | query (e : QueryError)
  | settings (fault : SettingsFault)
  | input (fault : InputFault)
  | output (text : String)
deriving DecidableEq

namespace Failure

/-- The message for the user. -/
def message : Failure → String
  | query e => e.message
  | settings fault => "Configuration error: " ++ fault.message
  | input fault => "I/O error: " ++ fault.message
  | output text => "Output error: " ++ text

/-- The kind of failure, as shown in log lines. -/
def category : Failure → String
  | query e => e.category
  | settings _ => "Configuration Error"
  | input _ => "I/O Error"
  | output _ => "Output Error"

/-- What is wrong with a malformed query. -/
def detail? : Failure → Option SyntaxError
  | query e => e.detail?
  | _ => none

/-- What the user is shown: the message, and the detail of a malformed query on a line of its
own. -/
def lines (f : Failure) : List String :=
  f.message :: f.detail?.toList.map fun detail => "  " ++ detail.message

end Failure

end DocShell
