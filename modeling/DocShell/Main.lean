import DocShell.Program.Run

set_option autoImplicit false

/-! # The program

The outer layer: it reads the settings file and the input, and writes what the run leaves
behind. All decisions are made by `Outcome.ofInvocation`.
-/

namespace DocShell

/-- An error of the system, with its number. -/
def systemMessage (code : UInt32) (details : String) : String :=
  details.capitalize ++ " (os error " ++ code.toNat.repr ++ ")"

/-- Why a file could not be read. -/
def unreadMessage : IO.Error → String
  | .noFileOrDirectory _ code details => systemMessage code details
  | .inappropriateType _ code details => systemMessage code details
  | .permissionDenied _ code details => systemMessage code details
  | e => toString e

/-- What stands at a path. Nothing does if the path cannot be followed, for whatever reason; a file
at its end that cannot be read is another matter. -/
def readSettingsFile (path : String) : IO SettingsFile := do
  let .ok _ ← (IO.FS.realPath path).toBaseIO | return .absent
  match ← (IO.FS.readBinFile path).toBaseIO with
  | .error e => return .unreadable (unreadMessage e)
  | .ok bytes =>
    match String.fromUTF8? bytes with
    | some text => return .present text
    | none => return .unreadable InputFault.notUtf8.message

/-- The folder for the settings of all programs. -/
def settingsFolder : IO String := do
  if let some folder ← IO.getEnv "XDG_CONFIG_HOME" then
    if folder.startsWith "/" then return folder
  match ← IO.getEnv "HOME" with
  | some home => return home ++ "/.config"
  | none => return "."

/-- The usual place of the settings file. -/
def usualSettingsPath : IO String :=
  return (← settingsFolder) ++ "/db-query/config.toml"

/-- The least important level that is logged. Only one level for all parts of the program can be
asked for here; with anything else the log is as without the variable. -/
def logFilter : IO (Option LogLevel) := do
  match (← IO.getEnv "RUST_LOG").map String.toLower with
  | some "off" => return none
  | some name => return some ((LogLevel.ofName? name).getD .warn)
  | none => return some .warn

/-- Writes what a run leaves behind. -/
def finish (outcome : Outcome) : IO UInt32 := do
  let filter ← logFilter
  let stderr ← IO.getStderr
  for event in outcome.log.filter (·.passes filter) do
    stderr.putStrLn event.text
  stderr.putStr outcome.stderr
  (← IO.getStdout).putStr outcome.stdout
  return outcome.exit.toUInt32

/-- All bytes that are left in a stream, after those read before. -/
partial def readBytes (stream : IO.FS.Stream) (before : ByteArray) : IO ByteArray := do
  let bytes ← stream.read 65536
  if bytes.isEmpty then return before else readBytes stream (before ++ bytes)

/-- The input, if the options ask for it. -/
def readInput (options : Options) : IO ByteArray := do
  if options.readsInput && options.methods.isNone then
    readBytes (← IO.getStdin) .empty
  else return .empty

end DocShell

open DocShell in
def main (words : List String) : IO UInt32 := do
  let invocation := Options.parse words
  let usual ← usualSettingsPath
  match invocation with
  | .run options =>
    let file ← readSettingsFile (options.settingsPath usual)
    let input ← readInput options
    finish (.ofInvocation usual (fun _ => file) input invocation)
  | _ => finish (.ofInvocation usual (fun _ => .absent) .empty invocation)
