import DocShell.Command.Basic

set_option autoImplicit false

/-! # Safety of commands

Commands that only read are safe; those that write ask for confirmation; those that delete
also carry a warning. Updating or deleting many documents with an empty filter concerns the
whole collection and is warned of in stronger words.
-/

namespace DocShell

/-- How much harm a command can do. -/
inductive SafetyLevel where
  | safe
  | mutating
  | destructive
deriving DecidableEq

namespace SafetyLevel

/-- All levels, in increasing order. -/
def all : List SafetyLevel :=
  [safe, mutating, destructive]

/-- The place of a level in the order. -/
def rank : SafetyLevel → Nat
  | safe => 0
  | mutating => 1
  | destructive => 2

/-- The name of a level. -/
def name : SafetyLevel → String
  | safe => "Safe"
  | mutating => "Mutating"
  | destructive => "Destructive"

/-- Whether the user should confirm commands of this level. -/
def requiresConfirmation : SafetyLevel → Bool
  | safe => false
  | mutating => true
  | destructive => true

/-- Whether the user should be warned of commands of this level. -/
def requiresWarning : SafetyLevel → Bool
  | safe => false
  | mutating => false
  | destructive => true

/-- The level of a method, whatever its arguments. -/
def ofMethod : Method → SafetyLevel
  | .find | .findOne | .aggregate | .count => safe
  | .insertOne | .insertMany | .updateOne | .updateMany | .replaceOne => mutating
  | .deleteOne | .deleteMany => destructive

end SafetyLevel

/-- How a command was judged. -/
structure Classification where
  level : SafetyLevel
  method : Method
  warning : Option String
deriving DecidableEq

namespace Classification

/-- Whether the user should confirm the command. -/
def requiresConfirmation (c : Classification) : Bool :=
  c.level.requiresConfirmation

/-- Whether the user should be warned. -/
def requiresWarning (c : Classification) : Bool :=
  c.level.requiresWarning || c.warning.isSome

/-- The warning of a delete. -/
def deleteWarning : String :=
  "This action cannot be undone."

/-- The warning of a delete that concerns the whole collection. -/
def deleteAllWarning : String :=
  "Empty filter: this will delete every document in the collection. This action cannot be undone."

/-- The warning of an update that concerns the whole collection. -/
def updateAllWarning : String :=
  "Empty filter: this update matches every document in the collection."

/-- The warning that a method with this filter deserves. -/
def warningFor (method : Method) (filter : Value) : Option String :=
  match method with
  | .deleteMany => some (if filter.isEmpty then deleteAllWarning else deleteWarning)
  | .deleteOne => some deleteWarning
  | .updateMany => if filter.isEmpty then some updateAllWarning else none
  | _ => none

/-- Judges a command. -/
def ofCommand (c : Command) : Classification :=
  ⟨.ofMethod c.method, c.method, warningFor c.method c.primary⟩

end Classification

end DocShell
