import DocShell.Arguments

set_option autoImplicit false

/-! # Methods

The methods of a collection, and the rule that each has for its arguments. Usage lines,
completion and the check of a call all read the same rules.
-/

namespace DocShell

/-- The supported methods. -/
inductive Method where
  | find
  | findOne
  | aggregate
  | count
  | insertOne
  | insertMany
  | updateOne
  | updateMany
  | replaceOne
  | deleteOne
  | deleteMany
deriving DecidableEq

/-- What an argument means to a method. -/
inductive Role where
  | filter
  | pipeline
  | document
  | documents
  | update
  | replacement
deriving DecidableEq

/-- The name of a role in usage lines. -/
def Role.label : Role → String
  | filter => "filter"
  | pipeline => "pipeline"
  | document => "document"
  | documents => "documents"
  | update => "update"
  | replacement => "replacement"

/-- What a method expects. -/
structure Rule where
  name : String
  description : String
  /-- The least number of arguments. -/
  least : Nat
  /-- The greatest number of arguments. -/
  most : Nat
  /-- What the first argument means. It may be left out where the second is not used. -/
  first : Role
  /-- What the second argument means, for methods that require one. -/
  second : Option Role
deriving DecidableEq

namespace Rule

/-- Whether there has to be a second argument. -/
def requiresSecond (rule : Rule) : Bool :=
  rule.second.isSome

/-- How a call is written. -/
def usage (rule : Rule) : String :=
  "db.<collection>." ++ rule.name ++
    match rule.second with
    | none => "([" ++ rule.first.label ++ "])"
    | some second => "(<" ++ rule.first.label ++ ">, <" ++ second.label ++ ">)"

/-- A method with one optional argument. -/
def optional (name description : String) (first : Role) : Rule :=
  ⟨name, description, 0, 1, first, none⟩

/-- A method with two arguments. -/
def binary (name description : String) (first second : Role) : Rule :=
  ⟨name, description, 2, 2, first, some second⟩

end Rule

namespace Method

/-- All methods, in the order in which they are listed. -/
def all : List Method :=
  [find, findOne, aggregate, count, insertOne, insertMany, updateOne, updateMany, replaceOne,
    deleteOne, deleteMany]

/-- The rule of a method. -/
def rule : Method → Rule
  | find => .optional "find" "Find documents matching a filter" .filter
  | findOne => .optional "findOne" "Find the first document matching a filter" .filter
  | aggregate => .optional "aggregate" "Run an aggregation stage or pipeline" .pipeline
  | count => .optional "count" "Count documents matching a filter" .filter
  | insertOne => .optional "insertOne" "Insert a single document" .document
  | insertMany => .optional "insertMany" "Insert several documents" .documents
  | updateOne =>
    .binary "updateOne" "Update the first document matching a filter" .filter .update
  | updateMany =>
    .binary "updateMany" "Update every document matching a filter" .filter .update
  | replaceOne =>
    .binary "replaceOne" "Replace the first document matching a filter" .filter .replacement
  | deleteOne => .optional "deleteOne" "Delete the first document matching a filter" .filter
  | deleteMany => .optional "deleteMany" "Delete every document matching a filter" .filter

/-- The name of a method. -/
def name (m : Method) : String :=
  m.rule.name

/-- The method of a name, which is matched exactly. -/
def ofName? (name : String) : Option Method :=
  all.find? fun m => m.name = name

/-- The method of a name, or the error that names it. -/
def ofName (name : String) : Except QueryError Method :=
  match ofName? name with
  | some m => .ok m
  | none => .error (.unsupportedMethod name)

/-- The methods whose names begin with the given text, in their order. -/
def completions (start : String) : List Method :=
  all.filter fun m => start.toList.isPrefixOf m.name.toList

/-- The place of a method among all methods. -/
def index (m : Method) : Nat :=
  all.idxOf m

end Method

/-- A call whose arguments fit its method's rule. They are still text. -/
structure Call where
  method : Method
  /-- The first argument, if it is given. -/
  primary : Option Fragment
  /-- The second argument, for methods that require one. -/
  secondary : Option Fragment
deriving DecidableEq

namespace Call

/-- Checks the number of arguments against the rule of the method. The method comes first: a
name that is not supported is reported whatever the arguments are. -/
def check (name : String) (arguments : List Fragment) : Except QueryError Call := do
  let method ← Method.ofName name
  let rule := method.rule
  if rule.requiresSecond ∧ arguments.length < 2 then
    throw (.missingOptions rule.name)
  if arguments.length < rule.least then
    throw (.malformed ⟨.tooFewArguments rule.name rule.least arguments.length, none⟩)
  match arguments[rule.most]? with
  | some extra =>
    throw (.malformed
      ⟨.tooManyArguments rule.name rule.most arguments.length, some extra.offset⟩)
  | none =>
    return {
      method
      primary := arguments[0]?
      secondary := if rule.requiresSecond then arguments[1]? else none }

end Call

end DocShell
