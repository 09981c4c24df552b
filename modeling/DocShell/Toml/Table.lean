import DocShell.Number.Binary64

set_option autoImplicit false

/-! # Tables of TOML

A document is a tree of tables. How a table came about decides what may still be added to it:
a table with a header of its own cannot get another, a table that dotted keys made can be
filled by dotted keys only, and an inline table is finished.
-/

namespace DocShell.Toml

/-- How a table came about. -/
inductive Origin where
  /-- It has a header, or is the document itself. -/
  | header
  /-- It was needed on the way to a table with a header. -/
  | implied
  /-- It was needed on the way to the last key of a dotted one. -/
  | dotted
  /-- It was written in braces. -/
  | inline
deriving DecidableEq

/-- What a key stands for. Dates are only checked, not kept. -/
inductive Node where
  | string (s : String)
  | integer (i : Int)
  | float (x : Binary64)
  | boolean (b : Bool)
  | dateTime
  | array (items : List Node)
  | table (origin : Origin) (entries : List (String × Node))
  /-- Tables under one repeated header, the latest first. -/
  | tables (each : List (List (String × Node)))

namespace Node

/-- The nodes of an array; tables under a repeated header are one, too. -/
def items? : Node → Option (List Node)
  | array items => some items
  | tables each => some (each.reverse.map (table .header))
  | _ => none

/-- Whether this is an array or a table with nothing in it. -/
def isEmpty : Node → Bool
  | array items => items.isEmpty
  | table _ entries => entries.isEmpty
  | _ => false

end Node

/-- The entries of a table, in the order of their keys' first appearance. -/
abbrev Entries := List (String × Node)

namespace Entries

/-- The entry of a key. -/
def get? (entries : Entries) (key : String) : Option Node :=
  List.lookup key entries

/-- Sets the entry of a key, in its place if it has one. -/
def set (key : String) (node : Node) : Entries → Entries
  | [] => [(key, node)]
  | (k, n) :: entries =>
    if k = key then (k, node) :: entries else (k, n) :: set key node entries

/-- Changes the table at the end of a path, making the tables on the way to it. A dotted key
cannot go through a table that has a header of its own. -/
def alter (dotted : Bool) (change : Origin → Entries → Option Entries) :
    (path : List String) → (origin : Origin) → (entries : Entries) → Option Entries
  | [], origin, entries => change origin entries
  | key :: path, _, entries =>
    match entries.get? key with
    | none => do
      let origin := if dotted then .dotted else .implied
      let inner ← alter dotted change path origin []
      return entries.set key (.table origin inner)
    | some (.table origin inner) =>
      if origin = .inline ∨ (dotted = true ∧ origin = .header) then none
      else do
        let inner ← alter dotted change path origin inner
        return entries.set key (.table origin inner)
    | some (.tables (latest :: earlier)) => do
      let inner ← alter dotted change path .header latest
      return entries.set key (.tables (inner :: earlier))
    | some _ => none

/-- Adds an entry under a dotted key, which must be new. -/
def addDotted (keys : List String) (node : Node) (origin : Origin) (entries : Entries) :
    Option Entries :=
  let way := keys.dropLast
  let last := keys.getLastD ""
  let add (origin : Origin) (entries : Entries) : Option Entries :=
    if (origin == .dotted) == way.isEmpty then none
    else
      match entries.get? last with
      | some _ => none
      | none => some (entries.set last node)
  alter true add way origin entries

/-- Opens the table of a header, which must not have one yet. -/
def openTable (header : List String) (root : Entries) : Option Entries :=
  let last := header.getLastD ""
  let start (_ : Origin) (entries : Entries) : Option Entries :=
    match entries.get? last with
    | none => some (entries.set last (.table .header []))
    | some (.table .implied inner) => some (entries.set last (.table .header inner))
    | some _ => none
  alter false start header.dropLast .header root

/-- Opens one more table under a repeated header. -/
def openRepeated (header : List String) (root : Entries) : Option Entries :=
  let last := header.getLastD ""
  let start (_ : Origin) (entries : Entries) : Option Entries :=
    match entries.get? last with
    | none => some (entries.set last (.tables [[]]))
    | some (.tables each) => some (entries.set last (.tables ([] :: each)))
    | some _ => none
  alter false start header.dropLast .header root

/-- Adds an entry to the table of a header. -/
def addUnder (header keys : List String) (node : Node) (root : Entries) : Option Entries :=
  alter false (addDotted keys node) header .header root

/-- The table of a list of pairs with dotted keys. -/
def ofPairs (pairs : List (List String × Node)) : Option Entries :=
  pairs.foldlM (fun entries (keys, node) => addDotted keys node .header entries) []

end Entries

end DocShell.Toml
