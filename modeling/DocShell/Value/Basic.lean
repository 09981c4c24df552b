import DocShell.Number.Decimal
import DocShell.Value.ObjectId

set_option autoImplicit false

/-! # Values

What the literals of the shell denote. An object is a list of fields with distinct keys, in
the order in which the keys were first written; writing a key again replaces its value in
place.
-/

namespace DocShell

/-- A value that a literal denotes. -/
inductive Value where
  | null
  | bool (b : Bool)
  | int (i : Int64)
  | float (x : Binary64)
  | string (s : String)
  | array (items : List Value)
  | object (fields : List (String × Value))
  | objectId (id : ObjectId)

/-- The fields of an object. -/
abbrev Fields := List (String × Value)

namespace Fields

/-- Sets a field: a key that is present keeps its place and takes the new value, a new key goes
to the end. -/
def insert (key : String) (value : Value) : Fields → Fields
  | [] => [(key, value)]
  | (k, v) :: fields =>
    if k = key then (key, value) :: fields else (k, v) :: insert key value fields

/-- The fields that a list of pairs denotes, written one after the other. -/
def ofPairs (pairs : List (String × Value)) : Fields :=
  pairs.foldl (fun fields (key, value) => insert key value fields) []

/-- The keys in order. -/
def keys (fields : Fields) : List String :=
  fields.map Prod.fst

/-- The value of a key. -/
def get? (fields : Fields) (key : String) : Option Value :=
  List.lookup key fields

end Fields

namespace Value

/-- The object without fields. -/
def empty : Value := object []

/-- The object that a list of pairs denotes. -/
def ofPairs (pairs : List (String × Value)) : Value :=
  object (Fields.ofPairs pairs)

/-! ## Looking into a value -/

/-- What kind of value it is, as shown in messages. Both kinds of number have one name. -/
def kind : Value → String
  | null => "null"
  | bool _ => "boolean"
  | int _ => "number"
  | float _ => "number"
  | string _ => "string"
  | array _ => "array"
  | object _ => "object"
  | objectId _ => "ObjectId"

/-- Whether the value is `null`. -/
def isNull : Value → Bool
  | null => true
  | _ => false

/-- Whether the value is the object without fields. -/
def isEmpty : Value → Bool
  | object [] => true
  | _ => false

/-- The fields of an object. -/
def fields? : Value → Option Fields
  | object fields => some fields
  | _ => none

/-- The items of an array. -/
def items? : Value → Option (List Value)
  | array items => some items
  | _ => none

/-- The text of a string. -/
def string? : Value → Option String
  | string s => some s
  | _ => none

/-- The truth value of a boolean. -/
def bool? : Value → Option Bool
  | bool b => some b
  | _ => none

/-- The integer, if the value is one. -/
def int? : Value → Option Int64
  | int i => some i
  | _ => none

/-- A number of either kind as a floating point number, the nearest one to an integer. -/
def float? : Value → Option Binary64
  | int i => some (.ofInt i.toInt)
  | float x => some x
  | _ => none

/-- The identifier, if the value is one. -/
def objectId? : Value → Option ObjectId
  | objectId id => some id
  | _ => none

/-- The value of a key, if the value is an object that has it. -/
def get? (v : Value) (key : String) : Option Value :=
  v.fields?.bind (·.get? key)

/-- The item at an index, if the value is an array that long. -/
def item? (v : Value) (index : Nat) : Option Value :=
  v.items?.bind (·[index]?)

/-! ## Nesting -/

mutual

/-- How deep objects and arrays are nested. -/
def depth : Value → Nat
  | array items => 1 + itemsDepth items
  | object fields => 1 + fieldsDepth fields
  | _ => 0

/-- The greatest depth of the items. -/
def itemsDepth : List Value → Nat
  | [] => 0
  | v :: items => max v.depth (itemsDepth items)

/-- The greatest depth of the fields' values. -/
def fieldsDepth : List (String × Value) → Nat
  | [] => 0
  | (_, v) :: fields => max v.depth (fieldsDepth fields)

end

/-! ## Equality of meaning -/

mutual

/-- Equality of meaning: numbers of one kind are compared as numbers, and the order of fields
does not count. -/
def equal : Value → Value → Bool
  | null, null => true
  | bool b, bool c => b == c
  | int i, int j => i == j
  | float x, float y => x.equal y
  | string s, string t => s == t
  | array xs, array ys => itemsEqual xs ys
  | object fs, object gs => fs.length == gs.length && fieldsEqual fs gs
  | objectId i, objectId j => i == j
  | _, _ => false

/-- Item by item. -/
def itemsEqual : List Value → List Value → Bool
  | [], [] => true
  | x :: xs, y :: ys => x.equal y && itemsEqual xs ys
  | _, _ => false

/-- Whether each field of the first object has an equal one in the second. -/
def fieldsEqual : List (String × Value) → List (String × Value) → Bool
  | [], _ => true
  | (k, v) :: fs, gs =>
    (match gs.lookup k with
      | some w => v.equal w
      | none => false) && fieldsEqual fs gs

end

end Value

end DocShell
