import SceneTree.Json.Reader
import SceneTree.Scene.Description

/-!
This module contains the reading of scene descriptions from JSON. A record may be written as the list
of its fields.
-/

namespace SceneTree.Json

namespace Tree

def numberValue : Number → Value
  | .int i =>
    if Int64.minValue.toInt ≤ i ∧ i ≤ Int64.maxValue.toInt then .int (Int64.ofInt i)
    else .double (Number.int i).toDouble
  | .real x => .double x

mutual

def value? : Tree → Option Value
  | null => none
  | bool b => some (.bool b)
  | number n => some (numberValue n)
  | string s => some (.string s)
  | list items => (valueItems? items).map .array
  | object members => (valueMembers? members).map fun entries => .dictionary (Dict.ofList entries)

def valueItems? : List Tree → Option (List Value)
  | [] => some []
  | item :: rest => do return (← value? item) :: (← valueItems? rest)

def valueMembers? : List (String × Tree) → Option (List (String × Value))
  | [] => some []
  | (key, tree) :: rest => do return (key, ← value? tree) :: (← valueMembers? rest)

end

/--
The entries of a record, from an object or from a list of its first fields.
-/
def record? (fields : List String) (needed : Nat) : Tree → Option (List (String × Tree))
  | object members => DataFormat.ofFields? fields members
  | list items =>
    if needed ≤ items.length ∧ items.length ≤ fields.length then some (fields.zip items) else none
  | _ => none

end Tree

instance : DataFormat Tree where
  nothing?
    | .null => some true
    | _ => some false
  bool?
    | .bool b => some b
    | _ => none
  double?
    | .number n => some n.toDouble
    | _ => none
  list?
    | .list items => some items
    | _ => none
  dictionary?
    | .object members => some members
    | _ => none
  record? := Tree.record?
  value? := Tree.value?

def description? (text : String) : Option SceneDescription :=
  (Tree.ofText? text).bind SceneDescription.ofTree?

end SceneTree.Json
