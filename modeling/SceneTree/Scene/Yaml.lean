import SceneTree.Scene.Description
import SceneTree.Yaml.Tree

/-!
This module contains the reading of scene descriptions from YAML. What is left out is an empty
collection where one is needed.
-/

namespace SceneTree.Yaml

namespace Tree

def isLeftOut : Tree → Bool
  | scalar _ .plain "" => true
  | _ => false

def maySignify (isTag : String → Bool) (tag : Option String) (form : Form) : Bool :=
  form = .plain || (form = .literal && tag.any isTag)

/--
Whether a tree stands for nothing. A tag that says so has to be right.
-/
def nothing? : Tree → Option Bool
  | scalar tag .plain text =>
    match tag with
    | none => some (text = "" || Plain.isNull text)
    | some tag =>
      if !Tag.isNull tag then some false
      else if Plain.isNull text then some true
      else none
  | _ => some false

def bool? : Tree → Option Bool
  | scalar tag form text => if maySignify Tag.isBool tag form then Plain.bool? text else none
  | _ => none

def double? : Tree → Option Float
  | scalar tag form text => if maySignify Tag.isFloat tag form then Plain.double? text else none
  | _ => none

def list? : Tree → Option (List Tree)
  | sequence _ items => some items
  | tree => if tree.isLeftOut then some [] else none

def keyText? : Tree → Option String
  | scalar _ _ text => some text
  | _ => none

def dictionary? : Tree → Option (List (String × Tree))
  | mapping _ entries => entries.mapM fun (key, value) => (keyText? key).map fun key => (key, value)
  | tree => if tree.isLeftOut then some [] else none

/--
The value of an integer: a number that is too great for an integer but not for an unsigned word is a
floating point number.
-/
def intValue? (i : Int) : Option Value :=
  if Int64.minValue.toInt ≤ i ∧ i ≤ Int64.maxValue.toInt then some (.int (Int64.ofInt i))
  else if 0 ≤ i ∧ i < UInt64.size then some (.double (UInt64.ofNat i.toNat).toFloat)
  else none

def plainValue? (text : String) : Option Value :=
  match Plain.ofText text with
  | .null => none
  | .bool b => some (.bool b)
  | .int i => intValue? i
  | .double x => some (.double x)
  | .text => some (.string text)

/--
The value of a scalar. The tags of the language hold whatever the form is, and no others than those
are known.
-/
def scalarValue? (tag : Option String) (form : Form) (text : String) : Option Value :=
  match tag with
  | none => if form = .plain then plainValue? text else some (.string text)
  | some tag =>
    if Tag.isLocal tag || Tag.isNull tag then none
    else if Tag.isBool tag then (Plain.bool? text).map .bool
    else if Tag.isInt tag then (Plain.int? text).bind intValue?
    else if Tag.isFloat tag then (Plain.double? text).map .double
    else some (.string text)

mutual

/--
The value of an attribute. Nothing is no value, and keys are texts that stand for nothing else.
-/
def value? : Tree → Option Value
  | scalar tag form text => scalarValue? tag form text
  | sequence tag items =>
    if tag.any Tag.isLocal then none else (itemValues? items).map .array
  | mapping tag entries =>
    if tag.any Tag.isLocal then none
    else (entryValues? entries).map fun entries => .dictionary (Dict.ofList entries)

def itemValues? : List Tree → Option (List Value)
  | [] => some []
  | item :: rest => do return (← value? item) :: (← itemValues? rest)

def entryValues? : List (Tree × Tree) → Option (List (String × Value))
  | [] => some []
  | (key, value) :: rest => do
    let .string key ← value? key | failure
    return (key, ← value? value) :: (← entryValues? rest)

end

end Tree

instance : DataFormat Tree where
  nothing? := Tree.nothing?
  bool? := Tree.bool?
  double? := Tree.double?
  list? := Tree.list?
  dictionary? := Tree.dictionary?
  record? fields _ tree := (tree.dictionary?).bind (DataFormat.ofFields? fields)
  value? := Tree.value?

def description? (text : String) : Option SceneDescription :=
  (Tree.ofText? text).bind SceneDescription.ofTree?

end SceneTree.Yaml
