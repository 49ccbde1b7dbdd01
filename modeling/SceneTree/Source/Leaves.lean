import SceneTree.Source
import SceneTree.Value.Text

/-!
This module contains the walk over the leaves of a tree, and the text that lists them.
-/

namespace SceneTree.Source

mutual

/--
The leaves of a tree, sampled sources and blocks, with their addresses below a given one. Containers
are walked in the order of their names, and vectors with the places of their elements as names.
-/
def leavesFrom (locator : Locator) : Source → List (Locator × Source)
  | container names child =>
    names.flatMap fun name => childLeaves (locator ++ [name]) (child name)
  | vector elements => elementLeaves locator 0 elements
  | sampled s => [(locator, sampled s)]
  | block => [(locator, block)]

def childLeaves (locator : Locator) : Option Source → List (Locator × Source)
  | none => []
  | some source => leavesFrom locator source

def elementLeaves (locator : Locator) (index : Nat) : List Source → List (Locator × Source)
  | [] => []
  | element :: rest =>
    leavesFrom (locator ++ [toString index]) element ++ elementLeaves locator (index + 1) rest

end

def leaves (source : Source) : List (Locator × Source) :=
  leavesFrom [] source

def leafText (t : Time) : Source → String
  | sampled s => (s.valueAt t).text
  | _ => "<block>"

def listing (source : Source) (t : Time) : String :=
  String.join (source.leaves.map fun (locator, leaf) =>
    Locator.text locator ++ " = " ++ leafText t leaf ++ "\n")

end SceneTree.Source
