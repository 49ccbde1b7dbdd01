import SceneTree.Source

/-!
This module contains scene objects, and the mappings that say where their properties appear in a
tree of scene data.
-/

namespace SceneTree

inductive Attribute where
  | constant (value : Value)
  | samples (entries : List (Time × Value))

structure SceneObject where
  path : Path
  attributeOf : Token → Option Attribute
  targetsOf : Token → Option (List Path)

/--
The place of a property: the path of its object as seen by the reader, and the address of the source
that is made for it.
-/
structure MappedPlace where
  scenePath : Path
  locator : Locator

/--
The property that a mapping reads, with the function that makes a source of it. A mapping without a
function serves nothing.
-/
inductive Supplier where
  | ofAttribute (make : Option (Attribute → MappedPlace → Option Source))
  | ofTargets (make : Option (List Path → MappedPlace → Option Source))

structure PropertyMapping where
  name : Token
  locator : Locator
  supplier : Supplier

namespace Attribute

def source : Attribute → MappedPlace → Option Source
  | constant value, _ => some (.value value)
  | samples entries, _ => (TimeSamples.ofList? entries).map fun s => .sampled (.held s)

end Attribute

namespace Supplier

def firstTarget (targets : List Path) (_ : MappedPlace) : Option Source :=
  targets.head?.map fun target => .value (.path target)

def allTargets (targets : List Path) (_ : MappedPlace) : Option Source :=
  some (.value (.paths targets))

end Supplier

namespace PropertyMapping

def serve (mapping : PropertyMapping) (object : SceneObject) (scenePath : Path) : Option Source :=
  let place : MappedPlace := ⟨scenePath, mapping.locator⟩
  match mapping.supplier with
  | .ofAttribute make => do (← make) (← object.attributeOf mapping.name) place
  | .ofTargets make => do (← make) (← object.targetsOf mapping.name) place

def text (mapping : PropertyMapping) : String :=
  let kind := match mapping.supplier with
    | .ofAttribute _ => "Attribute"
    | .ofTargets _ => "Relationship"
  kind ++ "(" ++ mapping.name ++ " -> " ++ mapping.locator.text ++ ")"

end PropertyMapping

end SceneTree
