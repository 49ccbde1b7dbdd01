import SceneTree.Locator.Set
import SceneTree.Projection.Tree

/-!
This module contains projections, which show the properties of objects in a tree of scene data and
tell which places of it change with a property.
-/

namespace SceneTree

structure Projection where
  /-- The names of the accepted mappings, with their addresses in the prim. -/
  places : List (Token × Locator)
  tree : MappingTree
  /-- Why mappings were left out, in their order. -/
  issues : List MappingIssue

namespace Projection

def empty : Projection := ⟨[], .empty, []⟩

instance : Inhabited Projection := ⟨empty⟩

/--
Add a mapping below a given place of the prim. A mapping that is in conflict with an earlier one is
left out.
-/
def add (top : Locator) (projection : Projection) (mapping : PropertyMapping) : Projection :=
  let locator := top ++ mapping.locator
  match projection.tree.add mapping.locator { mapping with locator } with
  | (none, tree) => { projection with
      tree, places := projection.places ++ [(mapping.name, locator)] }
  | (some issue, tree) => { projection with tree, issues := projection.issues ++ [issue] }

def ofMappings (mappings : List PropertyMapping) (top : Locator) : Projection :=
  mappings.foldl (add top) empty

def invalidated (projection : Projection) (names : List Token) : LocatorSet :=
  .ofList (names.flatMap fun name =>
    (projection.places.filter (·.1 = name)).map (·.2))

def container (projection : Projection) (object : SceneObject) (scenePath : Path) : Container :=
  projection.tree.container object scenePath 0

end Projection

end SceneTree
