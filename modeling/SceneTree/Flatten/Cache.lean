import SceneTree.Edit
import SceneTree.Flatten.Rule
import SceneTree.Scene

/-!
This module contains the flattened prims of a scene: each prim with the containers under the names
of rules replaced by what the rules make of them. Flattened prims are kept until a change of the
scene concerns them.
-/

namespace SceneTree

namespace FlattenRules

def standardBy (mul : Matrix → Matrix → Matrix) : FlattenRules :=
  [("xform", .xformBy mul), ("visibility", .visibility)]

def standard : FlattenRules :=
  [("xform", .xform), ("visibility", .visibility)]

/--
A prim as the rules make it, from the prim that the scene has, or none, and the flattened parent, if
the prim is not the root.
-/
def flatten (rules : FlattenRules) (path : Path) (prim parent : Option Container) : Container :=
  let apply (editor : Editor) (rule : Token × FlattenRule) : Editor :=
    let made := rule.2.flatten {
      path
      own := prim.bind (·.container? rule.1)
      inherited := parent.bind (·.container? rule.1) }
    editor.set [rule.1] (made.map Container.source)
  (rules.foldl apply (Editor.new prim)).finish

/--
The places that change in every descendant of a prim, from those that change in the prim. Each rule
answers for the places under its name.
-/
def spread (rules : FlattenRules) (changed : LocatorSet) : LocatorSet :=
  rules.foldl (fun result rule =>
    if changed.meets [rule.1] then
      let own := (changed.within [rule.1]).moved [rule.1] []
      result.union ((rule.2.spread own).moved [] [rule.1])
    else result) .empty

end FlattenRules

structure FlattenCache where
  scene : Scene
  rules : FlattenRules
  known : Dict Path Container

namespace FlattenCache

def new (scene : Scene) (rules : FlattenRules) : FlattenCache :=
  ⟨scene, rules, []⟩

instance : Inhabited FlattenCache := ⟨new .empty []⟩

/--
The flattened prim at a path, known or made from the flattened parent. A prim that the scene lacks is
empty. All prims that had to be made become known.
-/
def flattened (cache : FlattenCache) (path : Path) : Container × FlattenCache :=
  match Dict.get? cache.known path with
  | some prim => (prim, cache)
  | none =>
    let (parent, cache) : Option Container × FlattenCache :=
      match h : path.parent? with
      | none => (none, cache)
      | some parent =>
        have := Path.depth_lt_of_parent? h
        let (prim, cache) := cache.flattened parent
        (some prim, cache)
    let prim := FlattenRules.flatten cache.rules path (cache.scene.prim? path) parent
    (prim, { cache with known := Dict.insert cache.known path prim })
termination_by path.depth

def prim? (cache : FlattenCache) (path : Path) : Option Container × FlattenCache :=
  if cache.scene.contains path then
    let (prim, cache) := cache.flattened path
    (some prim, cache)
  else (none, cache)

/--
Take note of changes in a prim: forget it, and its descendants if anything in them changes. The
answer is what changes in every descendant.
-/
def invalidate (cache : FlattenCache) (path : Path) (changed : LocatorSet) :
    LocatorSet × FlattenCache :=
  let below := cache.rules.spread changed
  let known := Dict.erase cache.known path
  let known := if below.isEmpty then known else known.filter fun entry => !entry.1.isUnder path
  (below, { cache with known })

def update (cache : FlattenCache) (path : Path) (prim : Container) (changed : LocatorSet) :
    LocatorSet × FlattenCache :=
  { cache with scene := cache.scene.insert path prim }.invalidate path changed

end FlattenCache

end SceneTree
