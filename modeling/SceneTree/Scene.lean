import SceneTree.Source

/-!
This module contains scenes: prims by their paths, in the order in which the paths first appeared.
-/

namespace SceneTree

structure Scene where
  prims : Dict Path Container

namespace Scene

def empty : Scene := ⟨[]⟩

instance : Inhabited Scene := ⟨empty⟩

def insert (scene : Scene) (path : Path) (prim : Container) : Scene :=
  ⟨Dict.insert scene.prims path prim⟩

def prim? (scene : Scene) (path : Path) : Option Container :=
  Dict.get? scene.prims path

def contains (scene : Scene) (path : Path) : Bool :=
  Dict.contains scene.prims path

def paths (scene : Scene) : List Path :=
  Dict.keys scene.prims

def size (scene : Scene) : Nat :=
  scene.prims.length

def isEmpty (scene : Scene) : Bool :=
  scene.prims.isEmpty

def descendants (scene : Scene) (path : Path) : List Path :=
  scene.paths.filter fun other => other ≠ path ∧ other.isUnder path

theorem prim?_insert (scene : Scene) (path other : Path) (prim : Container) :
    (scene.insert path prim).prim? other = if path = other then some prim else scene.prim? other :=
  Dict.get?_insert scene.prims path other prim

end Scene

end SceneTree
