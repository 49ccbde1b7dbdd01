import SceneTree.Scene
import SceneTree.Scene.Description
import SceneTree.Schema
import SceneTree.Text.Quoted

/-!
This module contains the prims of scene descriptions, and how a scene takes them over. Prims are
taken over one by one, up to the first that is wrong. A prim that is described again is replaced as a
whole.
-/

namespace SceneTree

inductive DescriptionError where
  | invalidPath (text : String) (cause : PathError)
  | badMatrix (path : Path) (length : Nat)
deriving DecidableEq

namespace DescriptionError

def message : DescriptionError → String
  | invalidPath text _ => "Invalid prim path " ++ Text.quoted text
  | badMatrix path length => s!"Matrix of prim {path} needs 16 elements, found {length}"

end DescriptionError

def XformDescription.container (path : Path) (xform : XformDescription) :
    Except DescriptionError Container := do
  let matrix ← match xform.matrix with
    | none => pure none
    | some elements =>
      match Matrix.ofList? elements with
      | some matrix => pure (some matrix)
      | none => throw (.badMatrix path elements.length)
  let matrix := match xform.translate with
    | none => matrix
    | some (x, y, z) => some ((Matrix.translation x y z).mul (matrix.getD .identity))
  return Container.ofEntries
    [("matrix", matrix.map fun m => .value (.matrix m)),
      ("resetXformStack", xform.resetXformStack.map fun b => .value (.bool b))]

def PrimDescription.container (path : Path) (prim : PrimDescription) :
    Except DescriptionError Container := do
  let xform ← match prim.xform with
    | none => pure none
    | some xform => some <$> xform.container path
  let visibility := prim.visibility.map fun b => Source.ofEntries
    [("visibility", some (.value (.bool b)))]
  let attributes := if prim.attributes.isEmpty then none
    else some (Source.ofEntries (prim.attributes.map fun (name, v) => (name, some (.value v))))
  return Container.ofEntries [("xform", xform.map Container.source), ("visibility", visibility),
    ("attributes", attributes)]

namespace Scene

def addPrim (scene : Scene) (text : String) (prim : PrimDescription) :
    Except DescriptionError Scene :=
  match Path.ofText text with
  | .error cause => .error (.invalidPath text cause)
  | .ok path =>
    match prim.container path with
    | .error e => .error e
    | .ok container => .ok (scene.insert path container)

def addDescription (scene : Scene) : SceneDescription → Option DescriptionError × Scene
  | [] => (none, scene)
  | (text, prim) :: rest =>
    match scene.addPrim text prim with
    | .error e => (some e, scene)
    | .ok scene => scene.addDescription rest

end Scene

end SceneTree
