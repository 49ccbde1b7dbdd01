import SceneTree.Locator.Set
import SceneTree.Schema

/-!
This module contains the rules by which a prim takes over data from the prims above it, and the two
that scenes are flattened by. The transform of a prim is its own, after which that of its parent
applies, unless the prim sets its transform without regard to its parent. A flattened transform is
marked like that, so it is never combined with an ancestor again. A prim that says nothing of its
visibility is as visible as its parent.
-/

namespace SceneTree

structure FlattenInput where
  path : Path
  /-- The container that the prim itself has under the name of the rule. -/
  own : Option Container
  /-- What the rule made of the parent. -/
  inherited : Option Container

structure FlattenRule where
  /-- The container of a prim with the ancestors taken into account. -/
  flatten : FlattenInput → Option Container
  /-- The places that change in every descendant, from those that change in a prim. -/
  spread : LocatorSet → LocatorSet

abbrev FlattenRules := Dict Token FlattenRule

namespace Schema

def matrix? (data : Option Container) : Option Sampled :=
  (xform.field? data "matrix").bind Source.sampled?

def resets (data : Option Container) : Bool :=
  ((xform.field? data "resetXformStack").bind (·.typed? Value.toBool? Time.zero)).getD false

end Schema

namespace FlattenRule

def completeXform (matrix : Sampled) : Container :=
  Container.ofEntries
    [("matrix", some (.sampled matrix)), ("resetXformStack", some (.value (.bool true)))]

def identityXform : Container :=
  completeXform (.constant (.matrix .identity))

def flattenXform (mul : Matrix → Matrix → Matrix) (own inherited : Option Container) : Container :=
  if Schema.resets own then
    match Schema.matrix? own, own with
    | some _, some container => container
    | _, _ => identityXform
  else
    match Schema.matrix? own, Schema.matrix? inherited with
    | none, none => identityXform
    | none, some _ => inherited.getD identityXform
    | some inner, none => completeXform inner
    | some inner, some outer => completeXform (.combined (Value.mulTransformsBy mul) outer inner)

def xformBy (mul : Matrix → Matrix → Matrix) : FlattenRule where
  flatten input := some (flattenXform mul input.own input.inherited)
  spread _ := .universal

def xform : FlattenRule := xformBy Matrix.mul

def flattenVisibility (own inherited : Option Container) : Option Container :=
  if (Schema.visibility.field? own "visibility").isSome then own else inherited

def visibility : FlattenRule where
  flatten input := flattenVisibility input.own input.inherited
  spread _ := .universal

end FlattenRule

end SceneTree
