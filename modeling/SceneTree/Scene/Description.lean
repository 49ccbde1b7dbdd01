import SceneTree.Dict
import SceneTree.Matrix
import SceneTree.Value

/-!
This module contains scene descriptions, which say in plain data what prims a scene has, and the
reading of a description from the tree of a data format.
-/

namespace SceneTree

/--
The transform of a described prim. The translation applies after the matrix.
-/
structure XformDescription where
  matrix : Option (List Float)
  translate : Option (Float × Float × Float)
  resetXformStack : Option Bool

structure PrimDescription where
  xform : Option XformDescription
  visibility : Option Bool
  attributes : Dict String Value

abbrev SceneDescription := Dict String PrimDescription

/--
A data format, by the readings of its trees. A reading fails if the tree is something else.
-/
class DataFormat (δ : Type) where
  /-- Whether a tree stands for nothing, so that a field may do without it. -/
  nothing? : δ → Option Bool
  bool? : δ → Option Bool
  double? : δ → Option Float
  list? : δ → Option (List δ)
  /-- The entries of a dictionary with texts as keys, in order and with repetitions. -/
  dictionary? : δ → Option (List (String × δ))
  /-- The entries of a record with the given fields, of which the first `needed` are always there
  if the format writes records as lists. -/
  record? (fields : List String) (needed : Nat) : δ → Option (List (String × δ))
  /-- The value of an attribute. -/
  value? : δ → Option Value

namespace DataFormat

/--
A record has no fields but its own, and none of them twice.
-/
def ofFields? {δ : Type} (fields : List String) (entries : List (String × δ)) :
    Option (List (String × δ)) :=
  let keys := entries.map (·.1)
  if keys.all (· ∈ fields) ∧ keys.Nodup then some entries else none

variable {δ : Type} [DataFormat δ]

/--
A field that may be left out, or be nothing.
-/
def optional? {α : Type} (read : δ → Option α) (entries : List (String × δ)) (field : String) :
    Option (Option α) :=
  match Dict.get? entries field with
  | none => some none
  | some tree => do
    if ← nothing? tree then return none
    return some (← read tree)

/--
A dictionary. A repeated key keeps its first place and its last value.
-/
def dictionaryOf? {α : Type} (read : δ → Option α) (tree : δ) : Option (Dict String α) := do
  let entries ← dictionary? tree
  let read ← entries.mapM fun (key, tree) => (read tree).map fun a => (key, a)
  return Dict.ofList read

/--
A field that may be left out, but not be nothing, with a dictionary in it.
-/
def dictionaryField? {α : Type} (read : δ → Option α) (entries : List (String × δ))
    (field : String) : Option (Dict String α) :=
  match Dict.get? entries field with
  | none => some []
  | some tree => dictionaryOf? read tree

end DataFormat

open DataFormat

variable {δ : Type} [DataFormat δ]

def XformDescription.triple? (tree : δ) : Option (Float × Float × Float) := do
  match ← (← list? tree).mapM double? with
  | [x, y, z] => return (x, y, z)
  | _ => failure

def XformDescription.ofTree? (tree : δ) : Option XformDescription := do
  let entries ← record? ["matrix", "translate", "resetXformStack"] 3 tree
  return {
    matrix := ← optional? (fun tree => do (← list? tree).mapM double?) entries "matrix"
    translate := ← optional? triple? entries "translate"
    resetXformStack := ← optional? bool? entries "resetXformStack" }

def PrimDescription.ofTree? (tree : δ) : Option PrimDescription := do
  let entries ← record? ["xform", "visibility", "attributes"] 2 tree
  return {
    xform := ← optional? XformDescription.ofTree? entries "xform"
    visibility := ← optional? bool? entries "visibility"
    attributes := ← dictionaryField? value? entries "attributes" }

def SceneDescription.ofTree? (tree : δ) : Option SceneDescription := do
  let entries ← record? ["prims"] 0 tree
  dictionaryField? PrimDescription.ofTree? entries "prims"

end SceneTree
