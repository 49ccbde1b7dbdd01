import SceneTree.Material.Network
import SceneTree.Value.Text

/-!
This module contains the search for the types of nodes that only say how they are implemented. The
type info of such a node names a file or holds source code, which a registry of shaders knows.
-/

namespace SceneTree

inductive ShaderRequest where
  | asset (path : String) (metadata : Dict Token String) (subIdentifier sourceType : Token)
  | code (text : String) (sourceType : Token) (metadata : Dict Token String)

abbrev ShaderRegistry := ShaderRequest → Option Token

namespace MaterialNetwork

/--
A value of the type info of a node: the one for the given kind of source if there is one, otherwise
the one for all kinds.
-/
def implementationValue (node sourceType : Token) (key : String) : NetworkM (Option Value) := do
  match ← typeInfoValue node (sourceType ++ ":" ++ key) with
  | some value => return some value
  | none => typeInfoValue node key

def shaderMetadata (node sourceType : Token) : NetworkM (Dict Token String) := do
  let value ← implementationValue node sourceType "sdrMetadata"
  let entries := (value.bind Value.toDictionary?).getD []
  return Dict.ofList (entries.map fun entry => (entry.1, entry.2.text))

/--
The question that the implementation of a node gives rise to. Empty source code gives rise to none.
-/
def shaderRequest (node sourceType : Token) : NetworkM (Option ShaderRequest) := do
  let source ← implementationValue node sourceType "implementationSource"
  match source.bind Value.toString? with
  | some "sourceAsset" =>
    let asset ← implementationValue node sourceType "sourceAsset"
    match asset.bind Value.toString? with
    | none => return none
    | some asset =>
      let part ← implementationValue node sourceType "sourceAsset:subIdentifier"
      let metadata ← shaderMetadata node sourceType
      return some (.asset asset metadata ((part.bind Value.toToken?).getD Token.unset) sourceType)
  | some "sourceCode" =>
    let code ← implementationValue node sourceType "sourceCode"
    match code.bind Value.toString? with
    | none => return none
    | some code =>
      if code = "" then return none
      return some (.code code sourceType (← shaderMetadata node sourceType))
  | _ => return none

structure Identification where
  /-- How many nodes the registry answered for. -/
  count : Nat
  /-- The questions that were asked, in order. -/
  requests : List ShaderRequest

def identifyNode (sourceType : Token) (registry : ShaderRegistry) (found : Identification)
    (node : Token) : NetworkM Identification := do
  if (← nodeType node) ≠ Token.unset then return found
  match ← shaderRequest node sourceType with
  | none => return found
  | some request =>
    let requests := found.requests ++ [request]
    match registry request with
    | none => return { found with requests }
    | some type =>
      modify (·.setNodeType node type)
      return { count := found.count + 1, requests }

def identifyNodes (sourceType : Token) (registry : ShaderRegistry) : NetworkM Identification := do
  (← get).nodeNames.foldlM (identifyNode sourceType registry) ⟨0, []⟩

end MaterialNetwork

end SceneTree
