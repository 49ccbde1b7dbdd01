import SceneTree.Edit
import SceneTree.Schema

/-!
This module contains material networks that are open for reading and writing. Writes are collected
over a network that itself never changes. A read is answered by the closest write at or above the
place in question, and by the network below the writes if there is none.
-/

namespace SceneTree

structure NodeParameter where
  value : Option Value
  colorSpace : Token
  typeName : Token
deriving Inhabited

/--
A node of the network below the writes, with the containers that most reads need.
-/
structure BaseNode where
  node : Option Container
  parameters : Option Container
  inputs : Option Container

structure MaterialNetwork where
  path : Path
  /-- The prim that holds the material. -/
  prim : Option Container
  /-- The network below the writes. -/
  base : Container
  editor : Editor
  /-- The last write at each place, `none` for a deletion. -/
  writes : Dict Locator (Option Source)
  writtenNodes : List Token
  /-- Nodes that were deleted. They stay so: later writes to them are ignored. -/
  deletedNodes : List Token
  /-- The edits of the type info of nodes, which are collected per node. -/
  typeInfoEdits : Dict Token Editor
  terminalsWritten : Bool
  /-- The node that was read last. -/
  recent : Option (Token × BaseNode)

/--
A computation that reads a network. All that it changes is which node was read last.
-/
abbrev NetworkM (α : Type) := StateM MaterialNetwork α

namespace BaseNode

def ofNetwork (network : Container) (name : Token) : BaseNode :=
  let nodes := Schema.network.field? network "nodes" |>.bind Source.container?
  let node := nodes.bind (·.container? name)
  { node
    parameters := (Schema.node.field? node "parameters").bind Source.container?
    inputs := (Schema.node.field? node "inputConnections").bind Source.container? }

end BaseNode

namespace MaterialNetwork

def new (path : Path) (network : Container) (prim : Option Container) : MaterialNetwork where
  path := path
  prim := prim
  base := network
  editor := .new network
  writes := []
  writtenNodes := []
  deletedNodes := []
  typeInfoEdits := []
  terminalsWritten := false
  recent := none

instance : Inhabited MaterialNetwork := ⟨new .root .empty none⟩

def nodeLocator (node : Token) : Locator :=
  ["nodes", node]

def parameterLocator (node parameter : Token) : Locator :=
  nodeLocator node ++ ["parameters", parameter]

def inputLocator (node input : Token) : Locator :=
  nodeLocator node ++ ["inputConnections", input]

def typeInfoLocator (node : Token) : Locator :=
  nodeLocator node ++ ["nodeTypeInfo"]

def terminalLocator (terminal : Token) : Locator :=
  ["terminals", terminal]

def isModified (network : MaterialNetwork) : Bool :=
  !network.writes.isEmpty || !network.typeInfoEdits.isEmpty

/--
The network with the writes applied, or the network itself if there are none.
-/
def finish (network : MaterialNetwork) : Container :=
  if network.isModified then network.editor.finish else network.base

def written? (network : MaterialNetwork) (locator : Locator) : Option (Option Source) :=
  (List.range (locator.length + 1)).reverse.findSome? fun n =>
    (Dict.get? network.writes (locator.take n)).map fun value =>
      value.bind (·.at? (locator.drop n))

def baseNode (name : Token) : NetworkM BaseNode := do
  match (← get).recent with
  | some (last, node) =>
    if last = name then return node
  | none => pure ()
  let node := BaseNode.ofNetwork (← get).base name
  modify fun network => { network with recent := some (name, node) }
  return node

def readNode (name : Token) (locator : Locator) (base : BaseNode → Option Source) :
    NetworkM (Option Source) := do
  let network ← get
  if name ∈ network.deletedNodes then return none
  match network.written? locator with
  | some source => return source
  | none => return base (← baseNode name)

def part (network : Container) (name : Token) : Option Container :=
  (Schema.network.field? network name).bind Source.container?

def editedNode (network : MaterialNetwork) (name : Token) : Option Container :=
  (network.editor.finish.at? (nodeLocator name)).bind Source.container?

def tokenOf (source : Option Source) : Token :=
  (source.bind (·.typed? Value.toToken? Time.zero)).getD Token.unset

def valueOf (source : Option Source) : Option Value :=
  (source.bind Source.sampled?).map (·.valueAt Time.zero)

def connectionOf (source : Option Source) : Option Connection :=
  (source.bind Source.container?).map fun container => .ofContainer container

def assetName (network : MaterialNetwork) : String :=
  Schema.assetName (Schema.model.ofPrim network.prim)

def configKeys (network : MaterialNetwork) : List Token :=
  Schema.namesOf (part network.base "config")

def configValue (network : MaterialNetwork) (key : Token) : Option Value :=
  (part network.base "config").bind fun config => (config.child key).bind (·.toValue Time.zero)

def nodeNames (network : MaterialNetwork) : List Token :=
  let current := if network.writtenNodes.isEmpty then network.base else network.editor.finish
  Schema.namesOf (part current "nodes")

def nodeType (node : Token) : NetworkM Token := do
  return tokenOf (← readNode node (nodeLocator node ++ ["nodeIdentifier"]) fun base =>
    Schema.node.field? base.node "nodeIdentifier")

/--
The type info of a node without the edits that are collected per node.
-/
def uneditedTypeInfo (node : Token) : NetworkM (Option Container) := do
  let source ← readNode node (typeInfoLocator node) fun base =>
    Schema.node.field? base.node "nodeTypeInfo"
  return source.bind Source.container?

def typeInfo (node : Token) : NetworkM (Option Container) := do
  let network ← get
  if node ∈ network.deletedNodes then return none
  match Dict.get? network.typeInfoEdits node with
  | some editor => return some editor.finish
  | none => uneditedTypeInfo node

def typeInfoKeys (node : Token) : NetworkM (List Token) := do
  return Schema.namesOf (← typeInfo node)

def typeInfoValue (node key : Token) : NetworkM (Option Value) := do
  return (← typeInfo node).bind fun info => (info.child key).bind (·.toValue Time.zero)

def namesIn (node field : Token) (base : BaseNode → Option Container) :
    NetworkM (List Token) := do
  let network ← get
  if node ∈ network.deletedNodes then return []
  if node ∈ network.writtenNodes then
    let edited := Schema.node.field? (network.editedNode node) field
    return Schema.namesOf (edited.bind Source.container?)
  return Schema.namesOf (base (← baseNode node))

def parameterNames (node : Token) : NetworkM (List Token) :=
  namesIn node "parameters" (·.parameters)

def parameterField (node parameter field : Token) : NetworkM (Option Source) :=
  readNode node (parameterLocator node parameter ++ [field]) fun base =>
    (base.parameters.bind (·.container? parameter)).bind (·.child field)

def parameterValue (node parameter : Token) : NetworkM (Option Value) := do
  return valueOf (← parameterField node parameter "value")

def parameter (node parameter : Token) : NetworkM NodeParameter := do
  let value ← parameterValue node parameter
  let colorSpace := tokenOf (← parameterField node parameter "colorSpace")
  let typeName := tokenOf (← parameterField node parameter "typeName")
  return { value, colorSpace, typeName }

def inputNames (node : Token) : NetworkM (List Token) :=
  namesIn node "inputConnections" (·.inputs)

def input (node input : Token) : NetworkM (List Connection) := do
  let source ← readNode node (inputLocator node input) fun base =>
    base.inputs.bind (·.child input)
  let elements := (source.bind Source.vector?).getD []
  return elements.filterMap fun element => connectionOf (some element)

def terminalNames (network : MaterialNetwork) : List Token :=
  let current := if network.terminalsWritten then network.editor.finish else network.base
  Schema.namesOf (part current "terminals")

def terminal (network : MaterialNetwork) (terminal : Token) : Option Connection :=
  connectionOf <| match network.written? (terminalLocator terminal) with
    | some source => source
    | none => (part network.base "terminals").bind (·.child terminal)

def nodeOf? : Locator → Option Token
  | first :: node :: _ => if first = "nodes" then some node else none
  | _ => none

/--
Write a source to a place, or delete what is there. Earlier writes below it no longer count, and
nothing is written to a deleted node.
-/
def write (network : MaterialNetwork) (locator : Locator) (value : Option Source) :
    MaterialNetwork :=
  let node := nodeOf? locator
  if node.any (· ∈ network.deletedNodes) then network
  else
    let kept := network.writes.filter fun entry => !entry.1.isUnder locator
    let network := { network with
      writes := Dict.insert kept locator value
      editor := network.editor.set locator value }
    match node with
    | some node => { network with
        recent := network.recent.filter (·.1 ≠ node)
        writtenNodes := network.writtenNodes.insert node }
    | none => { network with
        terminalsWritten := network.terminalsWritten || locator.head? == some "terminals" }

def deleteNode (network : MaterialNetwork) (node : Token) : MaterialNetwork :=
  if node ∈ network.deletedNodes then network
  else
    let network := network.write (nodeLocator node) none
    { network with
      typeInfoEdits := Dict.erase network.typeInfoEdits node
      deletedNodes := node :: network.deletedNodes }

/--
Set the type of a node. The unset token removes it.
-/
def setNodeType (network : MaterialNetwork) (node type : Token) : MaterialNetwork :=
  network.write (nodeLocator node ++ ["nodeIdentifier"])
    (if type = Token.unset then none else some (.value (.token type)))

def setTypeInfoValue (network : MaterialNetwork) (node key : Token) (value : Value) :
    MaterialNetwork :=
  if node ∈ network.deletedNodes then network
  else
    let (edits, network) := match Dict.get? network.typeInfoEdits node with
      | some edits => (edits, network)
      | none =>
        let (unedited, network) := (uneditedTypeInfo node).run network
        (Editor.new unedited, network)
    let edits := edits.set [key] (some (.value value))
    { network with
      typeInfoEdits := Dict.insert network.typeInfoEdits node edits
      editor := network.editor.set (typeInfoLocator node) (some edits.finish.source)
      writtenNodes := network.writtenNodes.insert node }

def setParameterValue (network : MaterialNetwork) (node parameter : Token) (value : Value) :
    MaterialNetwork :=
  network.write (parameterLocator node parameter ++ ["value"]) (some (.value value))

/--
Set all of a parameter. What is not given is no longer there.
-/
def setParameter (network : MaterialNetwork) (node parameter : Token) (data : NodeParameter) :
    MaterialNetwork :=
  let token (t : Token) : Option Source := if t = Token.unset then none else some (.value (.token t))
  network.write (parameterLocator node parameter) <| some <| Source.ofEntries
    [("value", data.value.map Source.value), ("colorSpace", token data.colorSpace),
      ("typeName", token data.typeName)]

def deleteParameter (network : MaterialNetwork) (node parameter : Token) : MaterialNetwork :=
  network.write (parameterLocator node parameter) none

def setInput (network : MaterialNetwork) (node input : Token) (connections : List Connection) :
    MaterialNetwork :=
  network.write (inputLocator node input) (some (Connection.vector connections))

def deleteInput (network : MaterialNetwork) (node input : Token) : MaterialNetwork :=
  network.write (inputLocator node input) none

def setTerminal (network : MaterialNetwork) (terminal : Token) (connection : Connection) :
    MaterialNetwork :=
  network.write (terminalLocator terminal) (some connection.container.source)

def deleteTerminal (network : MaterialNetwork) (terminal : Token) : MaterialNetwork :=
  network.write (terminalLocator terminal) none

end MaterialNetwork

end SceneTree
