import SceneTree.Material.Network

/-!
This module contains the calls that can be made to a material network: reads, with what they answer
for a network that holds no writes, and writes.
-/

namespace SceneTree

inductive NetworkRead : Type → Type where
  | assetName : NetworkRead String
  | configKeys : NetworkRead (List Token)
  | configValue (key : Token) : NetworkRead (Option Value)
  | nodeNames : NetworkRead (List Token)
  | nodeType (node : Token) : NetworkRead Token
  | typeInfoKeys (node : Token) : NetworkRead (List Token)
  | typeInfoValue (node key : Token) : NetworkRead (Option Value)
  | parameterNames (node : Token) : NetworkRead (List Token)
  | parameterValue (node parameter : Token) : NetworkRead (Option Value)
  | parameter (node parameter : Token) : NetworkRead NodeParameter
  | inputNames (node : Token) : NetworkRead (List Token)
  | input (node input : Token) : NetworkRead (List Connection)
  | terminalNames : NetworkRead (List Token)
  | terminal (terminal : Token) : NetworkRead (Option Connection)

inductive NetworkWrite where
  | deleteNode (node : Token)
  | setNodeType (node type : Token)
  | setTypeInfoValue (node key : Token) (value : Value)
  | setParameterValue (node parameter : Token) (value : Value)
  | setParameter (node parameter : Token) (data : NodeParameter)
  | deleteParameter (node parameter : Token)
  | setInput (node input : Token) (connections : List Connection)
  | deleteInput (node input : Token)
  | setTerminal (terminal : Token) (connection : Connection)
  | deleteTerminal (terminal : Token)

inductive NetworkCall where
  | read {α : Type} (read : NetworkRead α)
  | write (write : NetworkWrite)

namespace NetworkRead

open MaterialNetwork

def ask {α : Type} : NetworkRead α → NetworkM α
  | assetName => return (← get).assetName
  | configKeys => return (← get).configKeys
  | configValue key => return (← get).configValue key
  | nodeNames => return (← get).nodeNames
  | nodeType node => MaterialNetwork.nodeType node
  | typeInfoKeys node => MaterialNetwork.typeInfoKeys node
  | typeInfoValue node key => MaterialNetwork.typeInfoValue node key
  | parameterNames node => MaterialNetwork.parameterNames node
  | parameterValue node name => MaterialNetwork.parameterValue node name
  | parameter node name => MaterialNetwork.parameter node name
  | inputNames node => MaterialNetwork.inputNames node
  | input node name => MaterialNetwork.input node name
  | terminalNames => return (← get).terminalNames
  | terminal name => return (← get).terminal name

def connectionsOf (source : Option Source) : List Connection :=
  ((source.bind Source.vector?).getD []).filterMap fun element => connectionOf (some element)

/--
The answer that the container of a network gives by itself.
-/
def answerOf {α : Type} (network : Container) (prim : Option Container) : NetworkRead α → α
  | assetName => Schema.assetName (Schema.model.ofPrim prim)
  | configKeys => Schema.namesOf (network.container? "config")
  | configValue key => (network.at? ["config", key]).bind (·.toValue Time.zero)
  | nodeNames => Schema.namesOf (network.container? "nodes")
  | nodeType node => tokenOf (network.at? (nodeLocator node ++ ["nodeIdentifier"]))
  | typeInfoKeys node =>
    Schema.namesOf ((network.at? (typeInfoLocator node)).bind Source.container?)
  | typeInfoValue node key =>
    (network.at? (typeInfoLocator node ++ [key])).bind (·.toValue Time.zero)
  | parameterNames node =>
    Schema.namesOf ((network.at? (nodeLocator node ++ ["parameters"])).bind Source.container?)
  | parameterValue node name => valueOf (network.at? (parameterLocator node name ++ ["value"]))
  | parameter node name => {
    value := valueOf (network.at? (parameterLocator node name ++ ["value"]))
    colorSpace := tokenOf (network.at? (parameterLocator node name ++ ["colorSpace"]))
    typeName := tokenOf (network.at? (parameterLocator node name ++ ["typeName"])) }
  | inputNames node =>
    Schema.namesOf ((network.at? (nodeLocator node ++ ["inputConnections"])).bind Source.container?)
  | input node name => connectionsOf (network.at? (inputLocator node name))
  | terminalNames => Schema.namesOf (network.container? "terminals")
  | terminal name => connectionOf (network.at? (terminalLocator name))

end NetworkRead

namespace MaterialNetwork

def answer {α : Type} (network : MaterialNetwork) (read : NetworkRead α) : α :=
  (read.ask.run network).1

def performWrite (network : MaterialNetwork) : NetworkWrite → MaterialNetwork
  | .deleteNode node => network.deleteNode node
  | .setNodeType node type => network.setNodeType node type
  | .setTypeInfoValue node key value => network.setTypeInfoValue node key value
  | .setParameterValue node parameter value => network.setParameterValue node parameter value
  | .setParameter node parameter data => network.setParameter node parameter data
  | .deleteParameter node parameter => network.deleteParameter node parameter
  | .setInput node input connections => network.setInput node input connections
  | .deleteInput node input => network.deleteInput node input
  | .setTerminal terminal connection => network.setTerminal terminal connection
  | .deleteTerminal terminal => network.deleteTerminal terminal

def perform (network : MaterialNetwork) : NetworkCall → MaterialNetwork
  | .read read => (read.ask.run network).2
  | .write write => network.performWrite write

def run (network : MaterialNetwork) (calls : List NetworkCall) : MaterialNetwork :=
  calls.foldl perform network

def RecentValid (network : MaterialNetwork) : Prop :=
  ∀ name node, network.recent = some (name, node) → node = BaseNode.ofNetwork network.base name

/--
What a computation answers, where it changes nothing but the node that was read last.
-/
def Answers {α : Type} (network : MaterialNetwork) (m : NetworkM α) (a : α) : Prop :=
  ∃ recent, m.run network = (a, { network with recent }) ∧ RecentValid { network with recent }

theorem Answers.pure {α : Type} {network : MaterialNetwork} (h : network.RecentValid) (a : α) :
    network.Answers (Pure.pure a) a :=
  ⟨network.recent, rfl, h⟩

theorem Answers.bind {α β : Type} {network : MaterialNetwork} {m : NetworkM α} {a : α}
    {f : α → NetworkM β} {b : β} (hm : network.Answers m a)
    (hf : ∀ recent, RecentValid { network with recent } →
      Answers { network with recent } (f a) b) : network.Answers (m >>= f) b := by
  obtain ⟨between, hrun, hvalid⟩ := hm
  obtain ⟨recent, hrest, hvalid⟩ := hf between hvalid
  refine ⟨recent, ?_, hvalid⟩
  rw [StateT.run_bind, hrun]
  exact hrest

theorem Answers.get_bind {α : Type} {network : MaterialNetwork} {f : MaterialNetwork → NetworkM α}
    {a : α} (h : network.Answers (f network) a) : network.Answers (get >>= f) a := h

theorem Answers.map {α β : Type} {network : MaterialNetwork} {m : NetworkM α} {a : α}
    (hm : network.Answers m a) (f : α → β) :
    network.Answers (do return f (← m)) (f a) :=
  hm.bind fun _ hvalid => .pure hvalid (f a)

theorem Answers.answer_eq {α : Type} {network : MaterialNetwork} {m : NetworkM α} {a : α}
    (h : network.Answers m a) : (m.run network).1 = a := by
  obtain ⟨_, hrun, _⟩ := h
  rw [hrun]

theorem baseNode_run (network : MaterialNetwork) (name : Token) :
    (baseNode name).run network
      =
    match network.recent with
    | some (last, node) =>
      if last = name then (node, network)
      else
        let node := BaseNode.ofNetwork network.base name
        (node, { network with recent := some (name, node) })
    | none =>
      let node := BaseNode.ofNetwork network.base name
      (node, { network with recent := some (name, node) }) := by
  unfold baseNode
  rw [StateT.run_bind]
  simp only [StateT.run_get, pure_bind]
  cases network.recent with
  | none => rfl
  | some recent =>
    dsimp only
    split
    . rfl
    . rfl

theorem answers_baseNode {network : MaterialNetwork} (h : network.RecentValid) (name : Token) :
    network.Answers (baseNode name) (BaseNode.ofNetwork network.base name) := by
  have hfound : RecentValid { network with
      recent := some (name, BaseNode.ofNetwork network.base name) } := by
    intro other node heq
    simp only [Option.some.injEq, Prod.mk.injEq] at heq
    rw [← heq.1, ← heq.2]
  unfold Answers
  rw [baseNode_run]
  cases hrecent : network.recent with
  | none => exact ⟨_, rfl, hfound⟩
  | some recent =>
    dsimp only
    split
    . next hlast =>
      rw [← hlast, ← h _ _ hrecent]
      exact ⟨_, rfl, h⟩
    . exact ⟨_, rfl, hfound⟩

def sourceIn (network : MaterialNetwork) (name : Token) (locator : Locator)
    (base : Option Source) : Option Source :=
  if name ∈ network.deletedNodes then none else (network.written? locator).getD base

theorem answers_readNode {network : MaterialNetwork} (h : network.RecentValid) (name : Token)
    (locator : Locator) (base : BaseNode → Option Source) :
    network.Answers (readNode name locator base)
      (network.sourceIn name locator (base (BaseNode.ofNetwork network.base name))) := by
  unfold readNode sourceIn Answers
  rw [StateT.run_bind]
  simp only [StateT.run_get, pure_bind]
  split
  . exact ⟨_, rfl, h⟩
  . cases network.written? locator with
    | some source => exact ⟨_, rfl, h⟩
    | none => exact (answers_baseNode h name).map base

end MaterialNetwork

end SceneTree
