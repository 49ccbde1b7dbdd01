import Mathlib.Data.List.Induction
import SceneTree.Proofs.Material.Consistent

/-!
This module contains what reads of a consistent network answer: what the edited network answers by
itself. Reads of a network with writes are therefore reads of the finished network.
-/

namespace SceneTree

namespace MaterialNetwork

theorem part_eq {network : Container} {name : Token}
    (h : Dict.get? Schema.network.fields name = some .container) :
    part network name = network.container? name := by
  unfold part Schema.field?
  rw [h]
  exact Schema.child?_container_bind (some network) name

theorem ofNetwork_node (network : Container) (name : Token) :
    (BaseNode.ofNetwork network name).node
      =
    (network.at? (nodeLocator name)).bind Source.container? := by
  have hnodes : (Schema.network.field? network "nodes").bind Source.container?
      = network.container? "nodes" := part_eq rfl
  unfold BaseNode.ofNetwork
  dsimp only
  rw [hnodes]
  unfold nodeLocator
  rw [Container.at?_pair, Option.bind_assoc]
  rfl

theorem ofNetwork_parameters (network : Container) (name : Token) :
    (BaseNode.ofNetwork network name).parameters
      =
    (network.at? (nodeLocator name ++ ["parameters"])).bind Source.container? := by
  rw [Container.at?_concat, ← ofNetwork_node]
  exact Schema.child?_container_bind _ _

theorem ofNetwork_inputs (network : Container) (name : Token) :
    (BaseNode.ofNetwork network name).inputs
      =
    (network.at? (nodeLocator name ++ ["inputConnections"])).bind Source.container? := by
  rw [Container.at?_concat, ← ofNetwork_node]
  exact Schema.child?_container_bind _ _

theorem tokenOf_child?_leaf (data : Option Container) (name : Token) :
    tokenOf (Schema.child? .leaf data name) = tokenOf (data.bind (·.child name)) := by
  unfold tokenOf Source.typed?
  rw [← Option.bind_assoc, Schema.child?_leaf_bind, Option.bind_assoc]

section Reads

variable {network : MaterialNetwork} (h : network.Consistent)
include h

theorem Consistent.withRecent {recent : Option (Token × BaseNode)}
    (hrecent : RecentValid { network with recent }) : Consistent { network with recent } :=
  { h with recent := hrecent }

theorem Consistent.at?_eq_none_of_deleted {node : Token} (hdeleted : node ∈ network.deletedNodes)
    (rest : Locator) : network.finish.at? (nodeLocator node ++ rest) = none := by
  rw [h.finish_eq, Container.at?_append, h.deleted node hdeleted]
  rfl

theorem Consistent.at?_eq_of_not_written {node : Token} (hnode : node ∉ network.writtenNodes)
    (rest : Locator) :
    network.finish.at? (nodeLocator node ++ rest)
      =
    network.base.at? (nodeLocator node ++ rest) := by
  rw [h.finish_eq, Container.at?_append, Container.at?_append, h.node node hnode]

-- The network below the writes need only be read there as `f` reads it.
theorem Consistent.sourceIn {β : Type} {node : Token} {place : Locator} (hplace : IsReadPlace place)
    (hunder : place.isUnder (nodeLocator node)) (f : Option Source → β) {base : Option Source}
    (hbase : f base = f (network.base.at? place)) :
    f (network.sourceIn node place base) = f (network.finish.at? place) := by
  unfold MaterialNetwork.sourceIn
  split
  . next hdeleted =>
    obtain ⟨rest, hrest⟩ := Locator.exists_eq_append_of_isUnder hunder
    rw [hrest, h.at?_eq_none_of_deleted hdeleted]
  . rw [h.finish_eq, h.written _ hplace]
    cases network.written? place with
    | none => exact hbase
    | some source => rfl

theorem Consistent.answers_readNode {node : Token} {place : Locator} (hplace : IsReadPlace place)
    (hunder : place.isUnder (nodeLocator node)) {base : BaseNode → Option Source}
    (hbase : base (BaseNode.ofNetwork network.base node) = network.base.at? place) :
    network.Answers (readNode node place base) (network.finish.at? place) := by
  have hsource := h.sourceIn hplace hunder id hbase
  simp only [id] at hsource
  rw [← hsource]
  exact MaterialNetwork.answers_readNode h.recent node place base

theorem Consistent.answers_parameterField (node parameter field : Token) :
    network.Answers (parameterField node parameter field)
      (network.finish.at? (parameterLocator node parameter ++ [field])) := by
  apply h.answers_readNode (.parameterField node parameter field)
  . simp [parameterLocator, nodeLocator]
  . have hparameter : (BaseNode.ofNetwork network.base node).parameters.bind
        (·.container? parameter)
          = (network.base.at? (parameterLocator node parameter)).bind Source.container? := by
      unfold parameterLocator
      rw [show nodeLocator node ++ ["parameters", parameter]
        = (nodeLocator node ++ ["parameters"]) ++ [parameter] by simp]
      rw [Container.at?_concat, ← ofNetwork_parameters, Option.bind_assoc]
      rfl
    rw [Container.at?_concat, ← hparameter]

theorem Consistent.answers_parameterValue (node parameter : Token) :
    network.Answers (parameterValue node parameter)
      (NetworkRead.answerOf network.finish network.prim (.parameterValue node parameter)) :=
  (h.answers_parameterField node parameter "value").map valueOf

theorem Consistent.answers_parameter (node name : Token) :
    network.Answers (parameter node name)
      (NetworkRead.answerOf network.finish network.prim (.parameter node name)) := by
  unfold MaterialNetwork.parameter
  apply (h.answers_parameterValue node name).bind
  intro recent hrecent
  have h := h.withRecent hrecent
  apply (h.answers_parameterField node name "colorSpace").bind
  intro recent hrecent
  have h := h.withRecent hrecent
  apply (h.answers_parameterField node name "typeName").bind
  intro recent hrecent
  exact .pure hrecent _

theorem Consistent.answers_nodeType (node : Token) :
    network.Answers (nodeType node)
      (NetworkRead.answerOf network.finish network.prim (.nodeType node)) := by
  have hbase : tokenOf (Schema.node.field? (BaseNode.ofNetwork network.base node).node
      "nodeIdentifier") = tokenOf (network.base.at? (nodeLocator node ++ ["nodeIdentifier"])) := by
    rw [Container.at?_concat, ← ofNetwork_node]
    exact tokenOf_child?_leaf _ _
  dsimp only [NetworkRead.answerOf]
  rw [← h.sourceIn (.nodeType node) (Locator.append_isUnder _ _) tokenOf hbase]
  exact (MaterialNetwork.answers_readNode h.recent node _ _).map tokenOf

theorem Consistent.answers_input (node name : Token) :
    network.Answers (input node name)
      (NetworkRead.answerOf network.finish network.prim (.input node name)) := by
  have hbase : (BaseNode.ofNetwork network.base node).inputs.bind (·.child name)
      = network.base.at? (inputLocator node name) := by
    unfold inputLocator
    rw [show nodeLocator node ++ ["inputConnections", name]
      = (nodeLocator node ++ ["inputConnections"]) ++ [name] by simp]
    rw [Container.at?_concat, ← ofNetwork_inputs]
  have hunder : (inputLocator node name).isUnder (nodeLocator node) :=
    Locator.append_isUnder _ _
  exact (h.answers_readNode (.input node name) hunder hbase).map NetworkRead.connectionsOf

theorem Consistent.typeInfoBelow_eq {node : Token} (hdeleted : node ∉ network.deletedNodes) :
    network.typeInfoBelow node
      =
    (network.base.at? (typeInfoLocator node)).bind Source.container? := by
  unfold typeInfoBelow MaterialNetwork.sourceIn
  rw [if_neg hdeleted, (h.typeInfo node hdeleted).1, Option.getD_none]
  unfold typeInfoLocator
  rw [Container.at?_concat, ← ofNetwork_node]
  exact Schema.child?_container_bind _ _

theorem Consistent.answers_typeInfo (node : Token) :
    network.Answers (MaterialNetwork.typeInfo node)
      ((network.finish.at? (typeInfoLocator node)).bind Source.container?) := by
  unfold MaterialNetwork.typeInfo
  apply Answers.get_bind
  split
  . next hdeleted =>
    have hnone := h.at?_eq_none_of_deleted hdeleted ["nodeTypeInfo"]
    unfold typeInfoLocator
    rw [hnone]
    exact .pure h.recent _
  . next hdeleted =>
    rw [h.finish_eq, (h.typeInfo node hdeleted).2]
    cases Dict.get? network.typeInfoEdits node with
    | some edits => exact .pure h.recent _
    | none =>
      dsimp only
      rw [← h.typeInfoBelow_eq hdeleted]
      exact answers_uneditedTypeInfo h.recent node

theorem Consistent.answers_namesIn (node field : Token)
    (hfield : Dict.get? Schema.node.fields field = some .container)
    {base : BaseNode → Option Container}
    (hbase : base (BaseNode.ofNetwork network.base node)
      = (network.base.at? (nodeLocator node ++ [field])).bind Source.container?) :
    network.Answers (namesIn node field base)
      (Schema.namesOf
        ((network.finish.at? (nodeLocator node ++ [field])).bind Source.container?)) := by
  unfold namesIn
  apply Answers.get_bind
  split
  . next hdeleted =>
    rw [h.at?_eq_none_of_deleted hdeleted]
    exact .pure h.recent _
  . split
    . have hedited : (Schema.node.field? (network.editedNode node) field).bind Source.container?
          = (network.finish.at? (nodeLocator node ++ [field])).bind Source.container? := by
        unfold Schema.field?
        rw [hfield, h.finish_eq, Container.at?_concat]
        exact Schema.child?_container_bind _ _
      rw [← hedited]
      exact .pure h.recent _
    . next hwritten =>
      rw [h.at?_eq_of_not_written hwritten, ← hbase]
      exact (answers_baseNode h.recent node).map fun node => Schema.namesOf (base node)

theorem Consistent.container?_config :
    network.finish.container? "config" = network.base.container? "config" := by
  rw [Container.container?_eq_at?, Container.container?_eq_at?, h.finish_eq, h.config]

theorem Consistent.configKeys_eq :
    network.configKeys = Schema.namesOf (network.finish.container? "config") := by
  unfold configKeys
  rw [part_eq rfl, h.container?_config]

theorem Consistent.configValue_eq (key : Token) :
    network.configValue key
      =
    (network.finish.at? ["config", key]).bind (·.toValue Time.zero) := by
  unfold configValue
  rw [part_eq rfl, Container.at?_pair, h.container?_config, Option.bind_assoc]

theorem Consistent.nodeNames_eq :
    network.nodeNames = Schema.namesOf (network.finish.container? "nodes") := by
  unfold nodeNames
  dsimp only
  rw [part_eq rfl, h.finish_eq]
  split
  . next hempty =>
    rw [Container.container?_eq_at?, Container.container?_eq_at?]
    rw [h.nodes (List.isEmpty_iff.1 hempty)]
  . rfl

theorem Consistent.terminalNames_eq :
    network.terminalNames = Schema.namesOf (network.finish.container? "terminals") := by
  unfold terminalNames
  dsimp only
  rw [part_eq rfl, h.finish_eq]
  split
  . rfl
  . next hterminals =>
    rw [Container.container?_eq_at?, Container.container?_eq_at?]
    rw [h.terminals (Bool.eq_false_iff.2 hterminals)]

theorem Consistent.terminal_eq (name : Token) :
    network.terminal name = connectionOf (network.finish.at? (terminalLocator name)) := by
  unfold MaterialNetwork.terminal
  rw [h.finish_eq, h.written _ (.terminal name)]
  cases network.written? (terminalLocator name) with
  | some source => rfl
  | none =>
    rw [part_eq rfl, Option.getD_none]
    unfold terminalLocator
    rw [Container.at?_pair]

theorem Consistent.answers {α : Type} (read : NetworkRead α) :
    network.Answers read.ask (read.answerOf network.finish network.prim) := by
  have hpure : ∀ {β : Type} {f : MaterialNetwork → β} {b : β}, f network = b →
      network.Answers (do return f (← get)) b := by
    intro β f b heq
    subst heq
    exact .get_bind (.pure h.recent (f network))
  cases read with
  | assetName => exact hpure rfl
  | configKeys => exact hpure h.configKeys_eq
  | configValue key => exact hpure (h.configValue_eq key)
  | nodeNames => exact hpure h.nodeNames_eq
  | nodeType node => exact h.answers_nodeType node
  | typeInfoKeys node => exact (h.answers_typeInfo node).map Schema.namesOf
  | typeInfoValue node key =>
    dsimp only [NetworkRead.answerOf]
    rw [Container.at?_concat, Option.bind_assoc]
    exact (h.answers_typeInfo node).map fun info =>
      info.bind fun info => (info.child key).bind (·.toValue Time.zero)
  | parameterNames node =>
    exact h.answers_namesIn node "parameters" rfl (ofNetwork_parameters network.base node)
  | parameterValue node name => exact h.answers_parameterValue node name
  | parameter node name => exact h.answers_parameter node name
  | inputNames node =>
    exact h.answers_namesIn node "inputConnections" rfl (ofNetwork_inputs network.base node)
  | input node name => exact h.answers_input node name
  | terminalNames => exact hpure h.terminalNames_eq
  | terminal name => exact hpure (h.terminal_eq name)

theorem Consistent.answer_eq {α : Type} (read : NetworkRead α) :
    network.answer read = read.answerOf network.finish network.prim :=
  (h.answers read).answer_eq

end Reads

theorem Consistent.perform_read_eq {α : Type} {network : MaterialNetwork} (h : network.Consistent)
    (read : NetworkRead α) :
    ∃ recent, network.perform (.read read) = { network with recent } ∧
      RecentValid { network with recent } := by
  obtain ⟨recent, hrun, hrecent⟩ := h.answers read
  exact ⟨recent, congrArg Prod.snd hrun, hrecent⟩

theorem Consistent.perform {network : MaterialNetwork} (h : network.Consistent)
    (call : NetworkCall) : (network.perform call).Consistent := by
  cases call with
  | read read =>
    obtain ⟨recent, heq, hrecent⟩ := h.perform_read_eq read
    rw [heq]
    exact h.withRecent hrecent
  | write write => exact h.performWrite write

theorem Consistent.perform_prim {network : MaterialNetwork} (h : network.Consistent)
    (call : NetworkCall) : (network.perform call).prim = network.prim := by
  cases call with
  | read read =>
    obtain ⟨recent, heq, _⟩ := h.perform_read_eq read
    rw [heq]
  | write write =>
    unfold MaterialNetwork.perform
    dsimp only
    cases hdeleted : network.isDeleted write.place with
    | true => rw [performWrite_of_isDeleted hdeleted]
    | false => exact (performWrite_wrote h.recent hdeleted).prim

theorem run_concat (network : MaterialNetwork) (calls : List NetworkCall) (call : NetworkCall) :
    network.run (calls ++ [call]) = (network.run calls).perform call := by
  simp [run]

theorem Consistent.run {network : MaterialNetwork} (h : network.Consistent)
    (calls : List NetworkCall) :
    (network.run calls).Consistent ∧ (network.run calls).prim = network.prim := by
  induction calls using List.reverseRecOn with
  | nil => exact ⟨h, rfl⟩
  | append_singleton calls call ih =>
    rw [run_concat]
    exact ⟨ih.1.perform call, (ih.1.perform_prim call).trans ih.2⟩

-- The network that the writes so far make is opened again and answers the same.
theorem answer_run_eq_answer_new_finish {α : Type} (path : Path) (base : Container)
    (prim : Option Container) (calls : List NetworkCall) (read : NetworkRead α) :
    ((new path base prim).run calls).answer read
      =
    (new path ((new path base prim).run calls).finish prim).answer read := by
  obtain ⟨hconsistent, hprim⟩ := (new_consistent path base prim).run calls
  rw [hconsistent.answer_eq, (new_consistent path _ prim).answer_eq, hprim]
  rfl

end MaterialNetwork

end SceneTree
