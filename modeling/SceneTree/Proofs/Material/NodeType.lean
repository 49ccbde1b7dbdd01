import SceneTree.Proofs.Material.NodeNames

/-!
This module contains what changes when a type is set for a node that is listed and has none: that
type, and no other value that is read. The listings stay as they are, even if the type is the unset
one and the network records the deletion of a type that was not there.
-/

namespace SceneTree

def NetworkRead.listsNodes {α : Type} : NetworkRead α → Bool
  | nodeNames => true
  | _ => false

namespace NetworkWrite

theorem holds_type_eq (writes : List NetworkWrite) (node : Token) :
    holds writes node .type
      =
    ((latest? (·.nodeType? node) writes).map fun type => !decide (type = Token.unset)).getD
      false := by
  have hleaves : ∀ write : NetworkWrite,
      (if write.nodePart? = some (node, .type) then some !write.isDeletion else none)
        =
      (write.nodeType? node).map fun type => !decide (type = Token.unset) := by
    intro write
    cases write with
    | setNodeType other type =>
      by_cases hother : other = node
      . simp [nodePart?, nodeType?, isDeletion, hother]
      . simp [nodePart?, nodeType?, hother]
    | _ => simp [nodePart?, nodeType?]
  unfold holds latest?
  rw [List.map_findSome?]
  congr 2
  funext write
  exact hleaves write

section Untyped

variable {writes : List NetworkWrite} {node : Token}

theorem isLive_concat_setNodeType_of_ne (writes : List NetworkWrite) (type : Token) {other : Token}
    (hother : other ≠ node) :
    isLive (writes ++ [.setNodeType node type]) other ↔ isLive writes other := by
  rw [isLive_iff, isLive_iff]
  simp only [holds_concat, nodePart?, Option.some.injEq, Prod.mk.injEq, Ne.symm hother, false_and,
    if_false]

-- A node without a type that is there is there for another part of it.
theorem isLive_concat_setNodeType (huntyped : holds writes node .type = false) (type : Token)
    (hlive : isLive writes node) : isLive (writes ++ [.setNodeType node type]) node := by
  rw [isLive_iff] at *
  obtain ⟨part, hholds⟩ := hlive
  refine ⟨part, ?_⟩
  rw [holds_concat, if_neg]
  . exact hholds
  . intro hpart
    cases hpart
    rw [huntyped] at hholds
    cases hholds

theorem isLive_concat_setNodeType_iff (huntyped : holds writes node .type = false) (type : Token)
    {nodes : List Token} (hlisted : node ∈ nodes ∨ isLive writes node) {other : Token}
    (hother : other ∉ nodes) :
    isLive (writes ++ [.setNodeType node type]) other ↔ isLive writes other := by
  by_cases heq : other = node
  . subst heq
    have hlive := hlisted.resolve_left hother
    exact iff_of_true (isLive_concat_setNodeType huntyped type hlive) hlive
  . exact isLive_concat_setNodeType_of_ne writes type heq

end Untyped

end NetworkWrite

namespace MaterialNetwork

open NetworkWrite

theorem mem_nodesAfter_iff (writes : List NetworkWrite) (nodes : List Token) (node : Token) :
    node ∈ nodesAfter writes nodes
      ↔
    .deleteNode node ∉ writes ∧
      (node ∈ nodes ∨ node ∈ firstWritten writes ∧ isLive writes node) := by
  unfold nodesAfter
  simp only [List.mem_append, List.mem_filter, decide_eq_true_iff, mem_filterMap_deletedNode?]
  by_cases hnode : node ∈ nodes
  . simp [hnode]
  . simp only [hnode, false_and, false_or, not_false_iff, true_and]
    tauto

theorem nodesAfter_concat_setNodeType {writes : List NetworkWrite} {nodes : List Token}
    {node : Token} (hlisted : node ∈ nodesAfter writes nodes)
    (huntyped : holds writes node .type = false) (type : Token) :
    nodesAfter (writes ++ [.setNodeType node type]) nodes = nodesAfter writes nodes := by
  rw [mem_nodesAfter_iff] at hlisted
  have hdeleted : (writes ++ [NetworkWrite.setNodeType node type]).filterMap deletedNode?
      = writes.filterMap deletedNode? := by
    rw [List.filterMap_append]
    exact List.append_nil _
  have hsome := hlisted.2.imp_right And.right
  have hadded : (fun other => decide (other ∉ nodes ∧ other ∉ writes.filterMap deletedNode? ∧
        isLive (writes ++ [.setNodeType node type]) other))
      = fun other => decide (other ∉ nodes ∧ other ∉ writes.filterMap deletedNode? ∧
        isLive writes other) := by
    funext other
    rw [decide_eq_decide]
    exact and_congr_right fun hother =>
      and_congr_right' (isLive_concat_setNodeType_iff huntyped type hsome hother)
  unfold nodesAfter
  dsimp only
  rw [hdeleted, hadded, firstWritten_concat]
  change _ ++ (if node ∈ firstWritten writes then firstWritten writes
    else firstWritten writes ++ [node]).filter _ = _
  split
  . rfl
  . next hwritten =>
    have hnode := hlisted.2.resolve_right fun hlater => hwritten hlater.1
    rw [List.filter_append, List.filter_cons_of_neg (by simp [hnode]), List.filter_nil,
      List.append_nil]

section Write

variable {network : MaterialNetwork} (h : network.Consistent) (node type : Token)
include h

theorem Consistent.answer_setNodeType {α : Type} {read : NetworkRead α}
    (hread : ∀ other, read.subject? ≠ some (.nodeType other)) (hnodes : read.listsNodes = false) :
    (network.performWrite (.setNodeType node type)).answer read = network.answer read := by
  have hafter := h.performWrite (.setNodeType node type)
  cases hsubject : read.subject? with
  | some subject =>
    apply h.answer_performWrite_of_not_concerns hsubject
    rintro (hsame | ⟨_, _, hdelete⟩)
    . exact hread node (hsubject.trans hsame.symm)
    . cases hdelete
  | none =>
    have hprim := h.perform_prim (.write (.setNodeType node type))
    have hat : ∀ place : Locator, ¬ place.isRelatedTo (nodeLocator node ++ ["nodeIdentifier"]) →
        (network.performWrite (.setNodeType node type)).finish.at? place
          = network.finish.at? place :=
      fun place => h.performWrite_at?_of_not_isRelatedTo (.setNodeType node type)
    rw [hafter.answer_eq, h.answer_eq]
    cases read with
    | assetName => exact congrArg (fun prim => Schema.assetName (Schema.model.ofPrim prim)) hprim
    | nodeNames => cases hnodes
    | configKeys | terminalNames =>
      dsimp only [NetworkRead.answerOf]
      rw [Container.container?_eq_at?, Container.container?_eq_at?, hat]
      simp [Locator.isRelatedTo_iff, nodeLocator]
    | configValue | typeInfoKeys | parameterNames | inputNames =>
      dsimp only [NetworkRead.answerOf]
      rw [hat]
      simp [Locator.isRelatedTo_iff, nodeLocator, typeInfoLocator]
    | _ => cases hsubject

theorem Consistent.answer_nodeType_setNodeType (hlive : node ∉ network.deletedNodes)
    (other : Token) :
    (network.performWrite (.setNodeType node type)).answer (.nodeType other)
      =
    if other = node then type else network.answer (.nodeType other) := by
  by_cases hother : other = node
  . subst hother
    have hkept : other ∉ (network.performWrite (.setNodeType other type)).deletedNodes := by
      rw [mem_performWrite_deletedNodes h.recent, not_or]
      exact ⟨by simp, hlive⟩
    rw [(h.performWrite _).answer_eq]
    dsimp only [NetworkRead.answerOf]
    rw [h.nodeType_performWrite _ hkept]
    simp [nodeType?]
  . rw [if_neg hother]
    apply h.answer_performWrite_of_not_concerns rfl
    simp [Concerns, subject?, Ne.symm hother]

end Write

section Names

variable {network : MaterialNetwork} {writes : List NetworkWrite} (h : network.Records writes)
variable (hconsistent : network.Consistent)
include h hconsistent

-- The network below the writes may list a node twice.
theorem Records.mem_nodeNames_iff (node : Token) :
    node ∈ network.answer .nodeNames
      ↔
    .deleteNode node ∉ writes ∧
      (node ∈ Schema.namesOf (network.base.container? "nodes") ∨ isLive writes node) := by
  have hformed := hconsistent.editor.wellFormed
  rw [hconsistent.answer_eq]
  dsimp only [NetworkRead.answerOf]
  rw [Container.container?_eq_at?, hconsistent.finish_at?_cons,
    hformed.mem_names_at?_iff h.distinct (fun _ => h.editAt_of_isUnder_nodes) rfl]
  have hplace : ["nodes"] ++ [node] = nodeLocator node := rfl
  rw [hplace]
  by_cases hnode : .deleteNode node ∈ writes
  . have hdelete := h.deleted node hnode
    have hnot := hformed.not_createsAt_of_delete h.distinct hdelete
    simp [hnode, hdelete, hnot]
  . rw [h.createsAt_node_iff hnode, h.editAt_node hnode, Container.container?_eq_at?,
      and_iff_right hnode, and_iff_right (by simp), or_comm]
    rfl

theorem Records.nodeNames_eq
    (hbase : (Schema.namesOf (network.base.container? "nodes")).Nodup) :
    network.answer .nodeNames
      =
    nodesAfter writes (Schema.namesOf (network.base.container? "nodes")) := by
  rw [hconsistent.answer_eq]
  exact h.namesOf_nodes hconsistent rfl hbase

variable {node : Token} (hlisted : node ∈ network.answer .nodeNames)
variable (huntyped : holds writes node .type = false) (type : Token)
include hlisted huntyped

theorem Records.mem_nodeNames_setNodeType_iff (other : Token) :
    other ∈ (network.performWrite (.setNodeType node type)).answer .nodeNames
      ↔
    other ∈ network.answer .nodeNames := by
  have hafter := h.performWrite hconsistent.recent (.setNodeType node type)
  have hdelete : .deleteNode other ∉ writes ++ [.setNodeType node type]
      ↔ .deleteNode other ∉ writes := by
    simp
  rw [hafter.mem_nodeNames_iff (hconsistent.performWrite _), h.mem_nodeNames_iff hconsistent,
    performWrite_base hconsistent.recent, hdelete]
  have hsome := ((h.mem_nodeNames_iff hconsistent node).1 hlisted).2
  exact and_congr_right' (or_congr_right' (isLive_concat_setNodeType_iff huntyped type hsome))

theorem Records.nodeNames_setNodeType
    (hbase : (Schema.namesOf (network.base.container? "nodes")).Nodup) :
    (network.performWrite (.setNodeType node type)).answer .nodeNames
      =
    network.answer .nodeNames := by
  have hafter := h.performWrite hconsistent.recent (.setNodeType node type)
  have hbelow := performWrite_base hconsistent.recent (.setNodeType node type)
  rw [h.nodeNames_eq hconsistent hbase] at *
  rw [hafter.nodeNames_eq (hconsistent.performWrite _) (hbelow ▸ hbase), hbelow]
  exact nodesAfter_concat_setNodeType hlisted huntyped type

end Names

theorem run_append (network : MaterialNetwork) (calls more : List NetworkCall) :
    network.run (calls ++ more) = (network.run calls).run more :=
  List.foldl_append

theorem writesOf_append (calls more : List NetworkCall) :
    writesOf (calls ++ more) = writesOf calls ++ writesOf more :=
  List.filterMap_append

def Reached (network : MaterialNetwork) : Prop :=
  ∃ path base prim calls, network = (new path base prim).run calls

section Reached

variable {network : MaterialNetwork} (h : network.Reached)
include h

theorem Reached.consistent : network.Consistent := by
  obtain ⟨path, base, prim, calls, rfl⟩ := h
  exact ((new_consistent path base prim).run calls).1

theorem Reached.run (calls : List NetworkCall) : (network.run calls).Reached := by
  obtain ⟨path, base, prim, before, rfl⟩ := h
  exact ⟨path, base, prim, before ++ calls, (run_append _ _ _).symm⟩

theorem Reached.performWrite (write : NetworkWrite) : (network.performWrite write).Reached :=
  h.run [.write write]

theorem Reached.records : ∃ writes, network.Records writes ∧
    ∀ node, node ∉ network.deletedNodes → network.answer (.nodeType node) = Token.unset →
      holds writes node .type = false := by
  obtain ⟨path, base, prim, calls, rfl⟩ := h
  have hnew := new_consistent path base prim
  refine ⟨writesOf calls, (new_records path base prim).run hnew calls, ?_⟩
  intro node hlive huntyped
  have hfollows := (hnew.follows hlive).nodeType
  rw [huntyped] at hfollows
  rw [holds_type_eq]
  cases hlast : latest? (·.nodeType? node) (writesOf calls) with
  | none => rfl
  | some type =>
    rw [hlast, Option.getD_some] at hfollows
    simp [← hfollows]

variable {node : Token} (hlisted : node ∈ network.answer .nodeNames)
include hlisted

theorem Reached.not_mem_deletedNodes : node ∉ network.deletedNodes := by
  obtain ⟨writes, hrecords, _⟩ := h.records
  rw [hrecords.deletedNodes]
  exact ((hrecords.mem_nodeNames_iff h.consistent node).1 hlisted).1

variable (huntyped : network.answer (.nodeType node) = Token.unset) (type : Token)
include huntyped

theorem Reached.mem_nodeNames_setNodeType_iff (other : Token) :
    other ∈ (network.performWrite (.setNodeType node type)).answer .nodeNames
      ↔
    other ∈ network.answer .nodeNames := by
  obtain ⟨writes, hrecords, hholds⟩ := h.records
  have hnode := hholds node (h.not_mem_deletedNodes hlisted) huntyped
  exact hrecords.mem_nodeNames_setNodeType_iff h.consistent hlisted hnode type other

theorem Reached.nodeNames_setNodeType
    (hbase : (Schema.namesOf (network.base.container? "nodes")).Nodup) :
    (network.performWrite (.setNodeType node type)).answer .nodeNames
      =
    network.answer .nodeNames := by
  obtain ⟨writes, hrecords, hholds⟩ := h.records
  have hnode := hholds node (h.not_mem_deletedNodes hlisted) huntyped
  exact hrecords.nodeNames_setNodeType h.consistent hlisted hnode type hbase

end Reached

end MaterialNetwork

end SceneTree
