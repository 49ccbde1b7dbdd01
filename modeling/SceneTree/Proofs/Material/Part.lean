import SceneTree.Proofs.Edit.Listing
import SceneTree.Proofs.Material.LastWrite

/-!
This module contains the parts of the nodes of a network, as far as they are written by themselves,
and what writes record of them: the edits of a network say which nodes were deleted, in which order
nodes were first written to, and in which parts of a node the last write left something.
-/

namespace SceneTree

open MaterialNetwork

inductive NodePart where
  | type
  | typeInfo
  | parameter (name : Token)
  | input (name : Token)
deriving DecidableEq

def NodePart.place (node : Token) : NodePart → Locator
  | type => nodeLocator node ++ ["nodeIdentifier"]
  | typeInfo => typeInfoLocator node
  | parameter name => parameterLocator node name
  | input name => inputLocator node name

theorem NodePart.exists_place_eq_append (node : Token) (part : NodePart) :
    ∃ rest, part.place node = nodeLocator node ++ rest := by
  cases part <;> exact ⟨_, rfl⟩

namespace NetworkWrite

def node? (write : NetworkWrite) : Option Token :=
  nodeOf? write.place

def deletedNode? : NetworkWrite → Option Token
  | deleteNode node => some node
  | _ => none

def nodePart? : NetworkWrite → Option (Token × NodePart)
  | setNodeType node _ => some (node, .type)
  | setTypeInfoValue node _ _ => some (node, .typeInfo)
  | setParameterValue node name _ => some (node, .parameter name)
  | setParameter node name _ => some (node, .parameter name)
  | deleteParameter node name => some (node, .parameter name)
  | setInput node name _ => some (node, .input name)
  | deleteInput node name => some (node, .input name)
  | _ => none

/--
Whether a write leaves nothing of what it is to. To set the unset type is to delete the type.
-/
def isDeletion : NetworkWrite → Bool
  | setNodeType _ type => type = Token.unset
  | deleteNode _ => true
  | deleteParameter _ _ => true
  | deleteInput _ _ => true
  | deleteTerminal _ => true
  | _ => false

def firstWritten (writes : List NetworkWrite) : List Token :=
  (writes.filterMap node?).eraseDups

def holds (writes : List NetworkWrite) (node : Token) (part : NodePart) : Bool :=
  (latest? (fun write =>
    if write.nodePart? = some (node, part) then some !write.isDeletion else none) writes).getD false

def isLive (writes : List NetworkWrite) (node : Token) : Bool :=
  (writes.filterMap nodePart?).any fun (owner, part) => owner = node && holds writes node part

theorem mem_filterMap_deletedNode? (writes : List NetworkWrite) (node : Token) :
    node ∈ writes.filterMap deletedNode? ↔ .deleteNode node ∈ writes := by
  rw [List.mem_filterMap]
  constructor
  . rintro ⟨write, hwrite, hnode⟩
    cases write with
    | deleteNode other =>
      cases hnode
      exact hwrite
    | _ => cases hnode
  . intro hwrite
    exact ⟨_, hwrite, rfl⟩

theorem firstWritten_concat (writes : List NetworkWrite) (write : NetworkWrite) :
    firstWritten (writes ++ [write])
      =
    match write.node? with
    | some node =>
      if node ∈ firstWritten writes then firstWritten writes else firstWritten writes ++ [node]
    | none => firstWritten writes := by
  unfold firstWritten
  rw [List.filterMap_append, List.filterMap_cons, List.filterMap_nil]
  cases write.node? with
  | none => rw [List.append_nil]
  | some node => exact EditTree.eraseDups_concat _ _

theorem holds_concat (writes : List NetworkWrite) (write : NetworkWrite) (node : Token)
    (part : NodePart) :
    holds (writes ++ [write]) node part
      =
    if write.nodePart? = some (node, part) then !write.isDeletion else holds writes node part := by
  unfold holds
  rw [latest?_concat]
  split <;> rfl

theorem isLive_iff (writes : List NetworkWrite) (node : Token) :
    isLive writes node ↔ ∃ part, holds writes node part := by
  unfold isLive
  rw [List.any_eq_true]
  constructor
  . rintro ⟨⟨owner, part⟩, _, hholds⟩
    rw [Bool.and_eq_true] at hholds
    exact ⟨part, hholds.2⟩
  . rintro ⟨part, hholds⟩
    have hlast := hholds
    unfold holds latest? at hlast
    obtain ⟨left, hleft⟩ : ∃ left, writes.reverse.findSome? (fun write =>
        if write.nodePart? = some (node, part) then some !write.isDeletion else none)
          = some left := by
      rw [← Option.isSome_iff_exists]
      by_contra hnone
      rw [Option.not_isSome_iff_eq_none] at hnone
      rw [hnone] at hlast
      cases hlast
    obtain ⟨write, hwrite, hpart⟩ := List.exists_of_findSome?_eq_some hleft
    refine ⟨(node, part), List.mem_filterMap.2 ⟨write, List.mem_reverse.1 hwrite, ?_⟩, ?_⟩
    . by_contra hne
      rw [if_neg hne] at hpart
      cases hpart
    . simpa using hholds

section Write

variable {write : NetworkWrite} {node : Token} {part : NodePart}

theorem node?_of_nodePart? (h : write.nodePart? = some (node, part)) : write.node? = some node := by
  cases write with
  | deleteNode | setTerminal | deleteTerminal => cases h
  | _ =>
    cases h
    rfl

theorem exists_nodePart?_of_node? (h : write.node? = some node)
    (hdelete : write ≠ .deleteNode node) : ∃ part, write.nodePart? = some (node, part) := by
  cases write with
  | deleteNode other =>
    cases h
    exact absurd rfl hdelete
  | setTerminal | deleteTerminal => cases h
  | _ =>
    cases h
    exact ⟨_, rfl⟩

theorem place_of_nodePart? (h : write.nodePart? = some (node, part)) :
    ∃ rest, write.place = part.place node ++ rest ∧ (rest = [] ∨ write.isDeletion = false) := by
  cases write with
  | deleteNode | setTerminal | deleteTerminal => cases h
  | setParameterValue other name value =>
    cases h
    exact ⟨["value"], rfl, .inr rfl⟩
  | _ =>
    cases h
    exact ⟨[], (List.append_nil _).symm, .inl rfl⟩

theorem not_isRelatedTo_of_nodePart?_ne (hpart : write.nodePart? ≠ some (node, part))
    (hdelete : write ≠ .deleteNode node) : ¬ (part.place node).isRelatedTo write.place := by
  rw [Locator.isRelatedTo_iff]
  cases write <;> cases part <;>
    simp_all [nodePart?, NetworkWrite.place, NodePart.place, nodeLocator, typeInfoLocator,
      parameterLocator, inputLocator, terminalLocator]
  all_goals grind

theorem isReplace_write_source (write : NetworkWrite) (network : MaterialNetwork) :
    (Edit.write (write.source network)).isReplace = !write.isDeletion := by
  cases write with
  | setNodeType other type =>
    dsimp only [source, tokenSource?, isDeletion]
    by_cases htype : type = Token.unset
    . rw [if_pos htype, decide_eq_true htype]
      rfl
    . rw [if_neg htype, decide_eq_false htype]
      rfl
  | _ => rfl

end Write

end NetworkWrite

namespace MaterialNetwork

open NetworkWrite

/--
How the edits of a network come from the writes that were made to it.
-/
structure Records (network : MaterialNetwork) (writes : List NetworkWrite) : Prop where
  distinct : network.editor.edits.Distinct
  deletedNodes : ∀ node, node ∈ network.deletedNodes ↔ .deleteNode node ∈ writes
  names : network.editor.edits.recordedNames ["nodes"] = firstWritten writes
  places : ∀ place, network.editor.edits.editAt place ≠ .keep →
    ∃ write ∈ writes, write.place = place
  deleted : ∀ node, .deleteNode node ∈ writes →
    network.editor.edits.editAt (nodeLocator node) = .delete
  part : ∀ node part, .deleteNode node ∉ writes →
    (network.editor.edits.createsAt (part.place node) ↔ holds writes node part)

theorem new_records (path : Path) (base : Container) (prim : Option Container) :
    (new path base prim).Records [] where
  distinct := EditTree.distinct_blank
  deletedNodes := by simp [new]
  names := rfl
  places := by
    intro place hplace
    exact absurd (EditTree.blank_editAt place) hplace
  deleted := by simp
  part := by
    intro node part _
    simp [EditTree.createsAt, new, Editor.new, EditTree.blank_editAt, Edit.isReplace, holds,
      latest?]

theorem exists_eq_append_of_nodeOf? {place : Locator} {node : Token}
    (h : nodeOf? place = some node) : ∃ rest, place = nodeLocator node ++ rest := by
  unfold nodeOf? at h
  split at h
  . next first other rest =>
    split at h
    . next hfirst =>
      cases h
      exact ⟨rest, by rw [hfirst]; rfl⟩
    . cases h
  . cases h

section Step

variable {network : MaterialNetwork} {writes : List NetworkWrite} {write : NetworkWrite}

theorem Records.isDeleted_place_iff (h : network.Records writes) :
    network.isDeleted write.place = true
      ↔
    ∃ node, write.node? = some node ∧ .deleteNode node ∈ writes := by
  unfold isDeleted
  rw [Option.any_eq_true]
  simp only [decide_eq_true_iff, h.deletedNodes]
  rfl

theorem Records.performWrite_of_isDeleted (h : network.Records writes)
    (hdeleted : network.isDeleted write.place = true) :
    (network.performWrite write).Records (writes ++ [write]) := by
  obtain ⟨node, hnode, hmem⟩ := h.isDeleted_place_iff.1 hdeleted
  have hdelete : ∀ other, .deleteNode other ∈ writes ++ [write] ↔ .deleteNode other ∈ writes := by
    intro other
    rw [List.mem_append, List.mem_singleton, or_iff_left_iff_imp]
    rintro rfl
    cases hnode
    exact hmem
  rw [MaterialNetwork.performWrite_of_isDeleted hdeleted]
  refine {
    distinct := h.distinct
    deletedNodes := fun other => by rw [hdelete, h.deletedNodes]
    names := ?_
    places := fun place hplace => ?_
    deleted := fun other hother => h.deleted other ((hdelete other).1 hother)
    part := fun other part hother => ?_ }
  . have hwritten : node ∈ firstWritten writes := by
      unfold firstWritten
      rw [List.mem_eraseDups, List.mem_filterMap]
      exact ⟨_, hmem, rfl⟩
    rw [firstWritten_concat, hnode, h.names]
    exact (if_pos hwritten).symm
  . obtain ⟨earlier, hearlier, heq⟩ := h.places place hplace
    exact ⟨earlier, List.mem_append_left _ hearlier, heq⟩
  . rw [hdelete] at hother
    have hpart : write.nodePart? ≠ some (other, part) := by
      intro hpart
      rw [node?_of_nodePart? hpart] at hnode
      cases hnode
      exact hother hmem
    rw [h.part other part hother, holds_concat, if_neg hpart]

theorem Records.performWrite_of_wrote (h : network.Records writes) (hrecent : network.RecentValid)
    (hdeleted : network.isDeleted write.place = false) :
    (network.performWrite write).Records (writes ++ [write]) := by
  have hwrote := performWrite_wrote hrecent hdeleted
  have hedits := hwrote.edits
  refine {
    distinct := ?_
    deletedNodes := fun node => ?_
    names := ?_
    places := fun place hplace => ?_
    deleted := fun node hnode => ?_
    part := fun node part hnode => ?_ }
  . rw [hedits]
    exact EditTree.record_distinct _ _ h.distinct
  . rw [mem_performWrite_deletedNodes hrecent, h.deletedNodes, List.mem_append, List.mem_singleton,
      or_comm, eq_comm]
  . rw [hedits, firstWritten_concat, ← h.names]
    cases hnode : write.node? with
    | none =>
      apply EditTree.record_recordedNames_of_not_isRelatedTo
      exact hwrote.isWritePlace.not_isRelatedTo_nodes hnode
    | some node =>
      obtain ⟨rest, hrest⟩ := exists_eq_append_of_nodeOf? hnode
      rw [hrest]
      exact EditTree.record_recordedNames _ ["nodes"] node rest _
  . rw [hedits, EditTree.record_editAt] at hplace
    have hearlier : network.editor.edits.editAt place ≠ .keep →
        ∃ earlier ∈ writes ++ [write], earlier.place = place := by
      intro hkeep
      obtain ⟨earlier, hearlier, heq⟩ := h.places place hkeep
      exact ⟨earlier, List.mem_append_left _ hearlier, heq⟩
    split at hplace
    . next heq => exact ⟨write, by simp, heq.symm⟩
    . split at hplace
      . exact absurd rfl hplace
      . split at hplace
        . exact hearlier (mt (Edit.opened_eq_keep_iff _).2 hplace)
        . exact hearlier hplace
  . rw [hedits]
    by_cases hwrite : write = .deleteNode node
    . subst hwrite
      exact (EditTree.record_editAt _ _ _ _).trans (if_pos rfl)
    . have hearlier : .deleteNode node ∈ writes := by
        rw [List.mem_append, List.mem_singleton] at hnode
        exact hnode.resolve_right (Ne.symm hwrite)
      have hne : nodeOf? write.place ≠ some node := by
        intro heq
        simp [isDeleted, heq, (h.deletedNodes node).2 hearlier] at hdeleted
      rw [EditTree.record_editAt_of_not_isRelatedTo _ _
        (hwrote.isWritePlace.not_isRelatedTo_node hne)]
      exact h.deleted node hearlier
  . rw [List.mem_append, List.mem_singleton, not_or] at hnode
    rw [hedits, holds_concat]
    split
    . next hpart =>
      obtain ⟨rest, hrest, hplace⟩ := place_of_nodePart? hpart
      have hreplace := write.isReplace_write_source network
      rw [hrest, EditTree.record_createsAt, hreplace]
      rw [hreplace]
      exact hplace.symm.imp_left fun hkept => by rw [hkept]; rfl
    . next hpart =>
      rw [EditTree.record_createsAt_of_not_isRelatedTo _ _
        (not_isRelatedTo_of_nodePart?_ne hpart (Ne.symm hnode.2))]
      exact h.part node part hnode.1

theorem Records.performWrite (h : network.Records writes) (hrecent : network.RecentValid)
    (write : NetworkWrite) : (network.performWrite write).Records (writes ++ [write]) := by
  cases hdeleted : network.isDeleted write.place with
  | true => exact h.performWrite_of_isDeleted hdeleted
  | false => exact h.performWrite_of_wrote hrecent hdeleted

end Step

end MaterialNetwork

end SceneTree
