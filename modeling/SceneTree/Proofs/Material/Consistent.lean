import SceneTree.Proofs.Material.Write

/-!
This module contains the invariant of material networks: how what the reads look at, the writes, the
edits of type info, and the nodes that are known to be written or deleted, lies to the edited
network. It is kept by reads and by writes.
-/

namespace SceneTree

theorem Edit.source?_write {value : Option Source} (h : value ≠ some .block) :
    (Edit.write value).source? = value := by
  cases value with
  | none => rfl
  | some source =>
    cases source with
    | block => exact absurd rfl h
    | _ => rfl

theorem Editor.accepts_of_ne_nil {place : Locator} (h : place ≠ []) (edit : Edit) :
    accepts place edit = true := by
  cases place with
  | nil => exact absurd rfl h
  | cons name rest => rfl

namespace MaterialNetwork

namespace Wrote

variable {network later : MaterialNetwork} {place : Locator} {value : Option Source}

theorem edits (h : Wrote network later place value) :
    later.editor.edits = network.editor.edits.record (Edit.write value) place := by
  rw [h.editor]
  exact Editor.set_edits (Editor.accepts_of_ne_nil h.isWritePlace.ne_nil _)

theorem at?_append (h : Wrote network later place value) (hvalid : network.editor.Valid)
    (rest : Locator) : later.editor.finish.at? (place ++ rest) = value.bind (·.at? rest) := by
  have hne : place ++ rest ≠ [] := by
    simp [h.isWritePlace.ne_nil]
  have haccepts := Editor.accepts_of_ne_nil h.isWritePlace.ne_nil (Edit.write value)
  rw [h.editor, hvalid.set_finish_at?_of_isUnder haccepts hne]
  rw [Edit.source?_write h.value_ne_block]

theorem at?_of_not_isRelatedTo (h : Wrote network later place value)
    (hvalid : network.editor.Valid) {other : Locator} (hother : ¬ other.isRelatedTo place) :
    later.editor.finish.at? other = network.editor.finish.at? other := by
  rw [h.editor]
  exact hvalid.set_finish_at?_of_not_isRelatedTo value hother

end Wrote

structure Tracks (network : MaterialNetwork) : Prop where
  recent : network.RecentValid
  editor : network.editor.Valid
  editorBase : network.editor.base = some network.base
  notEdited : network.isModified = false → network.editor.isEdited = false
  config : network.editor.finish.at? ["config"] = network.base.at? ["config"]
  nodes : network.writtenNodes = [] →
    network.editor.finish.at? ["nodes"] = network.base.at? ["nodes"]
  node : ∀ node, node ∉ network.writtenNodes →
    network.editor.finish.at? (nodeLocator node) = network.base.at? (nodeLocator node)
  terminals : network.terminalsWritten = false →
    network.editor.finish.at? ["terminals"] = network.base.at? ["terminals"]
  written : ∀ place, IsReadPlace place →
    network.editor.finish.at? place = (network.written? place).getD (network.base.at? place)

/--
The invariant of material networks.
-/
structure Consistent (network : MaterialNetwork) : Prop extends Tracks network where
  deleted : ∀ node, node ∈ network.deletedNodes →
    network.editor.finish.at? (nodeLocator node) = none
  typeInfo : ∀ node, node ∉ network.deletedNodes →
    network.written? (typeInfoLocator node) = none ∧
      network.editor.finish.at? (typeInfoLocator node)
        = match Dict.get? network.typeInfoEdits node with
          | some edits => some edits.finish.source
          | none => network.base.at? (typeInfoLocator node)
  typeInfoEdits : ∀ node edits, Dict.get? network.typeInfoEdits node = some edits → edits.Valid

theorem Tracks.finish_eq {network : MaterialNetwork} (h : network.Tracks) :
    network.finish = network.editor.finish := by
  unfold finish Editor.finish
  cases hmodified : network.isModified with
  | true => rfl
  | false =>
    rw [h.notEdited hmodified, h.editorBase]
    rfl

theorem Tracks.finish_at?_cons {network : MaterialNetwork} (h : network.Tracks) (name : Token)
    (rest : Locator) :
    network.finish.at? (name :: rest)
      =
    network.editor.edits.at? (some network.base.source) (name :: rest) := by
  rw [h.finish_eq, h.editor.finish_at?_cons, h.editorBase]
  rfl

theorem Wrote.tracks {network later : MaterialNetwork} {place : Locator} {value : Option Source}
    (hwrote : Wrote network later place value) (h : network.Tracks) : later.Tracks where
  recent := hwrote.recent h.recent
  editor := by
    rw [hwrote.editor]
    exact h.editor.set place value
  editorBase := by
    rw [hwrote.editor, Editor.set_base, h.editorBase, hwrote.base]
  notEdited := by
    rw [hwrote.isModified]
    intro hmodified
    cases hmodified
  config := by
    rw [hwrote.at?_of_not_isRelatedTo h.editor hwrote.isWritePlace.not_isRelatedTo_config]
    rw [hwrote.base, h.config]
  nodes := by
    intro hempty
    have hnot : ∀ node, ¬ (nodeOf? place = some node ∨ node ∈ network.writtenNodes) := by
      intro node hnode
      have := (hwrote.writtenNodes node).2 hnode
      simp [hempty] at this
    have hnode : nodeOf? place = none := by
      rw [Option.eq_none_iff_forall_ne_some]
      exact fun node hnode => hnot node (.inl hnode)
    rw [hwrote.at?_of_not_isRelatedTo h.editor (hwrote.isWritePlace.not_isRelatedTo_nodes hnode)]
    rw [hwrote.base, h.nodes]
    apply List.eq_nil_iff_forall_not_mem.2
    exact fun node hnode => hnot node (.inr hnode)
  node := by
    intro node hnode
    rw [hwrote.writtenNodes, not_or] at hnode
    rw [hwrote.at?_of_not_isRelatedTo h.editor (hwrote.isWritePlace.not_isRelatedTo_node hnode.1)]
    rw [hwrote.base, h.node node hnode.2]
  terminals := by
    intro hterminals
    obtain ⟨hplace, hterminals⟩ := hwrote.terminalsWritten hterminals
    rw [hwrote.at?_of_not_isRelatedTo h.editor
      (hwrote.isWritePlace.not_isRelatedTo_terminals hplace)]
    rw [hwrote.base, h.terminals hterminals]
  written := by
    intro other hother
    by_cases hunder : other.isUnder place
    . obtain ⟨rest, hrest⟩ := Locator.exists_eq_append_of_isUnder hunder
      subst hrest
      rw [hwrote.at?_append h.editor, hwrote.written?_of_isUnder rest hother]
      rfl
    . rw [hwrote.at?_of_not_isRelatedTo h.editor
        (hwrote.isWritePlace.not_isRelatedTo_read hother hunder)]
      rw [hwrote.written?_of_not_isUnder other hunder, hwrote.base]
      exact h.written other hother

theorem new_consistent (path : Path) (base : Container) (prim : Option Container) :
    (new path base prim).Consistent where
  recent := by
    intro name node h
    cases h
  editor := Editor.new_valid _
  editorBase := rfl
  notEdited := fun _ => rfl
  config := rfl
  nodes := fun _ => rfl
  node := fun _ _ => rfl
  terminals := fun _ => rfl
  written := fun place _ => by
    have hnone : (new path base prim).written? place = none := by
      unfold written?
      apply List.findSome?_eq_none_iff.2
      intros
      rfl
    rw [hnone]
    rfl
  deleted := fun node h => by cases h
  typeInfo := fun node _ => by
    refine ⟨?_, rfl⟩
    unfold written?
    apply List.findSome?_eq_none_iff.2
    intros
    rfl
  typeInfoEdits := fun node edits h => by cases h

section Keep

variable {network later : MaterialNetwork} {place : Locator} {value : Option Source}

theorem Wrote.deleted (hwrote : Wrote network later place value) (h : network.Consistent)
    {node : Token} (hnode : nodeOf? place ≠ some node) (hdeleted : node ∈ network.deletedNodes) :
    later.editor.finish.at? (nodeLocator node) = none := by
  rw [hwrote.at?_of_not_isRelatedTo h.editor (hwrote.isWritePlace.not_isRelatedTo_node hnode)]
  exact h.deleted node hdeleted

theorem Wrote.typeInfo (hwrote : Wrote network later place value) (h : network.Consistent)
    {node : Token} (hdeleted : node ∉ network.deletedNodes) (hnode : place ≠ nodeLocator node)
    (htypeInfo : place ≠ typeInfoLocator node)
    (hedits : Dict.get? later.typeInfoEdits node = Dict.get? network.typeInfoEdits node) :
    later.written? (typeInfoLocator node) = none ∧
      later.editor.finish.at? (typeInfoLocator node)
        = match Dict.get? later.typeInfoEdits node with
          | some edits => some edits.finish.source
          | none => later.base.at? (typeInfoLocator node) := by
  have hrelated := hwrote.isWritePlace.not_isRelatedTo_typeInfo hnode htypeInfo
  obtain ⟨hwritten, hat⟩ := h.typeInfo node hdeleted
  constructor
  . rw [hwrote.written?_of_not_isUnder, hwritten]
    intro hunder
    exact hrelated (Locator.isRelatedTo_iff.2 (.inl hunder))
  . rw [hwrote.at?_of_not_isRelatedTo h.editor hrelated, hat, hedits, hwrote.base]

theorem Consistent.write (h : network.Consistent) (hplace : IsWritePlace place)
    (hnode : ∀ node, place ≠ nodeLocator node) (htypeInfo : ∀ node, place ≠ typeInfoLocator node)
    (hvalue : value ≠ some .block) : (network.write place value).Consistent := by
  cases hdeleted : network.isDeleted place with
  | true =>
    rw [write_of_isDeleted _ _ _ hdeleted]
    exact h
  | false =>
    have hwrote := write_wrote hplace hvalue hdeleted
    refine { hwrote.tracks h.toTracks with
      deleted := fun node hmem => ?_
      typeInfo := fun node hmem => ?_
      typeInfoEdits := ?_ }
    . rw [write_deletedNodes] at hmem
      apply hwrote.deleted h _ hmem
      intro heq
      simp [isDeleted, heq, hmem] at hdeleted
    . rw [write_deletedNodes] at hmem
      apply hwrote.typeInfo h hmem (hnode node) (htypeInfo node)
      rw [write_typeInfoEdits]
    . rw [write_typeInfoEdits]
      exact h.typeInfoEdits

theorem Consistent.deleteNode (h : network.Consistent) (node : Token) :
    (network.deleteNode node).Consistent := by
  by_cases hdeleted : node ∈ network.deletedNodes
  . rw [deleteNode_of_deleted hdeleted]
    exact h
  . have hwrote := deleteNode_wrote hdeleted
    have heq := deleteNode_eq hdeleted
    have hnodes : (network.deleteNode node).deletedNodes = node :: network.deletedNodes := by
      rw [heq]
    have hedits : ∀ other, Dict.get? (network.deleteNode node).typeInfoEdits other
        = if node = other then none else Dict.get? network.typeInfoEdits other := by
      intro other
      rw [heq]
      exact Dict.get?_erase _ _ _
    refine { hwrote.tracks h.toTracks with
      deleted := fun other hmem => ?_
      typeInfo := fun other hmem => ?_
      typeInfoEdits := fun other edits hget => ?_ }
    . by_cases hne : node = other
      . subst hne
        simpa using hwrote.at?_append h.editor []
      . rw [hnodes, List.mem_cons] at hmem
        apply hwrote.deleted h _ (hmem.resolve_left (Ne.symm hne))
        simp [nodeOf?, nodeLocator, hne]
    . rw [hnodes, List.mem_cons, not_or] at hmem
      apply hwrote.typeInfo h hmem.2
      . simpa [nodeLocator] using Ne.symm hmem.1
      . simp [nodeLocator, typeInfoLocator]
      . rw [hedits, if_neg (Ne.symm hmem.1)]
    . rw [hedits] at hget
      split at hget
      . cases hget
      . exact h.typeInfoEdits other edits hget

theorem Consistent.typeInfoEditor (h : network.Consistent) (node : Token) :
    (network.typeInfoEditor node).Valid := by
  unfold MaterialNetwork.typeInfoEditor
  cases hedits : Dict.get? network.typeInfoEdits node with
  | none => exact Editor.new_valid _
  | some edits => exact h.typeInfoEdits node edits hedits

theorem Consistent.setTypeInfoValue (h : network.Consistent) (node key : Token) (value : Value) :
    (network.setTypeInfoValue node key value).Consistent := by
  by_cases hdeleted : node ∈ network.deletedNodes
  . rw [setTypeInfoValue_of_deleted hdeleted]
    exact h
  . have hwrote := setTypeInfoValue_wrote h.recent hdeleted key value
    obtain ⟨recent, hrecent, heq⟩ := setTypeInfoValue_eq h.recent hdeleted key value
    generalize network.setTypeInfoValue node key value = later at *
    have hedits : ∀ other, Dict.get? later.typeInfoEdits other
        = if node = other then some ((network.typeInfoEditor node).set [key] (some (.value value)))
          else Dict.get? network.typeInfoEdits other := by
      intro other
      rw [heq]
      exact Dict.get?_insert _ _ _ _
    refine { hwrote.tracks h.toTracks with
      deleted := fun other hmem => ?_
      typeInfo := fun other hmem => ?_
      typeInfoEdits := fun other edits hget => ?_ }
    . rw [heq] at hmem
      apply hwrote.deleted h _ hmem
      simp only [nodeOf?, typeInfoLocator, nodeLocator, List.cons_append, if_true, ne_eq,
        Option.some.injEq]
      rintro rfl
      exact hdeleted hmem
    . by_cases hne : node = other
      . subst hne
        rw [hedits, if_pos rfl]
        refine ⟨?_, ?_⟩
        . rw [heq]
          exact (h.typeInfo node hdeleted).1
        . simpa using hwrote.at?_append h.editor []
      . rw [heq] at hmem
        apply hwrote.typeInfo h hmem
        . simp [nodeLocator, typeInfoLocator]
        . simpa [nodeLocator, typeInfoLocator] using hne
        . rw [hedits, if_neg hne]
    . rw [hedits] at hget
      split at hget
      . cases hget
        exact (h.typeInfoEditor node).set _ _
      . exact h.typeInfoEdits other edits hget

theorem Consistent.performWrite (h : network.Consistent) (write : NetworkWrite) :
    (network.performWrite write).Consistent := by
  have hplace := write.isWritePlace_place
  have hsource := write.source_ne_block network
  cases write with
  | deleteNode node => exact h.deleteNode node
  | setTypeInfoValue node key value => exact h.setTypeInfoValue node key value
  | _ =>
    refine h.write hplace ?_ ?_ hsource
    . simp [NetworkWrite.place, nodeLocator, parameterLocator, inputLocator, terminalLocator]
    . simp [NetworkWrite.place, nodeLocator, typeInfoLocator, parameterLocator, inputLocator,
        terminalLocator]

end Keep

end MaterialNetwork

end SceneTree
