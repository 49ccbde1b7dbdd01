import SceneTree.Proofs.Material.Reads
import SceneTree.Proofs.Material.Subject

/-!
This module contains what reads of values answer after one write: what the write leaves, or the same
as before if it leaves nothing of the value.
-/

namespace SceneTree

namespace MaterialNetwork

open NetworkWrite

theorem tokenOf_tokenSource? (token : Token) : tokenOf (tokenSource? token) = token := by
  unfold tokenSource?
  split
  . next hunset =>
    rw [hunset]
    rfl
  . rfl

theorem valueOf_map_value (value : Option Value) : valueOf (value.map Source.value) = value := by
  cases value <;> rfl

theorem connectionsOf_vector (connections : List Connection) :
    NetworkRead.connectionsOf (some (Connection.vector connections)) = connections := by
  unfold NetworkRead.connectionsOf Connection.vector
  rw [Option.bind_some, Source.vector?, Option.getD_some, List.filterMap_map]
  exact List.filterMap_some

theorem source_setParameter_at? (network : MaterialNetwork) (node name : Token)
    (data : NodeParameter) (field : Token) :
    ((NetworkWrite.setParameter node name data).source network).bind (·.at? [field])
      =
    (Dict.get? [("value", data.value.map Source.value),
      ("colorSpace", tokenSource? data.colorSpace),
      ("typeName", tokenSource? data.typeName)] field).join := by
  dsimp only [NetworkWrite.source, Option.bind_some]
  rw [← Container.ofEntries_child (by simp [Dict.keys]), ← Container.at?_singleton]
  rfl

def parameterTokens (network : Container) (node parameter : Token) : Token × Token :=
  (tokenOf (network.at? (parameterLocator node parameter ++ ["colorSpace"])),
    tokenOf (network.at? (parameterLocator node parameter ++ ["typeName"])))

section Write

variable {network : MaterialNetwork} (h : network.Consistent) (write : NetworkWrite)
include h

theorem Consistent.performWrite_at?_of_not_isRelatedTo {place : Locator}
    (hrelated : ¬ place.isRelatedTo write.place) :
    (network.performWrite write).finish.at? place = network.finish.at? place := by
  rw [(h.performWrite write).finish_eq, h.finish_eq]
  cases hdeleted : network.isDeleted write.place with
  | true => rw [performWrite_of_isDeleted hdeleted]
  | false =>
    exact (performWrite_wrote h.recent hdeleted).at?_of_not_isRelatedTo h.editor hrelated

theorem Consistent.performWrite_at?_append {rest : Locator}
    (hdeleted : network.isDeleted (write.place ++ rest) = false) :
    (network.performWrite write).finish.at? (write.place ++ rest)
      =
    (write.source network).bind (·.at? rest) := by
  have hnot : network.isDeleted write.place = false := by
    rw [← Bool.not_eq_true] at *
    intro habove
    exact hdeleted (isDeleted_of_isUnder (Locator.append_isUnder _ _) habove)
  rw [(h.performWrite write).finish_eq]
  exact (performWrite_wrote h.recent hnot).at?_append h.editor rest

theorem Consistent.performWrite_at? {place : Locator}
    (hdeleted : network.isDeleted place = false)
    (hplace : ¬ place.isUnder write.place → ¬ place.isRelatedTo write.place) :
    (network.performWrite write).finish.at? place
      =
    match place.below? write.place with
    | some rest => (write.source network).bind (·.at? rest)
    | none => network.finish.at? place := by
  by_cases hunder : place.isUnder write.place
  . obtain ⟨rest, hrest⟩ := Locator.exists_eq_append_of_isUnder hunder
    subst hrest
    rw [Locator.below?_append]
    exact h.performWrite_at?_append write hdeleted
  . rw [Locator.below?_eq_none hunder]
    exact h.performWrite_at?_of_not_isRelatedTo write (hplace hunder)

theorem Consistent.performWrite_read_at? {place : Locator} (hread : IsReadPlace place)
    (hdeleted : network.isDeleted place = false) :
    (network.performWrite write).finish.at? place
      =
    match place.below? write.place with
    | some rest => (write.source network).bind (·.at? rest)
    | none => network.finish.at? place :=
  h.performWrite_at? write hdeleted (write.isWritePlace_place.not_isRelatedTo_read hread)

theorem Consistent.performWrite_at?_of_not_concerns {subject : NetworkSubject}
    (hconcerns : ¬ write.Concerns subject) {place : Locator} (hread : IsReadPlace place)
    (hunder : place.isUnder subject.place) :
    (network.performWrite write).finish.at? place = network.finish.at? place := by
  apply h.performWrite_at?_of_not_isRelatedTo
  apply write.isWritePlace_place.not_isRelatedTo_read hread
  refine not_isUnder_of_not_concerns hconcerns ?_ hunder
  rintro node key rfl
  obtain ⟨rest, hrest⟩ := Locator.exists_eq_append_of_isUnder hunder
  rw [hrest, NetworkSubject.place, List.append_assoc] at hread
  exact not_isReadPlace_typeInfo node _ hread

theorem Consistent.performWrite_nodeType_of_not_concerns {node : Token}
    (hconcerns : ¬ write.Concerns (.nodeType node)) :
    (network.performWrite write).finish.at? (nodeLocator node ++ ["nodeIdentifier"])
      =
    network.finish.at? (nodeLocator node ++ ["nodeIdentifier"]) :=
  h.performWrite_at?_of_not_concerns write hconcerns (.nodeType node) (Locator.isUnder_refl _)

theorem Consistent.nodeType_performWrite {node : Token}
    (hlive : node ∉ (network.performWrite write).deletedNodes) :
    tokenOf ((network.performWrite write).finish.at? (nodeLocator node ++ ["nodeIdentifier"]))
      =
    (write.nodeType? node).getD
      (tokenOf (network.finish.at? (nodeLocator node ++ ["nodeIdentifier"]))) := by
  rw [mem_performWrite_deletedNodes h.recent, not_or] at hlive
  by_cases hconcerns : write.Concerns (.nodeType node)
  . have hsubject := hconcerns.subject?_eq rfl hlive.1
    have hdeleted : network.isDeleted (nodeLocator node ++ ["nodeIdentifier"]) = false := by
      simpa [isDeleted_nodeLocator_append] using hlive.2
    rw [h.performWrite_read_at? write (.nodeType node) hdeleted]
    cases write with
    | setNodeType other type =>
      cases hsubject
      simp [place, NetworkWrite.source, nodeType?, Locator.below?, Locator.isUnder_refl,
        tokenOf_tokenSource?]
    | _ => cases hsubject
  . rw [nodeType?_eq_none hconcerns]
    rw [h.performWrite_nodeType_of_not_concerns write hconcerns]
    rfl

theorem Consistent.performWrite_parameterField_of_not_concerns {node parameter : Token}
    (hconcerns : ¬ write.Concerns (.parameter node parameter)) (field : Token) :
    (network.performWrite write).finish.at? (parameterLocator node parameter ++ [field])
      =
    network.finish.at? (parameterLocator node parameter ++ [field]) :=
  h.performWrite_at?_of_not_concerns write hconcerns (.parameterField node parameter field)
    (Locator.append_isUnder _ _)

theorem Consistent.performWrite_parameterField_at? {node : Token}
    (hlive : node ∉ network.deletedNodes) (parameter field : Token) :
    (network.performWrite write).finish.at? (parameterLocator node parameter ++ [field])
      =
    match (parameterLocator node parameter ++ [field]).below? write.place with
    | some rest => (write.source network).bind (·.at? rest)
    | none => network.finish.at? (parameterLocator node parameter ++ [field]) := by
  apply h.performWrite_read_at? write (.parameterField node parameter field)
  simpa [parameterLocator, isDeleted_nodeLocator_append] using hlive

theorem Consistent.parameterValue_performWrite {node parameter : Token}
    (hlive : node ∉ (network.performWrite write).deletedNodes) :
    valueOf ((network.performWrite write).finish.at? (parameterLocator node parameter ++ ["value"]))
      =
    (write.parameterValue? node parameter).getD
      (valueOf (network.finish.at? (parameterLocator node parameter ++ ["value"]))) := by
  rw [mem_performWrite_deletedNodes h.recent, not_or] at hlive
  by_cases hconcerns : write.Concerns (.parameter node parameter)
  . have hsubject := hconcerns.subject?_eq rfl hlive.1
    rw [h.performWrite_parameterField_at? write hlive.2]
    cases write with
    | setParameterValue other name value =>
      cases hsubject
      simp [place, NetworkWrite.source, parameterValue?, Locator.below?, Locator.isUnder_refl]
      rfl
    | setParameter other name data =>
      cases hsubject
      dsimp only [place]
      rw [Locator.below?_append]
      dsimp only
      rw [source_setParameter_at?]
      simp [parameterValue?, Dict.get?, valueOf_map_value]
    | deleteParameter other name =>
      cases hsubject
      simp [place, NetworkWrite.source, parameterValue?, Locator.below?, Locator.append_isUnder,
        valueOf]
    | _ => cases hsubject
  . rw [parameterValue?_eq_none hconcerns]
    rw [h.performWrite_parameterField_of_not_concerns write hconcerns]
    rfl

theorem Consistent.parameterTokens_performWrite {node parameter : Token}
    (hlive : node ∉ (network.performWrite write).deletedNodes) :
    parameterTokens (network.performWrite write).finish node parameter
      =
    (write.parameterTokens? node parameter).getD
      (parameterTokens network.finish node parameter) := by
  rw [mem_performWrite_deletedNodes h.recent, not_or] at hlive
  unfold parameterTokens
  by_cases hconcerns : write.Concerns (.parameter node parameter)
  . have hsubject := hconcerns.subject?_eq rfl hlive.1
    rw [h.performWrite_parameterField_at? write hlive.2]
    rw [h.performWrite_parameterField_at? write hlive.2]
    cases write with
    | setParameterValue other name value =>
      cases hsubject
      simp [place, parameterTokens?, parameterLocator, nodeLocator, Locator.below?]
    | setParameter other name data =>
      cases hsubject
      dsimp only [place]
      rw [Locator.below?_append, Locator.below?_append]
      dsimp only
      rw [source_setParameter_at?, source_setParameter_at?]
      simp [parameterTokens?, Dict.get?, tokenOf_tokenSource?]
    | deleteParameter other name =>
      cases hsubject
      simp [place, NetworkWrite.source, parameterTokens?, Locator.below?, Locator.append_isUnder,
        tokenOf]
    | _ => cases hsubject
  . rw [parameterTokens?_eq_none hconcerns]
    rw [h.performWrite_parameterField_of_not_concerns write hconcerns]
    rw [h.performWrite_parameterField_of_not_concerns write hconcerns]
    rfl

theorem Consistent.performWrite_input_of_not_concerns {node name : Token}
    (hconcerns : ¬ write.Concerns (.input node name)) :
    (network.performWrite write).finish.at? (inputLocator node name)
      =
    network.finish.at? (inputLocator node name) :=
  h.performWrite_at?_of_not_concerns write hconcerns (.input node name) (Locator.isUnder_refl _)

theorem Consistent.input_performWrite {node name : Token}
    (hlive : node ∉ (network.performWrite write).deletedNodes) :
    NetworkRead.connectionsOf ((network.performWrite write).finish.at? (inputLocator node name))
      =
    (write.input? node name).getD
      (NetworkRead.connectionsOf (network.finish.at? (inputLocator node name))) := by
  rw [mem_performWrite_deletedNodes h.recent, not_or] at hlive
  by_cases hconcerns : write.Concerns (.input node name)
  . have hsubject := hconcerns.subject?_eq rfl hlive.1
    have hdeleted : network.isDeleted (inputLocator node name) = false := by
      simpa [inputLocator, isDeleted_nodeLocator_append] using hlive.2
    rw [h.performWrite_read_at? write (.input node name) hdeleted]
    cases write with
    | setInput other written connections =>
      cases hsubject
      simp [place, NetworkWrite.source, input?, Locator.below?, Locator.isUnder_refl,
        connectionsOf_vector]
    | deleteInput other written =>
      cases hsubject
      simp [place, NetworkWrite.source, input?, Locator.below?, Locator.isUnder_refl,
        NetworkRead.connectionsOf]
    | _ => cases hsubject
  . rw [input?_eq_none hconcerns, h.performWrite_input_of_not_concerns write hconcerns]
    rfl

theorem Consistent.performWrite_terminal_of_not_concerns {name : Token}
    (hconcerns : ¬ write.Concerns (.terminal name)) :
    (network.performWrite write).finish.at? (terminalLocator name)
      =
    network.finish.at? (terminalLocator name) :=
  h.performWrite_at?_of_not_concerns write hconcerns (.terminal name) (Locator.isUnder_refl _)

theorem Consistent.terminal_performWrite (name : Token) :
    connectionOf ((network.performWrite write).finish.at? (terminalLocator name))
      =
    (write.terminal? name).getD (connectionOf (network.finish.at? (terminalLocator name))) := by
  by_cases hconcerns : write.Concerns (.terminal name)
  . rw [h.performWrite_read_at? write (.terminal name) rfl]
    rcases hconcerns with hsubject | ⟨_, hnode, _⟩
    . cases write with
      | setTerminal written connection =>
        cases hsubject
        simp [place, NetworkWrite.source, terminal?, Locator.below?, Locator.isUnder_refl]
        rfl
      | deleteTerminal written =>
        cases hsubject
        simp [place, NetworkWrite.source, terminal?, Locator.below?, Locator.isUnder_refl,
          connectionOf]
      | _ => cases hsubject
    . cases hnode
  . rw [terminal?_eq_none hconcerns, h.performWrite_terminal_of_not_concerns write hconcerns]
    rfl

theorem Consistent.typeInfoEditor_at? {node key : Token} (hdeleted : node ∉ network.deletedNodes) :
    (network.typeInfoEditor node).finish.at? [key]
      =
    network.finish.at? (typeInfoLocator node ++ [key]) := by
  obtain ⟨hwritten, hat⟩ := h.typeInfo node hdeleted
  rw [h.finish_eq, Container.at?_append, hat]
  unfold MaterialNetwork.typeInfoEditor
  cases Dict.get? network.typeInfoEdits node with
  | some edits => rfl
  | none =>
    dsimp only [Option.getD_none]
    rw [Editor.new_finish_at? _ (by simp), ← Container.at?_append, Container.at?_concat]
    rw [h.typeInfoBelow_eq hdeleted]
    congr 1
    funext info
    exact Container.at?_singleton info key

theorem Consistent.typeInfoValue_performWrite {node key : Token}
    (hlive : node ∉ (network.performWrite write).deletedNodes) :
    ((network.performWrite write).finish.at? (typeInfoLocator node ++ [key])).bind
        (·.toValue Time.zero)
      =
    (write.typeInfoValue? node key).getD
      ((network.finish.at? (typeInfoLocator node ++ [key])).bind (·.toValue Time.zero)) := by
  rw [mem_performWrite_deletedNodes h.recent, not_or] at hlive
  have hdeleted : network.isDeleted (typeInfoLocator node ++ [key]) = false := by
    simpa [typeInfoLocator, isDeleted_nodeLocator_append] using hlive.2
  rw [h.performWrite_at? write hdeleted write.isWritePlace_place.not_isRelatedTo_typeInfoKey]
  cases write with
  | deleteNode other =>
    have hne : other ≠ node := by simpa using hlive.1
    simp [place, typeInfoValue?, nodeLocator, typeInfoLocator, Locator.below?, hne]
  | setTypeInfoValue other name value =>
    by_cases hsame : other = node
    . subst hsame
      dsimp only [place]
      rw [Locator.below?_append]
      dsimp only [NetworkWrite.source, Option.bind_some]
      rw [show ∀ c : Container, c.source.at? [key] = c.at? [key] from fun _ => rfl]
      by_cases hname : name = key
      . subst hname
        have hset : ((network.typeInfoEditor other).set [name] (some (.value value))).finish.at?
            ([name] ++ []) = (Edit.write (some (.value value))).source?.bind (·.at? []) :=
          (h.typeInfoEditor other).set_finish_at?_of_isUnder rfl (by simp)
        rw [List.append_nil] at hset
        rw [hset]
        simp [typeInfoValue?]
        rfl
      . have hother : ¬ Locator.isRelatedTo [key] [name] := by
          simp [Locator.isRelatedTo_iff, hname, Ne.symm hname]
        rw [(h.typeInfoEditor other).set_finish_at?_of_not_isRelatedTo _ hother]
        rw [h.typeInfoEditor_at? hlive.2]
        simp [typeInfoValue?, hname]
    . simp [place, typeInfoValue?, nodeLocator, typeInfoLocator, Locator.below?, hsame]
  | _ =>
    simp [place, typeInfoValue?, nodeLocator, parameterLocator, inputLocator, typeInfoLocator,
      terminalLocator, Locator.below?]

end Write

end MaterialNetwork

end SceneTree
