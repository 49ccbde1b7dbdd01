import SceneTree.Proofs.Edit.History
import SceneTree.Proofs.Material.Call
import SceneTree.Proofs.Material.Place

/-!
This module contains writes to a material network: what a write makes of the closest write at or
above a place, and what it changes otherwise.
-/

namespace SceneTree

namespace MaterialNetwork

theorem findSome?_reverse_range {β : Type} {f : Nat → Option β} {b : β} {length n : Nat}
    (hlt : n < length) (hsome : f n = some b)
    (hnone : ∀ longer, n < longer → longer < length → f longer = none) :
    (List.range length).reverse.findSome? f = some b := by
  induction length with
  | zero => omega
  | succ length ih =>
    rw [List.range_succ, List.reverse_concat, List.findSome?_cons]
    rcases Nat.lt_or_eq_of_le (Nat.le_of_lt_succ hlt) with hlt | heq
    . rw [hnone length hlt (Nat.lt_succ_self length)]
      apply ih hlt
      intro longer hlonger hlength
      exact hnone longer hlonger (Nat.lt_succ_of_lt hlength)
    . subst heq
      rw [hsome]

theorem written?_append {network : MaterialNetwork} {place : Locator} {value : Option Source}
    (hplace : Dict.get? network.writes place = some value) {rest : Locator}
    (hcloser : ∀ other, other.isUnder place → other ≠ place →
      Dict.get? network.writes other = none) :
    network.written? (place ++ rest) = some (value.bind (·.at? rest)) := by
  unfold written?
  apply findSome?_reverse_range (n := place.length)
  . rw [List.length_append]
    omega
  . simp [hplace]
  . intro longer hlonger hlength
    rw [List.length_append] at hlength
    -- Any longer start of the place is strictly below the write.
    have htake : (place ++ rest).take longer = place ++ rest.take (longer - place.length) := by
      rw [List.take_append, List.take_of_length_le (by omega)]
    rw [htake, hcloser _ (Locator.append_isUnder _ _)]
    . rfl
    . intro heq
      have := congrArg List.length heq
      simp only [List.length_append, List.length_take] at this
      omega

theorem written?_congr {network other : MaterialNetwork} {place : Locator}
    (h : ∀ above, place.isUnder above →
      Dict.get? network.writes above = Dict.get? other.writes above) :
    network.written? place = other.written? place := by
  unfold written?
  congr 1
  funext n
  rw [h]
  exact Locator.isUnder_iff.2 (List.take_prefix n place)

/--
What is known of a network after a write to a place.
-/
structure Wrote (network later : MaterialNetwork) (place : Locator) (value : Option Source) :
    Prop where
  isWritePlace : IsWritePlace place
  value_ne_block : value ≠ some .block
  path : later.path = network.path
  prim : later.prim = network.prim
  base : later.base = network.base
  editor : later.editor = network.editor.set place value
  isModified : later.isModified = true
  recent : network.RecentValid → later.RecentValid
  writtenNodes : ∀ node,
    node ∈ later.writtenNodes ↔ nodeOf? place = some node ∨ node ∈ network.writtenNodes
  terminalsWritten : later.terminalsWritten = false →
    place.head? ≠ some "terminals" ∧ network.terminalsWritten = false
  written?_of_isUnder : ∀ rest, IsReadPlace (place ++ rest) →
    later.written? (place ++ rest) = some (value.bind (·.at? rest))
  written?_of_not_isUnder : ∀ other, ¬ other.isUnder place →
    later.written? other = network.written? other

def isDeleted (network : MaterialNetwork) (place : Locator) : Bool :=
  (nodeOf? place).any (· ∈ network.deletedNodes)

section Write

variable (network : MaterialNetwork) (place : Locator) (value : Option Source)

theorem write_of_isDeleted (h : network.isDeleted place = true) :
    network.write place value = network := by
  unfold isDeleted at h
  unfold write
  simp only [h, if_true]

theorem write_eq (h : network.isDeleted place = false) :
    network.write place value
      =
    { network with
      writes := Dict.insert (network.writes.filter fun entry => !entry.1.isUnder place) place value
      editor := network.editor.set place value
      recent := match nodeOf? place with
        | some node => network.recent.filter (·.1 ≠ node)
        | none => network.recent
      writtenNodes := match nodeOf? place with
        | some node => network.writtenNodes.insert node
        | none => network.writtenNodes
      terminalsWritten := match nodeOf? place with
        | some _ => network.terminalsWritten
        | none => network.terminalsWritten || place.head? == some "terminals" } := by
  unfold isDeleted at h
  unfold write
  simp only [h]
  cases nodeOf? place <;> rfl

theorem write_deletedNodes : (network.write place value).deletedNodes = network.deletedNodes := by
  cases h : network.isDeleted place with
  | true => rw [write_of_isDeleted _ _ _ h]
  | false => rw [write_eq _ _ _ h]

theorem write_typeInfoEdits :
    (network.write place value).typeInfoEdits = network.typeInfoEdits := by
  cases h : network.isDeleted place with
  | true => rw [write_of_isDeleted _ _ _ h]
  | false => rw [write_eq _ _ _ h]

end Write

theorem RecentValid.filter {network : MaterialNetwork} (h : network.RecentValid)
    (p : Token × BaseNode → Bool) :
    RecentValid { network with recent := network.recent.filter p } := by
  intro name node hrecent
  apply h
  exact (Option.filter_eq_some_iff.1 hrecent).1

theorem nodeOf?_eq_some {place : Locator} {node : Token} (h : nodeOf? place = some node) :
    place.head? = some "nodes" := by
  unfold nodeOf? at h
  split at h
  . split at h
    . next hfirst => simp [hfirst]
    . cases h
  . cases h

theorem write_wrote {network : MaterialNetwork} {place : Locator} {value : Option Source}
    (hplace : IsWritePlace place) (hvalue : value ≠ some .block)
    (hdeleted : network.isDeleted place = false) :
    Wrote network (network.write place value) place value := by
  rw [write_eq _ _ _ hdeleted]
  have hget : ∀ other,
      Dict.get?
        (Dict.insert (network.writes.filter fun entry => !entry.1.isUnder place) place value) other
        =
      if place = other then some value
      else if other.isUnder place then none else Dict.get? network.writes other := by
    intro other
    rw [Dict.get?_insert, Dict.get?_filter network.writes fun key => !key.isUnder place]
    cases other.isUnder place <;> rfl
  refine {
    isWritePlace := hplace
    value_ne_block := hvalue
    path := rfl
    prim := rfl
    base := rfl
    editor := rfl
    isModified := ?_
    recent := fun hrecent => ?_
    writtenNodes := fun node => ?_
    terminalsWritten := fun h => ?_
    written?_of_isUnder := fun rest _ => ?_
    written?_of_not_isUnder := fun other hother => ?_ }
  . simp [isModified, Dict.insert_ne_nil]
  . cases nodeOf? place with
    | none => exact hrecent
    | some node => exact hrecent.filter fun entry => entry.1 ≠ node
  . cases nodeOf? place with
    | none => simp
    | some written => simp [List.mem_insert_iff, eq_comm]
  . cases hnode : nodeOf? place with
    | none => simpa [hnode, and_comm] using h
    | some node => simpa [hnode, nodeOf?_eq_some hnode] using h
  . apply written?_append
    . simp [hget]
    . intro other hother hne
      simp [hget, hother, Ne.symm hne]
  . apply written?_congr
    intro above habove
    have hne : place ≠ above := by
      rintro rfl
      exact hother habove
    have hunder : ¬ above.isUnder place := by
      intro hunder
      exact hother (Locator.isUnder_trans habove hunder)
    simp [hget, hne, hunder]

theorem deleteNode_of_deleted {network : MaterialNetwork} {node : Token}
    (h : node ∈ network.deletedNodes) : network.deleteNode node = network := by
  unfold deleteNode
  rw [if_pos h]

theorem isDeleted_nodeLocator_append (network : MaterialNetwork) (node : Token) (rest : Locator) :
    network.isDeleted (nodeLocator node ++ rest) = decide (node ∈ network.deletedNodes) := by
  simp [isDeleted, nodeLocator, nodeOf?]

theorem isDeleted_iff (network : MaterialNetwork) (node : Token) (rest : Locator) :
    network.isDeleted (nodeLocator node ++ rest) = true ↔ node ∈ network.deletedNodes := by
  rw [isDeleted_nodeLocator_append]
  exact decide_eq_true_iff

theorem deleteNode_eq {network : MaterialNetwork} {node : Token}
    (h : node ∉ network.deletedNodes) :
    network.deleteNode node
      =
    { network.write (nodeLocator node) none with
      typeInfoEdits := Dict.erase network.typeInfoEdits node
      deletedNodes := node :: network.deletedNodes } := by
  unfold deleteNode
  rw [if_neg h]
  dsimp only
  rw [write_deletedNodes, write_typeInfoEdits]

theorem deleteNode_wrote {network : MaterialNetwork} {node : Token}
    (h : node ∉ network.deletedNodes) :
    Wrote network (network.deleteNode node) (nodeLocator node) none := by
  have hdeleted : network.isDeleted (nodeLocator node) = false := by
    simpa [h] using network.isDeleted_nodeLocator_append node []
  have hwrote : Wrote network (network.write (nodeLocator node) none) (nodeLocator node) none :=
    write_wrote (.node node) (by simp) hdeleted
  rw [deleteNode_eq h]
  refine { hwrote with isModified := ?_ }
  rw [write_eq _ _ _ hdeleted]
  simp [isModified, Dict.insert_ne_nil]

/-! ## Writes to type info -/

def typeInfoBelow (network : MaterialNetwork) (node : Token) : Option Container :=
  (network.sourceIn node (typeInfoLocator node)
    (Schema.node.field? (BaseNode.ofNetwork network.base node).node "nodeTypeInfo")).bind
      Source.container?

theorem answers_uneditedTypeInfo {network : MaterialNetwork} (h : network.RecentValid)
    (node : Token) : network.Answers (uneditedTypeInfo node) (network.typeInfoBelow node) :=
  (answers_readNode h node _ _).map _

/--
The edits of the type info of a node. If there are none yet, they start from what is there.
-/
def typeInfoEditor (network : MaterialNetwork) (node : Token) : Editor :=
  (Dict.get? network.typeInfoEdits node).getD (.new (network.typeInfoBelow node))

theorem setTypeInfoValue_of_deleted {network : MaterialNetwork} {node : Token}
    (h : node ∈ network.deletedNodes) (key : Token) (value : Value) :
    network.setTypeInfoValue node key value = network := by
  unfold setTypeInfoValue
  rw [if_pos h]

theorem setTypeInfoValue_eq {network : MaterialNetwork} (h : network.RecentValid) {node : Token}
    (hdeleted : node ∉ network.deletedNodes) (key : Token) (value : Value) :
    let edits := (network.typeInfoEditor node).set [key] (some (.value value))
    ∃ recent, RecentValid { network with recent } ∧
      network.setTypeInfoValue node key value
        =
      { network with
        recent
        typeInfoEdits := Dict.insert network.typeInfoEdits node edits
        editor := network.editor.set (typeInfoLocator node) (some edits.finish.source)
        writtenNodes := network.writtenNodes.insert node } := by
  unfold setTypeInfoValue typeInfoEditor
  rw [if_neg hdeleted]
  cases Dict.get? network.typeInfoEdits node with
  | some edits => exact ⟨network.recent, h, rfl⟩
  | none =>
    obtain ⟨recent, hrun, hrecent⟩ := answers_uneditedTypeInfo h node
    refine ⟨recent, hrecent, ?_⟩
    dsimp only
    rw [hrun]
    rfl

theorem setTypeInfoValue_wrote {network : MaterialNetwork} (h : network.RecentValid)
    {node : Token} (hdeleted : node ∉ network.deletedNodes) (key : Token) (value : Value) :
    Wrote network (network.setTypeInfoValue node key value) (typeInfoLocator node)
      (some ((network.typeInfoEditor node).set [key] (some (.value value))).finish.source) := by
  obtain ⟨recent, hrecent, heq⟩ := setTypeInfoValue_eq h hdeleted key value
  rw [heq]
  refine {
    isWritePlace := .typeInfo node
    value_ne_block := by simp [Container.source]
    path := rfl
    prim := rfl
    base := rfl
    editor := rfl
    isModified := ?_
    recent := fun _ => hrecent
    writtenNodes := fun other => ?_
    terminalsWritten := fun hterminals => ⟨by simp [typeInfoLocator, nodeLocator], hterminals⟩
    written?_of_isUnder := fun rest hread => ?_
    written?_of_not_isUnder := fun _ _ => rfl }
  . simp [isModified, Dict.insert_ne_nil]
  . simp [typeInfoLocator, nodeLocator, nodeOf?, List.mem_insert_iff, eq_comm]
  . exact absurd hread (not_isReadPlace_typeInfo node rest)

end MaterialNetwork

namespace NetworkWrite

open MaterialNetwork

def place : NetworkWrite → Locator
  | deleteNode node => nodeLocator node
  | setNodeType node _ => nodeLocator node ++ ["nodeIdentifier"]
  | setTypeInfoValue node _ _ => typeInfoLocator node
  | setParameterValue node name _ => parameterLocator node name ++ ["value"]
  | setParameter node name _ => parameterLocator node name
  | deleteParameter node name => parameterLocator node name
  | setInput node name _ => inputLocator node name
  | deleteInput node name => inputLocator node name
  | setTerminal name _ => terminalLocator name
  | deleteTerminal name => terminalLocator name

def tokenSource? (token : Token) : Option Source :=
  if token = Token.unset then none else some (.value (.token token))

def source (network : MaterialNetwork) : NetworkWrite → Option Source
  | setNodeType _ type => tokenSource? type
  | setTypeInfoValue node key value =>
    some ((network.typeInfoEditor node).set [key] (some (.value value))).finish.source
  | setParameterValue _ _ value => some (.value value)
  | setParameter _ _ data => some <| Source.ofEntries
    [("value", data.value.map Source.value), ("colorSpace", tokenSource? data.colorSpace),
      ("typeName", tokenSource? data.typeName)]
  | setInput _ _ connections => some (Connection.vector connections)
  | setTerminal _ connection => some connection.container.source
  | _ => none

theorem isWritePlace_place (write : NetworkWrite) : IsWritePlace write.place := by
  cases write <;> constructor

theorem source_ne_block (write : NetworkWrite) (network : MaterialNetwork) :
    write.source network ≠ some .block := by
  cases write with
  | setNodeType node type =>
    dsimp only [source, tokenSource?]
    split <;> simp [Source.value]
  | _ => simp [source, Source.value, Source.ofEntries, Container.source, Connection.vector]

end NetworkWrite

namespace MaterialNetwork

theorem performWrite_of_isDeleted {network : MaterialNetwork} {write : NetworkWrite}
    (h : network.isDeleted write.place = true) : network.performWrite write = network := by
  cases write with
  | deleteNode node => exact deleteNode_of_deleted ((network.isDeleted_iff node []).1 h)
  | setTypeInfoValue node key value =>
    exact setTypeInfoValue_of_deleted ((network.isDeleted_iff node _).1 h) key value
  | _ => exact write_of_isDeleted _ _ _ h

theorem nodeOf?_of_isUnder {place top : Locator} {node : Token} (hunder : place.isUnder top)
    (hnode : nodeOf? top = some node) : nodeOf? place = some node := by
  obtain ⟨rest, hrest⟩ := Locator.exists_eq_append_of_isUnder hunder
  subst hrest
  match top with
  | first :: second :: more => exact hnode

theorem isDeleted_of_isUnder {network : MaterialNetwork} {place top : Locator}
    (hunder : place.isUnder top) (h : network.isDeleted top = true) :
    network.isDeleted place = true := by
  unfold isDeleted at *
  cases hnode : nodeOf? top with
  | none => simp [hnode] at h
  | some node =>
    rw [nodeOf?_of_isUnder hunder hnode]
    rwa [hnode] at h

theorem mem_performWrite_deletedNodes {network : MaterialNetwork} (h : network.RecentValid)
    (write : NetworkWrite) (node : Token) :
    node ∈ (network.performWrite write).deletedNodes
      ↔
    write = .deleteNode node ∨ node ∈ network.deletedNodes := by
  cases write with
  | deleteNode other =>
    dsimp only [performWrite]
    by_cases hdeleted : other ∈ network.deletedNodes
    . rw [deleteNode_of_deleted hdeleted]
      simp only [NetworkWrite.deleteNode.injEq]
      constructor
      . exact .inr
      . rintro (rfl | hmem)
        . exact hdeleted
        . exact hmem
    . rw [deleteNode_eq hdeleted]
      simp [eq_comm]
  | setTypeInfoValue other key value =>
    dsimp only [performWrite]
    by_cases hdeleted : other ∈ network.deletedNodes
    . simp [setTypeInfoValue_of_deleted hdeleted]
    . obtain ⟨recent, _, heq⟩ := setTypeInfoValue_eq h hdeleted key value
      simp [heq]
  | _ =>
    simp [performWrite, setNodeType, setParameterValue, setParameter, deleteParameter, setInput,
      deleteInput, setTerminal, deleteTerminal, write_deletedNodes]

theorem performWrite_wrote {network : MaterialNetwork} (h : network.RecentValid)
    {write : NetworkWrite} (hdeleted : network.isDeleted write.place = false) :
    Wrote network (network.performWrite write) write.place (write.source network) := by
  have hplace := write.isWritePlace_place
  have hsource := write.source_ne_block network
  cases write with
  | deleteNode node =>
    exact deleteNode_wrote (mt (network.isDeleted_iff node []).2 (Bool.eq_false_iff.1 hdeleted))
  | setTypeInfoValue node key value =>
    have hlive := mt (network.isDeleted_iff node _).2 (Bool.eq_false_iff.1 hdeleted)
    exact setTypeInfoValue_wrote h hlive key value
  | _ => exact write_wrote hplace hsource hdeleted

theorem performWrite_base {network : MaterialNetwork} (h : network.RecentValid)
    (write : NetworkWrite) : (network.performWrite write).base = network.base := by
  cases hdeleted : network.isDeleted write.place with
  | true => rw [performWrite_of_isDeleted hdeleted]
  | false => exact (performWrite_wrote h hdeleted).base

end MaterialNetwork

end SceneTree
