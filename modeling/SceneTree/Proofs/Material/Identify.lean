import SceneTree.Proofs.Material.Request

/-!
This module contains what the search for the types of nodes leaves and counts. The search writes to
the network that it reads, yet the type that it leaves a node follows from what was read of this node
before the search.
-/

namespace SceneTree.MaterialNetwork

def identifiedType (sourceType : Token) (registry : ShaderRegistry) (type : Token)
    (info : Token → Option Value) : Token :=
  if type = Token.unset
  then ((ShaderRequest.ofInfo? info sourceType).bind registry).getD Token.unset
  else type

theorem identifiedType_identifiedType (sourceType : Token) (registry : ShaderRegistry)
    (type : Token) (info : Token → Option Value) :
    identifiedType sourceType registry (identifiedType sourceType registry type info) info
      =
    identifiedType sourceType registry type info := by
  by_cases hunset : identifiedType sourceType registry type info = Token.unset
  . have htype : type = Token.unset := by
      by_contra htype
      unfold identifiedType at hunset
      rw [if_neg htype] at hunset
      exact htype hunset
    rw [hunset]
    rwa [htype] at hunset
  . exact if_neg hunset

section Node

variable (network : MaterialNetwork) (sourceType : Token) (registry : ShaderRegistry) (node : Token)

def request? : Option ShaderRequest :=
  if network.answer (.nodeType node) = Token.unset
  then ShaderRequest.ofInfo? (network.info node) sourceType
  else none

def identified? : Option Token :=
  (network.request? sourceType node).bind registry

def gains : Bool :=
  (network.identified? sourceType registry node).any (· ≠ Token.unset)

/--
Whether the registry answers for a node, but with the unset token.
-/
def clears : Bool :=
  network.identified? sourceType registry node = some Token.unset

theorem identified?_getD :
    (network.identified? sourceType registry node).getD (network.answer (.nodeType node))
      =
    identifiedType sourceType registry (network.answer (.nodeType node)) (network.info node) := by
  unfold identified? request? identifiedType
  by_cases huntyped : network.answer (.nodeType node) = Token.unset
  . rw [if_pos huntyped, if_pos huntyped, huntyped]
  . rw [if_neg huntyped, if_neg huntyped]
    rfl

theorem gains_iff :
    network.gains sourceType registry node
      ↔
    network.answer (.nodeType node) = Token.unset ∧
      identifiedType sourceType registry (network.answer (.nodeType node)) (network.info node)
        ≠ Token.unset := by
  rw [← identified?_getD]
  unfold gains identified? request?
  by_cases huntyped : network.answer (.nodeType node) = Token.unset
  . rw [if_pos huntyped, huntyped]
    cases (ShaderRequest.ofInfo? (network.info node) sourceType).bind registry <;> simp
  . simp [huntyped]

end Node

section Answer

variable {network : MaterialNetwork} {sourceType : Token} {registry : ShaderRegistry}
variable {node : Token}

theorem clears_eq_false (h : network.gains sourceType registry node) :
    network.clears sourceType registry node = false := by
  unfold gains at h
  unfold clears
  obtain ⟨type, hsome, htype⟩ := (Option.any_eq_true _ _).1 h
  simpa [hsome] using htype

theorem length_identified?_of_gains (h : network.gains sourceType registry node) :
    (network.identified? sourceType registry node).toList.length = 1 := by
  unfold gains at h
  obtain ⟨type, hsome, _⟩ := (Option.any_eq_true _ _).1 h
  rw [hsome]
  rfl

theorem length_identified?_of_not_gains (h : network.gains sourceType registry node = false) :
    (network.identified? sourceType registry node).toList.length
      =
    if network.clears sourceType registry node then 1 else 0 := by
  unfold gains at h
  unfold clears
  cases hsome : network.identified? sourceType registry node with
  | none => rfl
  | some type =>
    rw [hsome] at h
    have htype : type = Token.unset := by simpa using h
    simp [htype]

end Answer

/-! ## The visit of one node -/

section Visit

variable {network : MaterialNetwork}

theorem Consistent.identifyNode_run (h : network.Consistent) (sourceType : Token)
    (registry : ShaderRegistry) (found : Identification) (node : Token) :
    ∃ calls, writesOf calls = [] ∧
      (identifyNode sourceType registry found node).run network
        =
      let type := network.identified? sourceType registry node
      ({ count := found.count + type.toList.length
         requests := found.requests ++ (network.request? sourceType node).toList },
        match type with
        | some type => (network.run calls).performWrite (.setNodeType node type)
        | none => network.run calls) := by
  have hasked : network.Reads (nodeType node) (network.answer (.nodeType node)) :=
    .ask (.nodeType node)
  unfold identifyNode identified? request?
  obtain ⟨calls, hcalls, hrun⟩ := hasked.run_bind _
  rw [hrun]
  by_cases huntyped : network.answer (.nodeType node) = Token.unset
  . rw [if_pos huntyped, if_neg (not_not_intro huntyped)]
    obtain ⟨hconsistent, hinfo⟩ := h.run_info rfl hcalls
    obtain ⟨more, hmore, hrun⟩ := (hconsistent.reads_shaderRequest hinfo sourceType).run_bind _
    refine ⟨calls ++ more, ?_, ?_⟩
    . rw [writesOf_append, hcalls, hmore]
      rfl
    . rw [hrun, run_append]
      cases ShaderRequest.ofInfo? (network.info node) sourceType with
      | none =>
        simp only [Option.bind_none, Option.toList_none, List.append_nil]
        rfl
      | some request =>
        simp only [Option.bind_some]
        cases registry request <;> rfl
  . refine ⟨calls, hcalls, ?_⟩
    rw [if_neg huntyped, if_pos huntyped]
    simp only [Option.bind_none, Option.toList_none, List.append_nil]
    rfl

structure Visits (network : MaterialNetwork) (sourceType : Token) (registry : ShaderRegistry)
    (visited : List Token) (later : MaterialNetwork) : Prop where
  reached : later.Reached
  base : later.base = network.base
  types : ∀ node, later.answer (.nodeType node)
    = if node ∈ visited
      then identifiedType sourceType registry (network.answer (.nodeType node)) (network.info node)
      else network.answer (.nodeType node)
  reads : ∀ {α : Type} (read : NetworkRead α), (∀ node, read.subject? ≠ some (.nodeType node)) →
    read.listsNodes = false → later.answer read = network.answer read
  listed : ∀ node, node ∈ later.answer .nodeNames ↔ node ∈ network.answer .nodeNames
  names : (Schema.namesOf (network.base.container? "nodes")).Nodup →
    later.answer .nodeNames = network.answer .nodeNames

theorem Reached.visits_nil (h : network.Reached) (sourceType : Token) (registry : ShaderRegistry) :
    network.Visits sourceType registry [] network where
  reached := h
  base := rfl
  types := fun _ => rfl
  reads := fun _ _ _ => rfl
  listed := fun _ => Iff.rfl
  names := fun _ => rfl

section One

variable (h : network.Reached) {sourceType : Token} {registry : ShaderRegistry} {node : Token}
variable {calls : List NetworkCall} (hcalls : writesOf calls = [])
include h hcalls

theorem Reached.visits_run (hnone : network.identified? sourceType registry node = none) :
    network.Visits sourceType registry [node] (network.run calls) := by
  have hread := fun {α} (read : NetworkRead α) => h.consistent.answer_run_of_reads hcalls read
  refine {
    reached := h.run calls
    base := h.consistent.run_base calls
    types := fun other => ?_
    reads := fun read _ _ => hread read
    listed := fun other => by rw [hread]
    names := fun _ => hread _ }
  rw [hread]
  split
  . next hother =>
    cases List.mem_singleton.1 hother
    rw [← identified?_getD, hnone]
    rfl
  . rfl

theorem Reached.visits_setNodeType (hlisted : node ∈ network.answer .nodeNames) {type : Token}
    (hsome : network.identified? sourceType registry node = some type) :
    network.Visits sourceType registry [node]
      ((network.run calls).performWrite (.setNodeType node type)) := by
  have hread := fun {α} (read : NetworkRead α) => h.consistent.answer_run_of_reads hcalls read
  have hbase := h.consistent.run_base calls
  have hrun := h.run calls
  have huntyped : network.answer (.nodeType node) = Token.unset := by
    by_contra htyped
    unfold identified? request? at hsome
    rw [if_neg htyped] at hsome
    cases hsome
  rw [← hread] at hlisted huntyped
  refine {
    reached := hrun.performWrite _
    base := (performWrite_base hrun.consistent.recent _).trans hbase
    types := fun other => ?_
    reads := fun read hsubject hnodes => ?_
    listed := fun other => ?_
    names := fun hnodup => ?_ }
  . rw [hrun.consistent.answer_nodeType_setNodeType _ _ (hrun.not_mem_deletedNodes hlisted),
      hread]
    simp only [List.mem_singleton]
    split
    . next hother =>
      subst hother
      rw [← identified?_getD, hsome]
      rfl
    . rfl
  . rw [hrun.consistent.answer_setNodeType _ _ hsubject hnodes, hread]
  . rw [hrun.mem_nodeNames_setNodeType_iff hlisted huntyped, hread]
  . rw [hrun.nodeNames_setNodeType hlisted huntyped type (hbase ▸ hnodup), hread]

end One

section Later

variable {sourceType : Token} {registry : ShaderRegistry} {visited : List Token}
variable {middle : MaterialNetwork} (h : network.Visits sourceType registry visited middle)
include h

theorem Visits.info_eq (node : Token) : middle.info node = network.info node := by
  funext key
  apply h.reads (.typeInfoValue node key)
  . simp [NetworkRead.subject?]
  . rfl

theorem Visits.request?_eq {node : Token} (hnode : node ∉ visited) :
    middle.request? sourceType node = network.request? sourceType node := by
  unfold request?
  rw [h.info_eq, h.types, if_neg hnode]

-- The registry is not asked again for a node that got a type, but for one that got the unset token.
theorem Visits.identified?_eq (node : Token) :
    middle.identified? sourceType registry node
      =
    if node ∈ visited ∧ network.gains sourceType registry node then none
    else network.identified? sourceType registry node := by
  have hinfo := h.info_eq node
  have htype := h.types node
  unfold gains identified? request?
  rw [hinfo, htype]
  by_cases hvisited : node ∈ visited
  . unfold identifiedType
    by_cases huntyped : network.answer (.nodeType node) = Token.unset
    . cases hanswer : (ShaderRequest.ofInfo? (network.info node) sourceType).bind registry with
      | none => simp [hvisited, huntyped, hanswer]
      | some type =>
        by_cases hunset : type = Token.unset
        . simp [hvisited, huntyped, hanswer, hunset]
        . simp [hvisited, huntyped, hanswer, hunset]
    . simp [hvisited, huntyped]
  . simp [hvisited]

theorem Visits.gains_eq_false {node : Token} (hnode : node ∈ visited) :
    middle.gains sourceType registry node = false := by
  conv_lhs => unfold gains
  rw [h.identified?_eq]
  cases hgains : network.gains sourceType registry node with
  | true => simp [hnode]
  | false =>
    unfold gains at hgains
    simpa using hgains

theorem Visits.clears_eq :
    middle.clears sourceType registry = network.clears sourceType registry := by
  funext node
  by_cases hgains : network.gains sourceType registry node
  . have hclears := clears_eq_false hgains
    unfold clears at *
    rw [h.identified?_eq]
    split
    . exact hclears.symm
    . rfl
  . unfold clears
    rw [h.identified?_eq, if_neg (not_and_of_not_right _ hgains)]

-- A node keeps the type that it has got.
theorem Visits.trans {later : MaterialNetwork} {node : Token}
    (hlast : middle.Visits sourceType registry [node] later) :
    network.Visits sourceType registry (visited ++ [node]) later where
  reached := hlast.reached
  base := hlast.base.trans h.base
  types := by
    intro other
    have hinfo := h.info_eq other
    rw [hlast.types, hinfo, h.types]
    simp only [List.mem_append, List.mem_singleton]
    by_cases hnode : other = node
    . by_cases hvisited : other ∈ visited
      . rw [if_pos hnode, if_pos hvisited, if_pos (.inl hvisited), identifiedType_identifiedType]
      . rw [if_pos hnode, if_neg hvisited, if_pos (.inr hnode)]
    . simp only [hnode, if_false, or_false]
  reads := fun read hsubject hnodes =>
    (hlast.reads read hsubject hnodes).trans (h.reads read hsubject hnodes)
  listed := fun other => (hlast.listed other).trans (h.listed other)
  names := fun hnodup => (hlast.names (h.base ▸ hnodup)).trans (h.names hnodup)

theorem Visits.count_concat (node : Token) :
    let gains := network.gains sourceType registry
    let clears := network.clears sourceType registry
    ((visited ++ [node]).filter gains).eraseDups.length + ((visited ++ [node]).filter clears).length
      =
    (visited.filter gains).eraseDups.length + (visited.filter clears).length
      + (middle.identified? sourceType registry node).toList.length := by
  intro gains clears
  rw [h.identified?_eq, List.filter_append, List.filter_append, List.length_append]
  cases hgains : gains node with
  | true =>
    have hclears : clears node = false := clears_eq_false hgains
    have hmem : node ∈ (visited.filter gains).eraseDups ↔ node ∈ visited := by
      rw [List.mem_eraseDups, List.mem_filter, and_iff_left hgains]
    rw [List.filter_cons_of_pos hgains, List.filter_nil,
      List.filter_cons_of_neg (by simp [hclears]), List.filter_nil, EditTree.eraseDups_concat]
    by_cases hvisited : node ∈ visited
    . rw [if_pos (hmem.2 hvisited), if_pos ⟨hvisited, hgains⟩]
      rfl
    . have hone := length_identified?_of_gains hgains
      rw [if_neg (mt hmem.1 hvisited), if_neg (not_and_of_not_left _ hvisited), hone,
        List.length_append, List.length_nil, List.length_singleton]
      omega
  | false =>
    have hnot : ¬ (node ∈ visited ∧ gains node) := by simp [hgains]
    have hone := length_identified?_of_not_gains hgains
    rw [List.filter_cons_of_neg (by simp [hgains]), List.filter_nil, List.append_nil, if_neg hnot,
      hone, List.filter_cons]
    split <;> rfl

end Later

theorem Reached.identifyNode_visits (h : network.Reached) {node : Token}
    (hlisted : node ∈ network.answer .nodeNames) (sourceType : Token) (registry : ShaderRegistry)
    (found : Identification) :
    let result := (identifyNode sourceType registry found node).run network
    network.Visits sourceType registry [node] result.2 ∧
      result.1.count
        = found.count + (network.identified? sourceType registry node).toList.length ∧
      result.1.requests = found.requests ++ (network.request? sourceType node).toList := by
  obtain ⟨calls, hcalls, hrun⟩ := h.consistent.identifyNode_run sourceType registry found node
  rw [hrun]
  refine ⟨?_, rfl, rfl⟩
  cases htype : network.identified? sourceType registry node with
  | none => exact h.visits_run hcalls htype
  | some type => exact h.visits_setNodeType hcalls hlisted htype

end Visit

/-! ## The visits of all nodes -/

section Visits

variable {network : MaterialNetwork} {sourceType : Token} {registry : ShaderRegistry}
variable {visited : List Token}

theorem Reached.foldlM_identifyNode (h : network.Reached)
    (hlisted : ∀ node ∈ visited, node ∈ network.answer .nodeNames) :
    let result := (visited.foldlM (identifyNode sourceType registry) ⟨0, []⟩).run network
    network.Visits sourceType registry visited result.2 ∧
      result.1.count
        = (visited.filter (network.gains sourceType registry)).eraseDups.length
          + (visited.filter (network.clears sourceType registry)).length ∧
      (visited.Nodup → result.1.requests = visited.filterMap (network.request? sourceType)) := by
  -- The last visit finds the network as the others left it.
  induction visited using List.reverseRecOn with
  | nil => exact ⟨h.visits_nil sourceType registry, rfl, fun _ => rfl⟩
  | append_singleton visited node ih =>
    have ih := ih fun other hother => hlisted other (List.mem_append_left _ hother)
    rw [List.foldlM_append]
    simp only [List.foldlM_cons, List.foldlM_nil, bind_pure]
    rw [StateT.run_bind]
    generalize (visited.foldlM (identifyNode sourceType registry) ⟨0, []⟩).run network = before at *
    obtain ⟨found, middle⟩ := before
    obtain ⟨hvisits, hcount, hrequests⟩ := ih
    have hnode := (hvisits.listed node).2 (hlisted node (by simp))
    obtain ⟨hlast, hmore, hasked⟩ :=
      hvisits.reached.identifyNode_visits hnode sourceType registry found
    refine ⟨hvisits.trans hlast, ?_, ?_⟩
    . rw [hvisits.count_concat, ← hcount]
      exact hmore
    . intro hnodup
      rw [List.nodup_append] at hnodup
      have hnew : node ∉ visited := fun hmem => hnodup.2.2 node hmem node (by simp) rfl
      rw [hvisits.request?_eq hnew, hrequests hnodup.1] at hasked
      rw [List.filterMap_append, List.filterMap_cons, List.filterMap_nil]
      refine hasked.trans ?_
      cases network.request? sourceType node <;> rfl

end Visits

theorem Reached.identifyNodes_run {network : MaterialNetwork} (h : network.Reached)
    (sourceType : Token) (registry : ShaderRegistry) :
    let nodes := network.answer .nodeNames
    let result := (identifyNodes sourceType registry).run network
    network.Visits sourceType registry nodes result.2 ∧
      result.1.count
        = (nodes.filter (network.gains sourceType registry)).eraseDups.length
          + (nodes.filter (network.clears sourceType registry)).length ∧
      (nodes.Nodup → result.1.requests = nodes.filterMap (network.request? sourceType)) :=
  h.foldlM_identifyNode fun _ hnode => hnode

-- Each answer of the registry is counted, also the unset token, which leaves a node without a type.
theorem identifyNodes_count_eq (path : Path) (base : Container) (prim : Option Container)
    (calls : List NetworkCall) (sourceType : Token) (registry : ShaderRegistry) :
    let network := (new path base prim).run calls
    let first := (identifyNodes sourceType registry).run network
    let second := (identifyNodes sourceType registry).run first.2
    ∃ got : List Token, got.Nodup ∧
      (∀ node, node ∈ got
        ↔
      network.answer (.nodeType node) = Token.unset ∧
        first.2.answer (.nodeType node) ≠ Token.unset) ∧
      first.1.count
        = got.length
          + ((network.answer .nodeNames).filter (network.clears sourceType registry)).length ∧
      second.1.count
        = ((first.2.answer .nodeNames).filter (network.clears sourceType registry)).length := by
  intro network first second
  have hreached : network.Reached := ⟨path, base, prim, calls, rfl⟩
  obtain ⟨hvisits, hcount, _⟩ := hreached.identifyNodes_run sourceType registry
  obtain ⟨_, hagain, _⟩ := hvisits.reached.identifyNodes_run sourceType registry
  refine ⟨_, EditTree.nodup_eraseDups _, ?_, hcount, ?_⟩
  . intro node
    rw [List.mem_eraseDups, List.mem_filter, gains_iff, hvisits.types]
    by_cases hlisted : node ∈ network.answer .nodeNames
    . rw [if_pos hlisted, and_iff_right hlisted]
    . rw [if_neg hlisted]
      simp [hlisted]
  . refine hagain.trans ?_
    rw [hvisits.clears_eq, List.filter_eq_nil_iff.2]
    . exact Nat.zero_add _
    . intro node hnode
      rw [hvisits.gains_eq_false ((hvisits.listed node).1 hnode)]
      exact Bool.false_ne_true

-- The registry answers with the unset token, so no node gets a type, and each search counts one.
theorem identifyNodes_count_ne_length :
    let info := Source.ofEntries [
      ("implementationSource", some (.value (.token "sourceAsset"))),
      ("sourceAsset", some (.value (.asset "a.glslfx")))]
    let node := Source.ofEntries [("nodeTypeInfo", some info)]
    let base := Container.ofEntries [("nodes", some (.ofEntries [("n", some node)]))]
    let registry : ShaderRegistry := fun _ => some Token.unset
    let network := new .root base none
    let first := (identifyNodes "glslfx" registry).run network
    let second := (identifyNodes "glslfx" registry).run first.2
    (∀ node, ¬ (network.answer (.nodeType node) = Token.unset ∧
        first.2.answer (.nodeType node) ≠ Token.unset)) ∧
      first.1.count = 1 ∧ second.1.count = 1 := by
  intro info node base registry network first second
  have hreached : network.Reached := ⟨.root, base, none, [], rfl⟩
  have hnames : network.answer .nodeNames = ["n"] := by decide
  obtain ⟨hvisits, _⟩ := hreached.identifyNodes_run "glslfx" registry
  refine ⟨?_, by decide +kernel, by decide +kernel⟩
  rintro other ⟨huntyped, hgot⟩
  rw [hvisits.types, hnames] at hgot
  split at hgot
  . next hlisted =>
    cases List.mem_singleton.1 hlisted
    exact hgot rfl
  . exact hgot huntyped

end SceneTree.MaterialNetwork
