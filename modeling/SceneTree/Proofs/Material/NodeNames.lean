import SceneTree.Proofs.Material.Part

/-!
This module contains which nodes a network has after any calls: those that it had before and that
were not deleted, and those in which a write left something. A node that was deleted at any time is
not among them, and a deletion in a node that the network does not have adds none.
-/

namespace SceneTree.MaterialNetwork

open NetworkWrite

theorem Records.run {network : MaterialNetwork} (h : network.Records [])
    (hconsistent : network.Consistent) (calls : List NetworkCall) :
    (network.run calls).Records (writesOf calls) := by
  induction calls using List.reverseRecOn with
  | nil => exact h
  | append_singleton calls call ih =>
    have hrun := (hconsistent.run calls).1
    rw [run_concat]
    unfold writesOf at *
    rw [List.filterMap_append]
    cases call with
    | read read =>
      obtain ⟨recent, heq, _⟩ := hrun.perform_read_eq read
      rw [heq, List.filterMap_cons, List.filterMap_nil, List.append_nil]
      exact { ih with }
    | write write => exact ih.performWrite hrun.recent write

section Read

variable {network : MaterialNetwork} {writes : List NetworkWrite} (h : network.Records writes)
include h

theorem Records.editAt_of_isUnder_nodes {step : Locator} (hstep : Locator.isUnder ["nodes"] step) :
    network.editor.edits.editAt step = .keep := by
  by_contra hne
  obtain ⟨write, _, hplace⟩ := h.places step hne
  rw [← hplace] at hstep
  cases write <;>
    simp [NetworkWrite.place, nodeLocator, typeInfoLocator, parameterLocator, inputLocator,
      terminalLocator] at hstep

theorem Records.editAt_node {node : Token} (hnode : .deleteNode node ∉ writes) :
    network.editor.edits.editAt (nodeLocator node) = .keep := by
  by_contra hne
  obtain ⟨write, hwrite, hplace⟩ := h.places _ hne
  cases write with
  | deleteNode other =>
    cases hplace
    exact hnode hwrite
  | _ =>
    simp [NetworkWrite.place, nodeLocator, typeInfoLocator, parameterLocator, inputLocator,
      terminalLocator] at hplace

theorem Records.editAt_node_eq_delete_iff (node : Token) :
    network.editor.edits.editAt (nodeLocator node) = .delete ↔ .deleteNode node ∈ writes := by
  constructor
  . intro hdelete
    by_contra hnode
    rw [h.editAt_node hnode] at hdelete
    cases hdelete
  . exact h.deleted node

-- Something is in a node that was not deleted if it is in some part of it.
theorem Records.createsAt_node_iff {node : Token} (hnode : .deleteNode node ∉ writes) :
    network.editor.edits.createsAt (nodeLocator node) ↔ isLive writes node := by
  rw [isLive_iff]
  constructor
  . rintro ⟨rest, hreplace⟩
    have hne : network.editor.edits.editAt (nodeLocator node ++ rest) ≠ .keep := by
      intro hkeep
      rw [hkeep] at hreplace
      cases hreplace
    obtain ⟨write, hwrite, hplace⟩ := h.places _ hne
    have hto : write.node? = some node := by
      unfold node?
      rw [hplace]
      rfl
    obtain ⟨part, hpart⟩ := exists_nodePart?_of_node? hto fun hdelete => hnode (hdelete ▸ hwrite)
    obtain ⟨more, hmore, _⟩ := place_of_nodePart? hpart
    refine ⟨part, (h.part node part hnode).1 ⟨more, ?_⟩⟩
    rw [← hmore, hplace]
    exact hreplace
  . rintro ⟨part, hholds⟩
    obtain ⟨rest, hreplace⟩ := (h.part node part hnode).2 hholds
    obtain ⟨more, hmore⟩ := part.exists_place_eq_append node
    refine ⟨more ++ rest, ?_⟩
    rw [← List.append_assoc, ← hmore]
    exact hreplace

end Read

/--
The nodes that a network has after some writes, from those that it had: those that were not deleted,
and those that came to be.
-/
def nodesAfter (writes : List NetworkWrite) (nodes : List Token) : List Token :=
  let deleted := writes.filterMap deletedNode?
  (nodes.filter (· ∉ deleted)) ++
    (firstWritten writes).filter fun node => node ∉ nodes ∧ node ∉ deleted ∧ isLive writes node

section Nodes

variable {network : MaterialNetwork} {writes : List NetworkWrite} (h : network.Records writes)
variable (hconsistent : network.Consistent)
include h hconsistent

theorem Records.namesOf_nodes {nodes : List Token}
    (hnodes : Schema.namesOf (network.base.container? "nodes") = nodes) (hnodup : nodes.Nodup) :
    Schema.namesOf (network.finish.container? "nodes") = nodesAfter writes nodes := by
  have hformed := hconsistent.editor.wellFormed
  have hbase : Schema.namesOf (((some network.base.source).bind (·.at? ["nodes"])).bind
      Source.container?) = nodes := by
    rw [← hnodes, Container.container?_eq_at?]
    rfl
  rw [Container.container?_eq_at?, hconsistent.finish_at?_cons,
    hformed.names_at? h.distinct (fun _ => h.editAt_of_isUnder_nodes) hbase hnodup, h.names]
  unfold nodesAfter
  dsimp only
  congr 1
  . apply List.filter_congr
    intro node _
    rw [Bool.eq_iff_iff, EditTree.inner?_all_lists_iff, decide_eq_true_iff,
      mem_filterMap_deletedNode?, not_iff_not]
    exact h.editAt_node_eq_delete_iff node
  . apply List.filter_congr
    intro node _
    rw [Bool.eq_iff_iff, Bool.and_eq_true, EditTree.inner?_any_lists_iff hformed h.distinct,
      decide_eq_true_iff, decide_eq_true_iff, mem_filterMap_deletedNode?]
    apply and_congr_right
    intro _
    by_cases hnode : .deleteNode node ∈ writes
    . have hnot := hformed.not_createsAt_of_delete h.distinct (h.deleted node hnode)
      exact iff_of_false hnot fun hlive => hlive.1 hnode
    . rw [and_iff_right hnode]
      exact h.createsAt_node_iff hnode

theorem Records.at?_node_isSome_iff (node : Token) :
    (network.finish.at? (nodeLocator node)).isSome
      ↔
    .deleteNode node ∉ writes ∧
      (isLive writes node ∨ (network.base.at? (nodeLocator node)).isSome) := by
  by_cases hnode : .deleteNode node ∈ writes
  . have hnone := hconsistent.deleted node ((h.deletedNodes node).2 hnode)
    rw [hconsistent.finish_eq, hnone]
    simp [hnode]
  . have hformed := hconsistent.editor.wellFormed
    have hkeep : ∀ step, (nodeLocator node).isUnder step → step ≠ nodeLocator node →
        network.editor.edits.editAt step = .keep := by
      intro step hstep hne
      have hprefix : step <+: ["nodes"] ++ [node] := Locator.isUnder_iff.1 hstep
      have habove := (List.prefix_concat_iff.1 hprefix).resolve_left hne
      exact h.editAt_of_isUnder_nodes (Locator.isUnder_iff.2 habove)
    have hat : network.finish.at? (nodeLocator node)
        = network.editor.edits.at? (some network.base.source) (nodeLocator node) :=
      hconsistent.finish_at?_cons "nodes" [node]
    rw [hat, hformed.at?_isSome_iff_createsAt h.distinct hkeep, h.createsAt_node_iff hnode,
      h.editAt_node hnode]
    simp only [hnode, not_false_iff, true_and]
    rfl

end Nodes

theorem Consistent.run_base {network : MaterialNetwork} (h : network.Consistent)
    (calls : List NetworkCall) : (network.run calls).base = network.base := by
  induction calls using List.reverseRecOn with
  | nil => rfl
  | append_singleton calls call ih =>
    have hrun := (h.run calls).1
    rw [run_concat, ← ih]
    cases call with
    | read read =>
      obtain ⟨recent, heq, _⟩ := hrun.perform_read_eq read
      rw [heq]
    | write write => exact performWrite_base hrun.recent write

theorem nodeNames_run_eq (path : Path) (base : Container) (prim : Option Container)
    (calls : List NetworkCall) (h : (Schema.namesOf (base.container? "nodes")).Nodup) :
    let network := (new path base prim).run calls
    let writes := writesOf calls
    let nodes := nodesAfter writes (Schema.namesOf (base.container? "nodes"))
    network.answer .nodeNames = nodes ∧
      Schema.namesOf (network.finish.container? "nodes") = nodes ∧
      ∀ node, (network.finish.at? (nodeLocator node)).isSome
        ↔
      .deleteNode node ∉ writes ∧ (isLive writes node ∨ (base.at? (nodeLocator node)).isSome) := by
  intro network writes nodes
  have hnew := new_consistent path base prim
  have hconsistent : network.Consistent := (hnew.run calls).1
  have hrecords : network.Records writes := (new_records path base prim).run hnew calls
  have hbase : network.base = base := hnew.run_base calls
  have hnames : Schema.namesOf (network.finish.container? "nodes") = nodes :=
    hrecords.namesOf_nodes hconsistent (by rw [hbase]) h
  refine ⟨?_, hnames, ?_⟩
  . rw [hconsistent.answer_eq]
    exact hnames
  . intro node
    rw [← hbase]
    exact hrecords.at?_node_isSome_iff hconsistent node

-- A deleted node does not come back, a cleared type and a deletion add no node, and a node that was
-- first written to by a deletion comes before the others that were added.
theorem nodeNames_run_eq_deleted :
    let nodes := Container.ofEntries [("a", some (Source.ofEntries [])),
      ("b", some (Source.ofEntries []))]
    let base := Container.ofEntries [("nodes", some nodes.source)]
    let calls : List NetworkCall := [
      .write (.deleteParameter "late" "scale"),
      .write (.setNodeType "new" "UsdUVTexture"),
      .write (.deleteNode "a"),
      .read .nodeNames,
      .write (.setNodeType "cleared" "UsdUVTexture"),
      .write (.setNodeType "cleared" Token.unset),
      .write (.deleteInput "missing" "st"),
      .write (.setInput "late" "st" []),
      .write (.setTypeInfoValue "a" "role" (.int 1))]
    let network := (new .root base none).run calls
    (Schema.namesOf (base.container? "nodes")).Nodup ∧
      network.answer .nodeNames = ["b", "late", "new"] ∧
      (network.finish.at? (nodeLocator "a")).isSome = false := by
  intro nodes base calls network
  have h : (Schema.namesOf (base.container? "nodes")).Nodup := by decide
  obtain ⟨hnames, _, hsome⟩ := nodeNames_run_eq .root base none calls h
  have hdeleted : .deleteNode "a" ∈ writesOf calls := by simp [calls, writesOf]
  refine ⟨h, hnames.trans (by decide), ?_⟩
  rw [Bool.eq_false_iff]
  exact fun hsomewhere => ((hsome "a").1 hsomewhere).1 hdeleted

end SceneTree.MaterialNetwork
