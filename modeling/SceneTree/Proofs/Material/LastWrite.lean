import SceneTree.Proofs.Material.Step

/-!
This module contains what reads of values answer after any calls: what the last write that concerns
them leaves, or what the network below the writes holds if there is none, and nothing if their node
was deleted at any time.
-/

namespace SceneTree

namespace NetworkWrite

def latest? {β : Type} (leaves : NetworkWrite → Option β) (writes : List NetworkWrite) : Option β :=
  writes.reverse.findSome? leaves

theorem latest?_concat {β : Type} (leaves : NetworkWrite → Option β) (writes : List NetworkWrite)
    (write : NetworkWrite) :
    latest? leaves (writes ++ [write]) = (leaves write).or (latest? leaves writes) := by
  unfold latest?
  rw [List.reverse_concat, List.findSome?_cons]
  cases leaves write <;> rfl

end NetworkWrite

namespace MaterialNetwork

open NetworkRead (answerOf)
open NetworkWrite

def writesOf (calls : List NetworkCall) : List NetworkWrite :=
  calls.filterMap fun
    | .read _ => none
    | .write write => some write

theorem Consistent.perform_read {α : Type} {network : MaterialNetwork} (h : network.Consistent)
    (read : NetworkRead α) :
    (network.perform (.read read)).finish = network.finish ∧
      (network.perform (.read read)).deletedNodes = network.deletedNodes := by
  obtain ⟨recent, heq, _⟩ := h.perform_read_eq read
  rw [heq]
  exact ⟨rfl, rfl⟩

theorem Consistent.mem_run_deletedNodes {network : MaterialNetwork} (h : network.Consistent)
    (calls : List NetworkCall) (node : Token) :
    node ∈ (network.run calls).deletedNodes
      ↔
    .deleteNode node ∈ writesOf calls ∨ node ∈ network.deletedNodes := by
  induction calls using List.reverseRecOn with
  | nil => simp [MaterialNetwork.run, writesOf]
  | append_singleton calls call ih =>
    have hrun := (h.run calls).1
    rw [run_concat]
    unfold writesOf at *
    rw [List.filterMap_append, List.mem_append]
    cases call with
    | read read =>
      rw [(hrun.perform_read read).2, ih]
      simp
    | write write =>
      dsimp only [MaterialNetwork.perform]
      rw [mem_performWrite_deletedNodes hrun.recent, ih]
      simp [eq_comm, or_comm, or_left_comm]

-- What `dead` says of a network, it says of all later ones.
theorem Consistent.run_view {β : Type} (view : Container → β) (leaves : NetworkWrite → Option β)
    (dead : MaterialNetwork → Prop)
    (hdead : ∀ {network : MaterialNetwork}, network.Consistent → ∀ call,
      dead network → dead (network.perform call))
    (hwrite : ∀ {network : MaterialNetwork}, network.Consistent → ∀ write,
      ¬ dead (network.performWrite write) →
      view (network.performWrite write).finish = (leaves write).getD (view network.finish))
    {network : MaterialNetwork} (h : network.Consistent) {calls : List NetworkCall}
    (hlive : ¬ dead (network.run calls)) :
    view (network.run calls).finish
      =
    (latest? leaves (writesOf calls)).getD (view network.finish) := by
  induction calls using List.reverseRecOn with
  | nil => rfl
  | append_singleton calls call ih =>
    have hrun := (h.run calls).1
    rw [run_concat] at *
    have ih := ih fun hbefore => hlive (hdead hrun call hbefore)
    unfold writesOf at *
    rw [List.filterMap_append]
    cases call with
    | read read =>
      rw [(hrun.perform_read read).1, ih]
      simp
    | write write =>
      have hlast := hwrite hrun write hlive
      dsimp only [MaterialNetwork.perform]
      rw [hlast, ih, List.filterMap_cons, List.filterMap_nil, latest?_concat]
      cases leaves write <;> rfl

theorem Consistent.run_node_view {β : Type} (view : Container → β)
    (leaves : NetworkWrite → Option β) {node : Token}
    (hwrite : ∀ {network : MaterialNetwork}, network.Consistent → ∀ write,
      node ∉ (network.performWrite write).deletedNodes →
      view (network.performWrite write).finish = (leaves write).getD (view network.finish))
    {network : MaterialNetwork} (h : network.Consistent) {calls : List NetworkCall}
    (hlive : node ∉ (network.run calls).deletedNodes) :
    view (network.run calls).finish
      =
    (latest? leaves (writesOf calls)).getD (view network.finish) := by
  apply Consistent.run_view view leaves (fun network => node ∈ network.deletedNodes) _ hwrite h
    hlive
  intro network h call hmem
  have hkept := h.mem_run_deletedNodes [call] node
  exact hkept.2 (.inr hmem)

structure Lacks (network : MaterialNetwork) (node : Token) : Prop where
  nodeType : network.answer (.nodeType node) = Token.unset
  typeInfoKeys : network.answer (.typeInfoKeys node) = []
  typeInfoValue : ∀ key, network.answer (.typeInfoValue node key) = none
  parameterNames : network.answer (.parameterNames node) = []
  parameterValue : ∀ name, network.answer (.parameterValue node name) = none
  parameter : ∀ name, network.answer (.parameter node name)
    = { value := none, colorSpace := Token.unset, typeName := Token.unset }
  inputNames : network.answer (.inputNames node) = []
  input : ∀ name, network.answer (.input node name) = []

/--
Whether the values that are read of a node are those that the last writes left, or those that a base
holds by itself if no write left one.
-/
structure Follows (network : MaterialNetwork) (base : Container) (prim : Option Container)
    (writes : List NetworkWrite) (node : Token) : Prop where
  nodeType : network.answer (.nodeType node)
    = (latest? (·.nodeType? node) writes).getD (answerOf base prim (.nodeType node))
  typeInfoValue : ∀ key, network.answer (.typeInfoValue node key)
    = (latest? (·.typeInfoValue? node key) writes).getD
      (answerOf base prim (.typeInfoValue node key))
  parameterValue : ∀ name, network.answer (.parameterValue node name)
    = (latest? (·.parameterValue? node name) writes).getD
      (answerOf base prim (.parameterValue node name))
  parameter : ∀ name, network.answer (.parameter node name)
    = let earlier := answerOf base prim (.parameter node name)
      let tokens := (latest? (·.parameterTokens? node name) writes).getD
        (earlier.colorSpace, earlier.typeName)
      { value := (latest? (·.parameterValue? node name) writes).getD earlier.value
        colorSpace := tokens.1
        typeName := tokens.2 }
  input : ∀ name, network.answer (.input node name)
    = (latest? (·.input? node name) writes).getD (answerOf base prim (.input node name))

theorem Consistent.lacks {network : MaterialNetwork} (h : network.Consistent) {node : Token}
    (hdeleted : node ∈ network.deletedNodes) : network.Lacks node := by
  have hnone := h.at?_eq_none_of_deleted hdeleted
  constructor
  all_goals
    intros
    rw [h.answer_eq]
    simp only [NetworkRead.answerOf, typeInfoLocator, parameterLocator, inputLocator,
      List.append_assoc, hnone]
    rfl

theorem Consistent.follows {network : MaterialNetwork} (h : network.Consistent)
    {calls : List NetworkCall} {node : Token} (hlive : node ∉ (network.run calls).deletedNodes) :
    (network.run calls).Follows network.finish network.prim (writesOf calls) node := by
  have hrun := (h.run calls).1
  have hparameterValue := fun name => Consistent.run_node_view
    (fun network => valueOf (network.at? (parameterLocator node name ++ ["value"])))
    (·.parameterValue? node name) (fun h write => h.parameterValue_performWrite write) h hlive
  constructor
  . rw [hrun.answer_eq]
    exact Consistent.run_node_view
      (fun network => tokenOf (network.at? (nodeLocator node ++ ["nodeIdentifier"])))
      (·.nodeType? node) (fun h write => h.nodeType_performWrite write) h hlive
  . intro key
    rw [hrun.answer_eq]
    exact Consistent.run_node_view
      (fun network => (network.at? (typeInfoLocator node ++ [key])).bind (·.toValue Time.zero))
      (·.typeInfoValue? node key) (fun h write => h.typeInfoValue_performWrite write) h hlive
  . intro name
    rw [hrun.answer_eq]
    exact hparameterValue name
  . intro name
    have htokens := Consistent.run_node_view (fun network => parameterTokens network node name)
      (·.parameterTokens? node name) (fun h write => h.parameterTokens_performWrite write) h hlive
    rw [hrun.answer_eq]
    dsimp only [answerOf]
    rw [← hparameterValue name]
    unfold parameterTokens at htokens
    rw [← htokens]
  . intro name
    rw [hrun.answer_eq]
    exact Consistent.run_node_view
      (fun network => NetworkRead.connectionsOf (network.at? (inputLocator node name)))
      (·.input? node name) (fun h write => h.input_performWrite write) h hlive

theorem Consistent.answer_terminal_run {network : MaterialNetwork} (h : network.Consistent)
    (calls : List NetworkCall) (name : Token) :
    (network.run calls).answer (.terminal name)
      =
    (latest? (·.terminal? name) (writesOf calls)).getD
      (answerOf network.finish network.prim (.terminal name)) := by
  rw [(h.run calls).1.answer_eq]
  exact Consistent.run_view
    (fun network => connectionOf (network.at? (terminalLocator name)))
    (·.terminal? name) (fun _ => False) (fun _ _ => id)
    (fun h write _ => h.terminal_performWrite write name) h id

theorem Consistent.answer_performWrite_of_not_concerns {α : Type} {network : MaterialNetwork}
    (h : network.Consistent) {read : NetworkRead α} {subject : NetworkSubject}
    {write : NetworkWrite} (hsubject : read.subject? = some subject)
    (hconcerns : ¬ write.Concerns subject) :
    (network.performWrite write).answer read = network.answer read := by
  have hafter := h.performWrite write
  rw [hafter.answer_eq, h.answer_eq]
  cases read with
  | nodeType node =>
    cases hsubject
    dsimp only [NetworkRead.answerOf]
    rw [h.performWrite_nodeType_of_not_concerns write hconcerns]
  | typeInfoValue node key =>
    cases hsubject
    dsimp only [NetworkRead.answerOf]
    by_cases hdead : node ∈ network.deletedNodes
    . have hkept := (mem_performWrite_deletedNodes h.recent write node).2 (.inr hdead)
      unfold typeInfoLocator
      rw [List.append_assoc, hafter.at?_eq_none_of_deleted hkept, h.at?_eq_none_of_deleted hdead]
    . have hlive : node ∉ (network.performWrite write).deletedNodes := by
        rw [mem_performWrite_deletedNodes h.recent, not_or]
        exact ⟨fun hdelete => hconcerns (.inr ⟨node, rfl, hdelete⟩), hdead⟩
      rw [h.typeInfoValue_performWrite write hlive, typeInfoValue?_eq_none hconcerns]
      rfl
  | parameterValue node name =>
    cases hsubject
    dsimp only [NetworkRead.answerOf]
    rw [h.performWrite_parameterField_of_not_concerns write hconcerns]
  | parameter node name =>
    cases hsubject
    dsimp only [NetworkRead.answerOf]
    simp only [h.performWrite_parameterField_of_not_concerns write hconcerns]
  | input node name =>
    cases hsubject
    dsimp only [NetworkRead.answerOf]
    rw [h.performWrite_input_of_not_concerns write hconcerns]
  | terminal name =>
    cases hsubject
    dsimp only [NetworkRead.answerOf]
    rw [h.performWrite_terminal_of_not_concerns write hconcerns]
  | _ => cases hsubject

theorem run_answers_latest (path : Path) (base : Container) (prim : Option Container)
    (calls : List NetworkCall) :
    let network := (new path base prim).run calls
    let writes := writesOf calls
    (∀ node, .deleteNode node ∈ writes → network.Lacks node) ∧
      (∀ node, .deleteNode node ∉ writes → network.Follows base prim writes node) ∧
      (∀ name, network.answer (.terminal name)
        = (latest? (·.terminal? name) writes).getD (answerOf base prim (.terminal name))) ∧
      ∀ {α : Type} (read : NetworkRead α) (subject : NetworkSubject) (write : NetworkWrite),
        read.subject? = some subject → ¬ write.Concerns subject →
        (network.performWrite write).answer read = network.answer read := by
  intro network writes
  have h : (new path base prim).Consistent := new_consistent path base prim
  have hmem : ∀ node, node ∈ network.deletedNodes ↔ .deleteNode node ∈ writes := by
    intro node
    rw [h.mem_run_deletedNodes]
    exact or_iff_left List.not_mem_nil
  refine ⟨?_, ?_, h.answer_terminal_run calls, ?_⟩
  . intro node hdeleted
    exact (h.run calls).1.lacks ((hmem node).2 hdeleted)
  . intro node hlive
    apply h.follows
    exact fun hdeleted => hlive ((hmem node).1 hdeleted)
  . intro α read subject write hsubject hconcerns
    exact (h.run calls).1.answer_performWrite_of_not_concerns hsubject hconcerns

-- A parameter is revived by its value alone, a node is not revived at all. What no write is about is
-- as the base has it.
theorem run_answers_latest_revived :
    let parameter (value : Value) : Source := .ofEntries
      [("value", some (.value value)), ("colorSpace", some (.value (.token "auto")))]
    let base := Container.ofEntries [
      ("nodes", some (.ofEntries [
        ("tex", some (.ofEntries [
          ("nodeIdentifier", some (.value (.token "UsdUVTexture"))),
          ("parameters", some (.ofEntries
            [("scale", some (parameter (.int 7))), ("bias", some (parameter (.int 8)))])),
          ("inputConnections", some (.ofEntries
            [("st", some (Connection.vector [⟨"uv", "result"⟩]))]))])),
        ("old", some (.ofEntries [("nodeIdentifier", some (.value (.token "Checker")))]))])),
      ("terminals", some (.ofEntries
        [("surface", some (Connection.container ⟨"tex", "rgb"⟩).source)]))]
    let calls : List NetworkCall := [
      .write (.setParameter "tex" "scale" ⟨some (.int 1), "raw", "float"⟩),
      .write (.deleteNode "old"),
      .read (.parameter "tex" "scale"),
      .write (.deleteParameter "tex" "scale"),
      .write (.setParameterValue "tex" "scale" (.int 2)),
      .write (.setNodeType "old" "UsdUVTexture")]
    let network := (new .root base none).run calls
    let later := network.performWrite (.setParameterValue "tex" "bias" (.int 3))
    .deleteNode "old" ∈ writesOf calls ∧ network.answer (.nodeType "old") = Token.unset ∧
      .deleteNode "tex" ∉ writesOf calls ∧
      network.answer (.nodeType "tex") = "UsdUVTexture" ∧
      network.answer (.parameter "tex" "scale") = ⟨some (.int 2), Token.unset, Token.unset⟩ ∧
      network.answer (.parameter "tex" "bias") = ⟨some (.int 8), "auto", Token.unset⟩ ∧
      network.answer (.input "tex" "st") = [⟨"uv", "result"⟩] ∧
      network.answer (.terminal "surface") = some ⟨"tex", "rgb"⟩ ∧
      later.answer (.parameter "tex" "scale") = network.answer (.parameter "tex" "scale") := by
  intro parameter base calls network later
  have hold : .deleteNode "old" ∈ writesOf calls := by simp [calls, writesOf]
  have htex : .deleteNode "tex" ∉ writesOf calls := by simp [calls, writesOf]
  have hconcerns : ¬ (NetworkWrite.setParameterValue "tex" "bias" (.int 3)).Concerns
      (.parameter "tex" "scale") := by
    simp [Concerns, subject?]
  obtain ⟨hlacks, hfollows, hterminal, hframe⟩ := run_answers_latest .root base none calls
  exact ⟨hold, (hlacks "old" hold).nodeType, htex, (hfollows "tex" htex).nodeType,
    (hfollows "tex" htex).parameter "scale", (hfollows "tex" htex).parameter "bias",
    (hfollows "tex" htex).input "st", hterminal "surface",
    hframe _ _ (.setParameterValue "tex" "bias" (.int 3)) rfl hconcerns⟩

end MaterialNetwork

end SceneTree
