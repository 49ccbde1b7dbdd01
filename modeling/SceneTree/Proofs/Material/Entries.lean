import SceneTree.Proofs.Edit.Entries
import SceneTree.Proofs.Edit.Faithful
import SceneTree.Proofs.Material.NodeNames

/-!
This module contains the listings of a network after any calls. Terminals, parameters and inputs are
listed by the edits of the network, and type info by the edits that are collected per node, yet all
listings follow from the writes in the same way.
-/

namespace SceneTree

namespace Container

def namesAt (c : Container) (place : Locator) : List Token :=
  Schema.namesOf ((c.at? place).bind Source.container?)

def NamesDistinct (c : Container) : Prop :=
  ∀ place, (c.namesAt place).Nodup

theorem namesDistinct_of_faithful {c : Container} (h : c.source.Faithful) : c.NamesDistinct := by
  intro place
  unfold namesAt
  cases hinner : (c.at? place).bind Source.container? with
  | none => exact List.nodup_nil
  | some inner =>
    obtain ⟨source, hsource, hcontainer⟩ := Option.bind_eq_some_iff.1 hinner
    have hfaithful := (h.at? hsource).container? hcontainer
    exact ((Source.faithful_container_iff inner).1 hfaithful).1.nodup

end Container

open MaterialNetwork

inductive NetworkCollection where
  | terminals
  | parameters (node : Token)
  | inputs (node : Token)
deriving DecidableEq

namespace NetworkCollection

def place : NetworkCollection → Locator
  | terminals => ["terminals"]
  | parameters node => nodeLocator node ++ ["parameters"]
  | inputs node => nodeLocator node ++ ["inputConnections"]

def node? : NetworkCollection → Option Token
  | terminals => none
  | parameters node => some node
  | inputs node => some node

def read : NetworkCollection → NetworkRead (List Token)
  | terminals => .terminalNames
  | parameters node => .parameterNames node
  | inputs node => .inputNames node

def IsLive (collection : NetworkCollection) (writes : List NetworkWrite) : Prop :=
  ∀ node, collection.node? = some node → .deleteNode node ∉ writes

theorem answerOf_read (collection : NetworkCollection) (network : Container)
    (prim : Option Container) :
    collection.read.answerOf network prim
      =
    network.namesAt collection.place := by
  cases collection with
  | terminals =>
    dsimp only [read, NetworkRead.answerOf]
    rw [Container.container?_eq_at?]
    rfl
  | parameters node => rfl
  | inputs node => rfl

end NetworkCollection

namespace NetworkWrite

def entryOf? : NetworkWrite → Option (NetworkCollection × Token)
  | setParameterValue node name _ => some (.parameters node, name)
  | setParameter node name _ => some (.parameters node, name)
  | deleteParameter node name => some (.parameters node, name)
  | setInput node name _ => some (.inputs node, name)
  | deleteInput node name => some (.inputs node, name)
  | setTerminal name _ => some (.terminals, name)
  | deleteTerminal name => some (.terminals, name)
  | _ => none

def typeInfoKey? (node : Token) : NetworkWrite → Option Token
  | setTypeInfoValue other key _ => if other = node then some key else none
  | _ => none

def historyOf (collection : NetworkCollection) (writes : List NetworkWrite) : EntryHistory :=
  writes.filterMap fun write =>
    match write.entryOf? with
    | some (written, name) => if written = collection then some (name, !write.isDeletion) else none
    | none => none

/--
The writes to the keys of the type info of a node, which are never deleted by themselves.
-/
def typeInfoHistory (node : Token) (writes : List NetworkWrite) : EntryHistory :=
  (writes.filterMap (typeInfoKey? node)).map (·, true)

section History

variable {write : NetworkWrite} {collection : NetworkCollection} {name : Token}

theorem historyOf_concat (h : write.entryOf? = some (collection, name))
    (writes : List NetworkWrite) :
    historyOf collection (writes ++ [write])
      =
    historyOf collection writes ++ [(name, !write.isDeletion)] := by
  unfold historyOf
  rw [List.filterMap_append]
  simp [h]

theorem historyOf_concat_of_ne (h : ∀ name, write.entryOf? ≠ some (collection, name))
    (writes : List NetworkWrite) :
    historyOf collection (writes ++ [write]) = historyOf collection writes := by
  unfold historyOf
  rw [List.filterMap_append]
  cases hentry : write.entryOf? with
  | none => simp [hentry]
  | some entry =>
    obtain ⟨written, name⟩ := entry
    have hne : written ≠ collection := fun heq => h name (heq ▸ hentry)
    simp [hentry, hne]

theorem node?_of_entryOf? (h : write.entryOf? = some (collection, name)) :
    write.node? = collection.node? := by
  cases write with
  | deleteNode | setNodeType | setTypeInfoValue => cases h
  | _ =>
    cases h
    rfl

theorem place_of_entryOf? (h : write.entryOf? = some (collection, name)) :
    ∃ rest, write.place = collection.place ++ name :: rest ∧
      (write.isDeletion = false ∨ rest = []) := by
  cases write with
  | deleteNode | setNodeType | setTypeInfoValue => cases h
  | setParameterValue other name value =>
    cases h
    exact ⟨["value"], rfl, .inl rfl⟩
  | _ =>
    cases h
    exact ⟨[], rfl, .inr rfl⟩

theorem not_isRelatedTo_of_entryOf?_ne (hentry : ∀ name, write.entryOf? ≠ some (collection, name))
    (hdelete : ∀ node, collection.node? = some node → write ≠ .deleteNode node) :
    ¬ collection.place.isRelatedTo write.place := by
  rw [Locator.isRelatedTo_iff]
  cases write <;> cases collection <;>
    simp_all [entryOf?, NetworkWrite.place, NetworkCollection.place, NetworkCollection.node?,
      nodeLocator, typeInfoLocator, parameterLocator, inputLocator, terminalLocator]
  all_goals grind

end History

end NetworkWrite

namespace MaterialNetwork

open NetworkWrite

/--
How the edits of the entries of collections, and of type info, come from the writes to a network.
-/
structure Collects (network : MaterialNetwork) (writes : List NetworkWrite) : Prop where
  entries : ∀ collection : NetworkCollection, collection.IsLive writes →
    network.editor.edits.HasEntries collection.place (historyOf collection writes)
  typeInfo : ∀ node, .deleteNode node ∉ writes →
    (network.typeInfoEditor node).HasEntries
      ((network.base.at? (typeInfoLocator node)).bind Source.container?)
      (typeInfoHistory node writes)

theorem new_collects (path : Path) (base : Container) (prim : Option Container) :
    (new path base prim).Collects [] where
  entries := fun collection _ => EditTree.blank_hasEntries collection.place
  typeInfo := fun node _ => by
    have hlive : node ∉ (new path base prim).deletedNodes := by simp [new]
    have hbelow := (new_consistent path base prim).typeInfoBelow_eq hlive
    unfold typeInfoEditor
    rw [hbelow]
    exact Editor.new_hasEntries _

section Step

variable {network : MaterialNetwork} {writes : List NetworkWrite} {write : NetworkWrite}

theorem typeInfoEditor_setTypeInfoValue (h : network.RecentValid) {node : Token}
    (hlive : node ∉ network.deletedNodes) (key : Token) (value : Value) :
    (network.setTypeInfoValue node key value).typeInfoEditor node
      =
    (network.typeInfoEditor node).set [key] (some (.value value)) := by
  obtain ⟨recent, _, heq⟩ := setTypeInfoValue_eq h hlive key value
  rw [heq]
  unfold MaterialNetwork.typeInfoEditor
  dsimp only
  rw [Dict.get?_insert, if_pos rfl, Option.getD_some]

theorem Consistent.typeInfoEditor_performWrite_of_ne (h : network.Consistent) {node : Token}
    (hlive : node ∉ (network.performWrite write).deletedNodes)
    (hkey : write.typeInfoKey? node = none) :
    (network.performWrite write).typeInfoEditor node = network.typeInfoEditor node := by
  have hbefore := hlive
  rw [mem_performWrite_deletedNodes h.recent, not_or] at hbefore
  have hbelow : (network.performWrite write).typeInfoBelow node = network.typeInfoBelow node := by
    rw [(h.performWrite write).typeInfoBelow_eq hlive, h.typeInfoBelow_eq hbefore.2,
      performWrite_base h.recent]
  have hedits : Dict.get? (network.performWrite write).typeInfoEdits node
      = Dict.get? network.typeInfoEdits node := by
    cases write with
    | deleteNode other =>
      dsimp only [MaterialNetwork.performWrite]
      have hne : other ≠ node := fun heq => hbefore.1 (congrArg _ heq)
      by_cases hdeleted : other ∈ network.deletedNodes
      . rw [deleteNode_of_deleted hdeleted]
      . rw [deleteNode_eq hdeleted, Dict.get?_erase, if_neg hne]
    | setTypeInfoValue other key value =>
      dsimp only [MaterialNetwork.performWrite]
      have hne : other ≠ node := by
        rintro rfl
        simp [typeInfoKey?] at hkey
      by_cases hdeleted : other ∈ network.deletedNodes
      . rw [setTypeInfoValue_of_deleted hdeleted]
      . obtain ⟨recent, _, heq⟩ := setTypeInfoValue_eq h.recent hdeleted key value
        rw [heq, Dict.get?_insert, if_neg hne]
    | _ => exact congrArg (Dict.get? · node) (write_typeInfoEdits _ _ _)
  unfold MaterialNetwork.typeInfoEditor
  rw [hbelow, hedits]

theorem Collects.performWrite_entries (h : network.Collects writes)
    (hrecords : network.Records writes) (hrecent : network.RecentValid)
    {collection : NetworkCollection} (hlive : collection.IsLive (writes ++ [write])) :
    (network.performWrite write).editor.edits.HasEntries collection.place
      (historyOf collection (writes ++ [write])) := by
  have hbefore : collection.IsLive writes :=
    fun node hnode hmem => hlive node hnode (List.mem_append_left _ hmem)
  have hentries := h.entries collection hbefore
  cases hdeleted : network.isDeleted write.place with
  | true =>
    obtain ⟨node, hnode, hmem⟩ := hrecords.isDeleted_place_iff.1 hdeleted
    rw [performWrite_of_isDeleted hdeleted, historyOf_concat_of_ne]
    . exact hentries
    . intro name hentry
      exact hbefore node (node?_of_entryOf? hentry ▸ hnode) hmem
  | false =>
    rw [(performWrite_wrote hrecent hdeleted).edits]
    by_cases hentry : ∃ name, write.entryOf? = some (collection, name)
    . obtain ⟨name, hentry⟩ := hentry
      obtain ⟨rest, hplace, hrest⟩ := place_of_entryOf? hentry
      have hputs := write.isReplace_write_source network
      rw [historyOf_concat hentry, hplace, ← hputs]
      apply hentries.record name (Editor.write_ne_keep _)
      rw [hputs]
      exact hrest.imp_left fun hkept => by rw [hkept]; rfl
    . rw [not_exists] at hentry
      rw [historyOf_concat_of_ne hentry]
      apply hentries.record_of_not_isRelatedTo
      apply not_isRelatedTo_of_entryOf?_ne hentry
      rintro node hnode rfl
      exact hlive node hnode (by simp)

theorem Collects.performWrite_typeInfo (h : network.Collects writes)
    (hrecords : network.Records writes) (hconsistent : network.Consistent) {node : Token}
    (hlive : .deleteNode node ∉ writes ++ [write]) :
    ((network.performWrite write).typeInfoEditor node).HasEntries
      (((network.performWrite write).base.at? (typeInfoLocator node)).bind Source.container?)
      (typeInfoHistory node (writes ++ [write])) := by
  have hrecent := hconsistent.recent
  have hafter : node ∉ (network.performWrite write).deletedNodes := by
    rwa [(hrecords.performWrite hrecent write).deletedNodes]
  have hbefore : .deleteNode node ∉ writes := fun hmem => hlive (List.mem_append_left _ hmem)
  have hentries := h.typeInfo node hbefore
  rw [performWrite_base hrecent]
  unfold typeInfoHistory at *
  rw [List.filterMap_append, List.map_append, List.filterMap_cons, List.filterMap_nil]
  cases hkey : write.typeInfoKey? node with
  | none =>
    rw [hconsistent.typeInfoEditor_performWrite_of_ne hafter hkey]
    simpa using hentries
  | some name =>
    cases write with
    | setTypeInfoValue other key value =>
      dsimp only [typeInfoKey?] at hkey
      split at hkey
      . next heq =>
        cases hkey
        subst heq
        dsimp only [performWrite]
        rw [typeInfoEditor_setTypeInfoValue hrecent (mt (hrecords.deletedNodes other).1 hbefore)]
        exact hentries.set _ _
      . cases hkey
    | _ => cases hkey

theorem Collects.run {network : MaterialNetwork} (h : network.Collects [])
    (hrecords : network.Records []) (hconsistent : network.Consistent)
    (calls : List NetworkCall) : (network.run calls).Collects (writesOf calls) := by
  induction calls using List.reverseRecOn with
  | nil => exact h
  | append_singleton calls call ih =>
    have hrun := (hconsistent.run calls).1
    have hrecords := hrecords.run hconsistent calls
    rw [run_concat]
    unfold writesOf at *
    rw [List.filterMap_append]
    cases call with
    | read read =>
      obtain ⟨recent, heq, _⟩ := hrun.perform_read_eq read
      rw [heq, List.filterMap_cons, List.filterMap_nil, List.append_nil]
      exact ⟨ih.entries, ih.typeInfo⟩
    | write write => exact {
        entries := fun _ hlive => ih.performWrite_entries hrecords hrun.recent hlive
        typeInfo := fun _ hlive => ih.performWrite_typeInfo hrecords hrun hlive }

end Step

/-! ## Listings -/

section Read

variable {network : MaterialNetwork} {writes : List NetworkWrite}
variable (h : network.Collects writes) (hconsistent : network.Consistent)

theorem Records.editAt_of_isUnder_collection (h : network.Records writes)
    {collection : NetworkCollection} (hlive : collection.IsLive writes) {step : Locator}
    (hstep : collection.place.isUnder step) : network.editor.edits.editAt step = .keep := by
  by_contra hne
  obtain ⟨write, hwrite, rfl⟩ := h.places step hne
  by_cases hentry : ∃ name, write.entryOf? = some (collection, name)
  . obtain ⟨name, hentry⟩ := hentry
    obtain ⟨rest, hplace, _⟩ := place_of_entryOf? hentry
    rw [hplace] at hstep
    have heq := Locator.isUnder_antisymm hstep (Locator.append_isUnder _ _)
    simp at heq
  . rw [not_exists] at hentry
    have hrelated := not_isRelatedTo_of_entryOf?_ne hentry fun node hnode hdelete =>
      hlive node hnode (hdelete ▸ hwrite)
    exact hrelated (Locator.isRelatedTo_iff.2 (.inl hstep))

include h hconsistent

theorem Collects.answer_read (hrecords : network.Records writes)
    {collection : NetworkCollection} (hlive : collection.IsLive writes)
    (hnodup : (network.base.namesAt collection.place).Nodup) :
    network.answer collection.read
      =
    (historyOf collection writes).namesAfter (network.base.namesAt collection.place) := by
  have hat : network.finish.at? collection.place
      = network.editor.edits.at? (some network.base.source) collection.place := by
    cases collection <;> exact hconsistent.finish_at?_cons _ _
  rw [hconsistent.answer_eq, collection.answerOf_read]
  unfold Container.namesAt
  rw [hat]
  exact (h.entries collection hlive).names_at? hconsistent.editor.wellFormed hrecords.distinct
    (fun _ => hrecords.editAt_of_isUnder_collection hlive) hnodup

theorem Collects.answer_typeInfoKeys {node : Token} (hlive : .deleteNode node ∉ writes)
    (hdeleted : node ∉ network.deletedNodes)
    (hnodup : (network.base.namesAt (typeInfoLocator node)).Nodup) :
    network.answer (.typeInfoKeys node)
      =
    network.base.namesAt (typeInfoLocator node) ++
      (writes.filterMap (typeInfoKey? node)).eraseDups.filter fun key =>
        key ∉ network.base.namesAt (typeInfoLocator node) := by
  have hfinish : network.finish.namesAt (typeInfoLocator node)
      = (network.typeInfoEditor node).finish.names := by
    unfold Container.namesAt MaterialNetwork.typeInfoEditor
    rw [hconsistent.finish_eq, (hconsistent.typeInfo node hdeleted).2]
    cases Dict.get? network.typeInfoEdits node with
    | some edits => rfl
    | none =>
      dsimp only [Option.getD_none]
      rw [hconsistent.typeInfoBelow_eq hdeleted]
      cases (network.base.at? (typeInfoLocator node)).bind Source.container? <;> rfl
  rw [hconsistent.answer_eq]
  change network.finish.namesAt (typeInfoLocator node) = _
  rw [hfinish, (h.typeInfo node hlive).finish_names_of_nodup hnodup]
  exact EntryHistory.namesAfter_map_true _ _

end Read

theorem answer_names_run_eq (path : Path) (base : Container) (prim : Option Container)
    (calls : List NetworkCall) (h : base.NamesDistinct) :
    let network := (new path base prim).run calls
    let writes := writesOf calls
    network.answer .terminalNames
        = (historyOf .terminals writes).namesAfter (base.namesAt ["terminals"]) ∧
      ∀ node, .deleteNode node ∉ writes →
        network.answer (.parameterNames node)
            = (historyOf (.parameters node) writes).namesAfter
              (base.namesAt (nodeLocator node ++ ["parameters"])) ∧
          network.answer (.inputNames node)
            = (historyOf (.inputs node) writes).namesAfter
              (base.namesAt (nodeLocator node ++ ["inputConnections"])) ∧
          network.answer (.typeInfoKeys node)
            = let keys := base.namesAt (nodeLocator node ++ ["nodeTypeInfo"])
              keys ++
                (writes.filterMap (typeInfoKey? node)).eraseDups.filter fun key => key ∉ keys := by
  intro network writes
  have hnew := new_consistent path base prim
  have hnewRecords := new_records path base prim
  have hconsistent : network.Consistent := (hnew.run calls).1
  have hrecords : network.Records writes := hnewRecords.run hnew calls
  have hcollects : network.Collects writes :=
    (new_collects path base prim).run hnewRecords hnew calls
  have hbase : network.base = base := hnew.run_base calls
  have hread : ∀ collection : NetworkCollection, collection.IsLive writes →
      network.answer collection.read
        = (historyOf collection writes).namesAfter (base.namesAt collection.place) := by
    intro collection hlive
    rw [← hbase]
    exact hcollects.answer_read hconsistent hrecords hlive (hbase ▸ h collection.place)
  refine ⟨hread .terminals (by simp [NetworkCollection.IsLive, NetworkCollection.node?]), ?_⟩
  intro node hlive
  have hkeys := hcollects.answer_typeInfoKeys hconsistent hlive
    (mt (hrecords.deletedNodes node).1 hlive) (hbase ▸ h (typeInfoLocator node))
  rw [hbase] at hkeys
  refine ⟨hread (.parameters node) ?_, hread (.inputs node) ?_, hkeys⟩
  . rintro _ ⟨⟩
    exact hlive
  . rintro _ ⟨⟩
    exact hlive

-- An entry that is deleted and set again stays where it was, and one that was deleted first comes
-- before the others that were added.
theorem answer_names_run_eq_restored :
    let leaf := some (Source.value (.int 1))
    let node := Source.ofEntries [
      ("parameters", some (.ofEntries [("a", leaf), ("b", leaf)])),
      ("nodeTypeInfo", some (.ofEntries [("role", leaf)]))]
    let base := Container.ofEntries [
      ("nodes", some (.ofEntries [("n", some node)])),
      ("terminals", some (.ofEntries [("surface", leaf), ("volume", leaf)]))]
    let calls : List NetworkCall := [
      .write (.deleteTerminal "surface"),
      .write (.deleteTerminal "displacement"),
      .write (.setTerminal "light" default),
      .write (.setTerminal "surface" default),
      .write (.setTerminal "displacement" default),
      .write (.deleteParameter "n" "a"),
      .read (.parameterNames "n"),
      .write (.setParameterValue "n" "c" (.int 2)),
      .write (.setInput "n" "st" []),
      .write (.deleteInput "n" "st"),
      .write (.setTypeInfoValue "n" "purpose" (.int 3)),
      .write (.setTypeInfoValue "n" "role" (.int 4))]
    let network := (new .root base none).run calls
    base.NamesDistinct ∧ .deleteNode "n" ∉ writesOf calls ∧
      network.answer .terminalNames = ["surface", "volume", "displacement", "light"] ∧
      network.answer (.parameterNames "n") = ["b", "c"] ∧
      network.answer (.inputNames "n") = [] ∧
      network.answer (.typeInfoKeys "n") = ["role", "purpose"] := by
  intro leaf node base calls network
  have hleaf : (Source.value (.int 1)).Faithful := Source.faithful_sampled _
  have hnode : node.Faithful := by
    have hparameters : (Source.ofEntries [("a", leaf), ("b", leaf)]).Faithful := by
      apply Source.faithful_ofEntries
      simpa [leaf] using hleaf
    have htypeInfo : (Source.ofEntries [("role", leaf)]).Faithful := by
      apply Source.faithful_ofEntries
      simpa [leaf] using hleaf
    apply Source.faithful_ofEntries
    simpa using ⟨hparameters, htypeInfo⟩
  have hbase : base.source.Faithful := by
    have hnodes : (Source.ofEntries [("n", some node)]).Faithful := by
      apply Source.faithful_ofEntries
      simpa using hnode
    have hterminals : (Source.ofEntries [("surface", leaf), ("volume", leaf)]).Faithful := by
      apply Source.faithful_ofEntries
      simpa [leaf] using hleaf
    apply Source.faithful_ofEntries
    simpa using ⟨hnodes, hterminals⟩
  have hdistinct := Container.namesDistinct_of_faithful hbase
  have hlive : .deleteNode "n" ∉ writesOf calls := by simp [calls, writesOf]
  obtain ⟨hterminals, hof⟩ := answer_names_run_eq .root base none calls hdistinct
  obtain ⟨hparameters, hinputs, hkeys⟩ := hof "n" hlive
  refine ⟨hdistinct, hlive, hterminals.trans ?_, hparameters.trans ?_, hinputs.trans ?_,
    hkeys.trans ?_⟩
  all_goals decide

end MaterialNetwork

end SceneTree
