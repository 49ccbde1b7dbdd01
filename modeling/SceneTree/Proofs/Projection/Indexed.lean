import SceneTree.Proofs.Projection.Columns

/-!
This module contains mapping trees whose nodes are columns and are read and changed by their places
only, with no answer where a place is missing. Mappings are added to such a tree as to the one with
the same nodes, so no place is ever missing.
-/

namespace SceneTree

structure IndexedTree where
  nodes : List MappingColumns

namespace IndexedTree

def empty : IndexedTree := ⟨[.empty]⟩

def lookup? (tree : IndexedTree) (index : Nat) (name : Token) : Option (Except Nat MappingSlot) :=
  tree.nodes[index]?.bind (·.lookup? name)

def read? (tree : IndexedTree) (index : Nat) (name : Token) : Option (Option MappingSlot) :=
  (tree.lookup? index name).map Except.toOption

def slotAt? (tree : IndexedTree) (index place : Nat) : Option MappingSlot :=
  tree.nodes[index]?.bind (·.slots[place]?)

def addSlot? (tree : IndexedTree) (index place : Nat) (name : Token) (slot : MappingSlot) :
    Option IndexedTree := do
  let node ← tree.nodes[index]?
  let later ← node.insert? place name slot
  return ⟨tree.nodes.set index later⟩

def enter? (tree : IndexedTree) (index : Nat) (name : Token) :
    Option (Except Token Nat × IndexedTree) := do
  match ← tree.lookup? index name with
  | .ok (.node child) => return (.ok child, tree)
  | .ok (.property existing) => return (.error existing.name, tree)
  | .error place =>
    let child := tree.nodes.length
    let tree : IndexedTree := ⟨tree.nodes ++ [.empty]⟩
    return (.ok child, ← tree.addSlot? index place name (.node child))

def descend? (tree : IndexedTree) (index : Nat) :
    List Token → Option (Except Token Nat × IndexedTree)
  | [] => some (.ok index, tree)
  | name :: rest => do
    match ← tree.enter? index name with
    | (.ok child, tree) => tree.descend? child rest
    | failed => return failed

def add? (tree : IndexedTree) (locator : Locator) (mapping : PropertyMapping) :
    Option (Option MappingIssue × IndexedTree) :=
  match locator.getLast? with
  | none => some (some (.emptyLocator mapping.name), tree)
  | some name => do
    match ← tree.descend? 0 locator.dropLast with
    | (.error existing, tree) =>
      return (some (.locatorOccupied mapping.name locator existing), tree)
    | (.ok index, tree) =>
      match ← tree.lookup? index name with
      | .ok (.property existing) =>
        return (some (.locatorOccupied mapping.name locator existing.name), tree)
      | .ok (.node _) => return (some (.containerOccupied mapping.name locator), tree)
      | .error place => return (none, ← tree.addSlot? index place name (.property mapping))

def run? (tree : IndexedTree) (calls : List (Locator × PropertyMapping)) : Option IndexedTree :=
  calls.foldlM (fun tree call => (tree.add? call.1 call.2).map (·.2)) tree

end IndexedTree

namespace MappingTree

def indexed (tree : MappingTree) : IndexedTree :=
  ⟨tree.nodes.map MappingNode.columns⟩

def run (tree : MappingTree) (calls : List (Locator × PropertyMapping)) : MappingTree :=
  calls.foldl (fun tree call => (tree.add call.1 call.2).2) tree

theorem length_indexed (tree : MappingTree) : tree.indexed.nodes.length = tree.nodes.length :=
  List.length_map _

theorem nodes_getElem? (tree : MappingTree) {index : Nat} (h : index < tree.nodes.length) :
    tree.nodes[index]? = some (tree.node index) := by
  unfold node
  rw [List.getElem?_eq_getElem h, List.getD_eq_getElem _ _ h]

theorem indexed_getElem? (tree : MappingTree) {index : Nat} (h : index < tree.nodes.length) :
    tree.indexed.nodes[index]? = some (tree.node index).columns := by
  unfold indexed
  rw [List.getElem?_map, tree.nodes_getElem? h]
  rfl

theorem eq_columns_of_indexed_getElem? {tree : MappingTree} {index : Nat}
    {node : MappingColumns} (h : tree.indexed.nodes[index]? = some node) :
    index < tree.nodes.length ∧ node = (tree.node index).columns := by
  have hlt := (List.getElem?_eq_some_iff.1 h).1
  rw [length_indexed] at hlt
  rw [tree.indexed_getElem? hlt] at h
  exact ⟨hlt, (Option.some.inj h).symm⟩

theorem addSlot_eq_set (tree : MappingTree) (index : Nat) (name : Token) (slot : MappingSlot) :
    tree.addSlot index name slot = ⟨tree.nodes.set index ((tree.node index).add name slot)⟩ := by
  unfold addSlot node
  rw [List.modify_eq_set, List.getD_eq_getElem?_getD]
  rfl

section Step

variable {tree : MappingTree} {index : Nat} (hindex : index < tree.nodes.length) {name : Token}
include hindex

theorem addSlot?_indexed {place : Nat} {slot : MappingSlot}
    (hinsert : (tree.node index).columns.insert? place name slot
      = some ((tree.node index).add name slot).columns) :
    tree.indexed.addSlot? index place name slot = some (tree.addSlot index name slot).indexed := by
  unfold IndexedTree.addSlot?
  rw [tree.indexed_getElem? hindex, addSlot_eq_set]
  simp only [Option.bind_eq_bind, Option.bind_some, hinsert]
  unfold indexed
  rw [List.map_set]
  rfl

theorem addSlot?_indexed_append {place : Nat} {slot : MappingSlot}
    (hinsert : (tree.node index).columns.insert? place name slot
      = some ((tree.node index).add name slot).columns) :
    IndexedTree.addSlot? ⟨tree.indexed.nodes ++ [.empty]⟩ index place name slot
      =
    some (indexed ⟨(tree.addSlot index name slot).nodes ++ [[]]⟩) := by
  let fresh : MappingTree := ⟨tree.nodes ++ [[]]⟩
  have hnode : fresh.node index = tree.node index := by
    unfold node
    exact List.getD_append _ _ _ _ hindex
  have hadd : fresh.addSlot index name slot = ⟨(tree.addSlot index name slot).nodes ++ [[]]⟩ := by
    rw [addSlot_eq_set, addSlot_eq_set, hnode]
    exact congrArg mk (List.set_append_left _ _ hindex)
  have hfresh : fresh.indexed = ⟨tree.indexed.nodes ++ [.empty]⟩ := by
    unfold indexed
    rw [List.map_append]
    rfl
  have hlt : index < fresh.nodes.length := by
    rw [List.length_append]
    exact Nat.lt_add_right _ hindex
  rw [← hfresh, ← hadd]
  exact addSlot?_indexed hlt (hnode ▸ hinsert)

end Step

section Ascending

variable {tree : MappingTree} (h : tree.Ascending) {index : Nat}
variable (hindex : index < tree.nodes.length) {name : Token}
include h hindex

theorem Ascending.lookup?_indexed_of_some {slot : MappingSlot}
    (hslot : tree.slot? index name = some slot) :
    tree.indexed.lookup? index name = some (.ok slot) := by
  unfold IndexedTree.lookup?
  rw [tree.indexed_getElem? hindex]
  exact MappingNode.lookup?_columns_of_some (h index) hslot

theorem Ascending.lookup?_indexed_of_none (hnone : tree.slot? index name = none) :
    ∃ place, tree.indexed.lookup? index name = some (.error place) ∧
      ∀ slot, (tree.node index).columns.insert? place name slot
        = some ((tree.node index).add name slot).columns := by
  unfold IndexedTree.lookup?
  rw [tree.indexed_getElem? hindex]
  exact MappingNode.lookup?_columns_of_none (h index) hnone

theorem Ascending.read?_indexed (name : Token) :
    tree.indexed.read? index name = some (tree.slot? index name) := by
  unfold IndexedTree.read?
  cases hslot : tree.slot? index name with
  | none =>
    obtain ⟨place, hlookup, _⟩ := h.lookup?_indexed_of_none hindex hslot
    rw [hlookup]
    rfl
  | some slot =>
    rw [h.lookup?_indexed_of_some hindex hslot]
    rfl

theorem Ascending.enter?_indexed (name : Token) :
    tree.indexed.enter? index name
      =
    some ((tree.enter index name).1, (tree.enter index name).2.indexed) := by
  unfold IndexedTree.enter?
  rcases tree.enter_cases index name with
    ⟨child, hslot, henter⟩ | ⟨existing, hslot, henter⟩ | ⟨hnew, henter⟩
  . rw [henter, h.lookup?_indexed_of_some hindex hslot]
    rfl
  . rw [henter, h.lookup?_indexed_of_some hindex hslot]
    rfl
  . obtain ⟨place, hlookup, hinsert⟩ := h.lookup?_indexed_of_none hindex hnew
    rw [henter, hlookup, length_indexed]
    simp only [Option.bind_eq_bind, Option.bind_some]
    rw [addSlot?_indexed_append hindex (hinsert _)]
    rfl

theorem Ascending.descend?_indexed (hformed : tree.WellFormed) (names : Locator) :
    tree.indexed.descend? index names
      =
    some ((tree.descend index names).1, (tree.descend index names).2.indexed) := by
  induction names generalizing tree index with
  | nil => rfl
  | cons name rest ih =>
    obtain ⟨hgrown, hslot⟩ := hformed.enter hindex name
    have hentered := h.enter hindex name
    unfold IndexedTree.descend? MappingTree.descend
    rw [h.enter?_indexed hindex name]
    generalize tree.enter index name = entered at *
    obtain ⟨answer, later⟩ := entered
    cases answer with
    | error existing => rfl
    | ok child =>
      have hchild := hgrown.wellFormed.forward _ _ _ (hslot child rfl)
      exact ih hentered hchild.2 hgrown.wellFormed

end Ascending

theorem Ascending.add?_indexed {tree : MappingTree} (h : tree.Ascending)
    (hformed : tree.WellFormed) (locator : Locator) (mapping : PropertyMapping) :
    tree.indexed.add? locator mapping
      =
    some ((tree.add locator mapping).1, (tree.add locator mapping).2.indexed) := by
  unfold IndexedTree.add? MappingTree.add
  cases locator.getLast? with
  | none => rfl
  | some name =>
    have hdescend := h.descend hformed.nonempty hformed locator.dropLast
    obtain ⟨hgrown, hreach⟩ := hformed.descend hformed.nonempty locator.dropLast
    dsimp only
    rw [h.descend?_indexed hformed.nonempty hformed]
    generalize tree.descend 0 locator.dropLast = result at *
    obtain ⟨answer, later⟩ := result
    cases answer with
    | error existing => rfl
    | ok target =>
      have hlater := hgrown.wellFormed
      have htarget := hlater.reach?_lt hlater.nonempty (hreach target rfl)
      simp only [Option.bind_eq_bind, Option.bind_some]
      cases hslot : Dict.get? (later.node target) name with
      | none =>
        obtain ⟨place, hlookup, hinsert⟩ := hdescend.lookup?_indexed_of_none htarget hslot
        rw [hlookup]
        simp only [Option.bind_some]
        rw [addSlot?_indexed htarget (hinsert _)]
        rfl
      | some slot =>
        rw [hdescend.lookup?_indexed_of_some htarget hslot]
        cases slot <;> rfl

theorem Ascending.run?_indexed {tree : MappingTree} (h : tree.Ascending)
    (hformed : tree.WellFormed) (calls : List (Locator × PropertyMapping)) :
    tree.indexed.run? calls = some (tree.run calls).indexed := by
  induction calls generalizing tree with
  | nil => rfl
  | cons call rest ih =>
    have hrest := ih (h.add hformed call.1 call.2) (hformed.add call.1 call.2).wellFormed
    unfold IndexedTree.run? at hrest ⊢
    rw [List.foldlM_cons, h.add?_indexed hformed]
    exact hrest

end MappingTree

end SceneTree
