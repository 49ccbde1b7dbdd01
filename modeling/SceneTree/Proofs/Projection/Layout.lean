import SceneTree.Proofs.Projection.Indexed
import SceneTree.Proofs.Projection.Rejected
import SceneTree.Proofs.Projection.Served

/-!
This module contains how the nodes of a mapping tree are laid out after any mappings were added,
also such that were left out: every node but the root is referred to from one place, which is in an
earlier node, and holds something. So each step down a tree finds its node and leads to a later one,
and every way down ends at a mapping.
-/

namespace SceneTree

/--
How the nodes of a tree are laid out: the names of each ascend beside their slots, which only refer
to later nodes, and every node but the root is referred to from one place and holds something.
-/
structure IndexedTree.LaidOut (tree : IndexedTree) : Prop where
  root : 0 < tree.nodes.length
  ascending : ∀ node ∈ tree.nodes, node.names.Pairwise (· < ·)
  parallel : ∀ node ∈ tree.nodes, node.names.length = node.slots.length
  forward : ∀ index place child, tree.slotAt? index place = some (.node child) →
    index < child ∧ child < tree.nodes.length
  single : ∀ child, 0 < child → child < tree.nodes.length →
    ∃! place : Nat × Nat, tree.slotAt? place.1 place.2 = some (.node child)
  filled : ∀ index node, 0 < index → tree.nodes[index]? = some node → node.names ≠ []

namespace MappingTree

/--
Whether every node but the root is referred to, and holds something unless it is a given one, which
was just added.
-/
structure Joined (tree : MappingTree) (fresh : Nat) : Prop where
  linked : ∀ child, 0 < child → child < tree.nodes.length →
    ∃ index name, tree.slot? index name = some (.node child)
  filled : ∀ index, 0 < index → index < tree.nodes.length → index ≠ fresh →
    ∃ name slot, tree.slot? index name = some slot

theorem empty_joined : empty.Joined 0 where
  linked := fun _ hpos hlt => absurd hlt (Nat.not_lt_of_le hpos)
  filled := fun _ hpos hlt _ => absurd hlt (Nat.not_lt_of_le hpos)

section Joined

variable {tree : MappingTree} {index : Nat} (h : tree.Joined index) {name : Token}
include h

theorem Joined.of_slot? {slot : MappingSlot} (hslot : tree.slot? index name = some slot)
    (fresh : Nat) : tree.Joined fresh where
  linked := h.linked
  filled := by
    intro other hpos hlt _
    by_cases heq : other = index
    . exact ⟨name, slot, heq ▸ hslot⟩
    . exact h.filled other hpos hlt heq

variable (hindex : index < tree.nodes.length) (hnew : tree.slot? index name = none)
include hindex hnew

theorem Joined.addSlot (slot : MappingSlot) (fresh : Nat) :
    (tree.addSlot index name slot).Joined fresh := by
  have hslot := slot?_addSlot hindex hnew slot
  have hkept : ∀ other otherName held, tree.slot? other otherName = some held →
      (tree.addSlot index name slot).slot? other otherName = some held := by
    intro other otherName held hold
    rw [hslot, if_neg]
    . exact hold
    . rintro ⟨rfl, rfl⟩
      cases hnew.symm.trans hold
  constructor
  . intro child hpos hlt
    rw [length_addSlot] at hlt
    obtain ⟨other, otherName, hold⟩ := h.linked child hpos hlt
    exact ⟨other, otherName, hkept _ _ _ hold⟩
  . intro other hpos hlt _
    rw [length_addSlot] at hlt
    by_cases heq : other = index
    . exact ⟨name, slot, by rw [hslot, if_pos ⟨heq.symm, rfl⟩]⟩
    . obtain ⟨otherName, held, hold⟩ := h.filled other hpos hlt heq
      exact ⟨otherName, held, hkept _ _ _ hold⟩

-- The slot that is added fills its node, and the node that it refers to is still empty.
theorem Joined.withChild : (tree.withChild index name).Joined tree.nodes.length := by
  have hgrown := h.addSlot hindex hnew (.node tree.nodes.length) tree.nodes.length
  have hslot : ∀ other otherName, (tree.withChild index name).slot? other otherName
      = (tree.addSlot index name (.node tree.nodes.length)).slot? other otherName := by
    intro other otherName
    unfold slot?
    rw [node_withChild]
  constructor
  . intro child hpos hlt
    rw [length_withChild] at hlt
    rcases Nat.lt_or_eq_of_le (Nat.le_of_lt_succ hlt) with hold | hchild
    . obtain ⟨other, otherName, hother⟩ := hgrown.linked child hpos (by rwa [length_addSlot])
      exact ⟨other, otherName, (hslot _ _).trans hother⟩
    . refine ⟨index, name, ?_⟩
      rw [slot?_withChild hindex hnew, if_pos ⟨rfl, rfl⟩, hchild]
  . intro other hpos hlt hne
    rw [length_withChild] at hlt
    obtain ⟨otherName, held, hother⟩ :=
      hgrown.filled other hpos (by rw [length_addSlot]; omega) hne
    exact ⟨otherName, held, (hslot _ _).trans hother⟩

end Joined

-- The induction is on the names. The node that is entered last is the only one that may be empty.
theorem Joined.descend {tree : MappingTree} {index : Nat} (h : tree.Joined index)
    (hformed : tree.WellFormed) (hindex : index < tree.nodes.length) {names : Locator}
    {target : Nat} (htarget : (tree.descend index names).1 = .ok target) :
    (tree.descend index names).2.Joined target := by
  induction names generalizing tree index with
  | nil =>
    cases htarget
    exact h
  | cons name rest ih =>
    unfold MappingTree.descend at htarget ⊢
    rcases tree.enter_cases index name with
      ⟨child, hslot, henter⟩ | ⟨existing, _, henter⟩ | ⟨hnew, henter⟩
    . rw [henter] at htarget ⊢
      exact ih (h.of_slot? hslot child) hformed (hformed.forward _ _ _ hslot).2 htarget
    . rw [henter] at htarget
      cases htarget
    . rw [henter] at htarget ⊢
      have hlength := tree.length_withChild index name
      exact ih (h.withChild hindex hnew) (hformed.withChild hindex hnew) (by omega) htarget

theorem Joined.add {tree : MappingTree} (h : tree.Joined 0) (hformed : tree.WellFormed)
    (locator : Locator) (mapping : PropertyMapping) : (tree.add locator mapping).2.Joined 0 := by
  cases hanswer : (tree.add locator mapping).1 with
  | some issue =>
    rw [hformed.add_of_issue mapping hanswer]
    exact h
  | none =>
    obtain ⟨above, name, target, _, htarget, hnew, hadd⟩ := exists_eq_addSlot_of_add hanswer
    obtain ⟨hgrown, hreach⟩ := hformed.descend hformed.nonempty above
    have hlater := hgrown.wellFormed
    have hlt := hlater.reach?_lt hlater.nonempty (hreach target htarget)
    rw [hadd]
    exact (h.descend hformed hformed.nonempty htarget).addSlot hlt hnew _ 0

theorem Ascending.slotAt?_indexed_eq_some_iff {tree : MappingTree} (h : tree.Ascending)
    {index place : Nat} {slot : MappingSlot} :
    tree.indexed.slotAt? index place = some slot
      ↔
    ∃ name, (Dict.keys (tree.node index))[place]? = some name ∧
      tree.slot? index name = some slot := by
  unfold IndexedTree.slotAt?
  rcases Nat.lt_or_ge index tree.nodes.length with hlt | hge
  . rw [tree.indexed_getElem? hlt, Option.bind_some]
    constructor
    . intro hslot
      have hplace := (List.getElem?_eq_some_iff.1 hslot).1
      rw [← MappingNode.length_names_columns] at hplace
      have hname := List.getElem?_eq_getElem hplace
      exact ⟨_, hname, (MappingNode.slots_columns_getElem? (h index) hname).symm.trans hslot⟩
    . rintro ⟨name, hname, hslot⟩
      exact (MappingNode.slots_columns_getElem? (h index) hname).trans hslot
  . rw [List.getElem?_eq_none (by rwa [length_indexed])]
    constructor
    . nofun
    . rintro ⟨name, _, hslot⟩
      rw [slot?_of_length_le hge] at hslot
      cases hslot

theorem WellFormed.add_length_le_of_reach? {tree : MappingTree} (h : tree.WellFormed)
    {index target : Nat} {names : Locator} (hreach : tree.reach? index names = some target) :
    index + names.length ≤ target := by
  induction names generalizing index with
  | nil =>
    cases hreach
    exact Nat.le_refl _
  | cons name rest ih =>
    unfold reach? at hreach
    split at hreach
    . next child hslot =>
      have hforward := (h.forward index name child hslot).1
      have hrest := ih hreach
      rw [List.length_cons]
      omega
    . cases hreach

structure Arranged (tree : MappingTree) : Prop where
  wellFormed : tree.WellFormed
  ascending : tree.Ascending
  joined : tree.Joined 0

theorem empty_arranged : empty.Arranged :=
  ⟨empty_wellFormed, empty_ascending, empty_joined⟩

theorem Arranged.add {tree : MappingTree} (h : tree.Arranged) (locator : Locator)
    (mapping : PropertyMapping) : (tree.add locator mapping).2.Arranged where
  wellFormed := (h.wellFormed.add locator mapping).wellFormed
  ascending := h.ascending.add h.wellFormed locator mapping
  joined := h.joined.add h.wellFormed locator mapping

theorem Arranged.run {tree : MappingTree} (h : tree.Arranged)
    (calls : List (Locator × PropertyMapping)) : (tree.run calls).Arranged := by
  induction calls generalizing tree with
  | nil => exact h
  | cons call rest ih => exact ih (h.add call.1 call.2)

-- Later nodes are not empty, so a way that has not come to a mapping goes on. It goes to later
-- nodes only, of which there is a last one.
theorem Arranged.exists_property? {tree : MappingTree} (h : tree.Arranged) {index : Nat}
    {name : Token} {slot : MappingSlot} (hslot : tree.slot? index name = some slot) :
    ∃ rest mapping, tree.property? index (name :: rest) = some mapping := by
  cases slot with
  | property mapping =>
    refine ⟨[], mapping, ?_⟩
    unfold property?
    rw [hslot]
    rfl
  | node child =>
    obtain ⟨hforward, hlt⟩ := h.wellFormed.forward index name child hslot
    obtain ⟨next, held, hheld⟩ := h.joined.filled child (by omega) hlt (by omega)
    obtain ⟨rest, mapping, hproperty⟩ := h.exists_property? hheld
    refine ⟨next :: rest, mapping, ?_⟩
    unfold property?
    rw [hslot]
    exact hproperty
termination_by tree.nodes.length - index

theorem Arranged.existsUnique_slotAt? {tree : MappingTree} (h : tree.Arranged) {child : Nat}
    (hpos : 0 < child) (hlt : child < tree.nodes.length) :
    ∃! place : Nat × Nat, tree.indexed.slotAt? place.1 place.2 = some (.node child) := by
  obtain ⟨index, name, hslot⟩ := h.joined.linked child hpos hlt
  obtain ⟨place, hplace⟩ := List.mem_iff_getElem?.1 (Dict.mem_keys_of_get?_eq_some hslot)
  refine ⟨(index, place), h.ascending.slotAt?_indexed_eq_some_iff.2 ⟨name, hplace, hslot⟩, ?_⟩
  rintro ⟨other, otherPlace⟩ hother
  dsimp only at hother
  rw [h.ascending.slotAt?_indexed_eq_some_iff] at hother
  obtain ⟨otherName, hotherPlace, hotherSlot⟩ := hother
  obtain ⟨hsame, hname⟩ := h.wellFormed.single _ _ _ _ _ hotherSlot hslot
  subst hsame hname
  have hnodup := MappingNode.nodup_keys_of_ascending (h.ascending other)
  have hbound := (List.getElem?_eq_some_iff.1 hotherPlace).1
  rw [(List.getElem?_inj hbound hnodup).1 (hotherPlace.trans hplace.symm)]

theorem Arranged.laidOut {tree : MappingTree} (h : tree.Arranged) : tree.indexed.LaidOut := by
  constructor
  . rw [length_indexed]
    exact h.wellFormed.nonempty
  . intro node hmem
    obtain ⟨index, hindex⟩ := List.mem_iff_getElem?.1 hmem
    rw [(eq_columns_of_indexed_getElem? hindex).2]
    exact h.ascending index
  . intro node hmem
    obtain ⟨index, hindex⟩ := List.mem_iff_getElem?.1 hmem
    rw [(eq_columns_of_indexed_getElem? hindex).2]
    exact (tree.node index).length_names_columns
  . intro index place child hchild
    obtain ⟨name, _, hslot⟩ := h.ascending.slotAt?_indexed_eq_some_iff.1 hchild
    rw [length_indexed]
    exact h.wellFormed.forward index name child hslot
  . rw [length_indexed]
    exact fun _ => h.existsUnique_slotAt?
  . intro index node hpos hindex hnil
    obtain ⟨hlt, heq⟩ := eq_columns_of_indexed_getElem? hindex
    obtain ⟨name, slot, hslot⟩ := h.joined.filled index hpos hlt (Nat.ne_of_gt hpos)
    subst heq
    exact List.ne_nil_of_mem (Dict.mem_keys_of_get?_eq_some hslot) hnil

theorem run_laidOut_and_ways_end (calls : List (Locator × PropertyMapping)) :
    let tree := empty.run calls
    IndexedTree.empty.run? calls = some tree.indexed ∧ tree.indexed.LaidOut ∧
      (∀ index name, index < tree.nodes.length →
        tree.indexed.read? index name = some (tree.slot? index name)) ∧
      (∀ index names target, index < tree.nodes.length → tree.reach? index names = some target →
        index + names.length ≤ target ∧ target < tree.nodes.length ∧
          ∀ object scenePath, (tree.container object scenePath index).at? names
            = some (tree.container object scenePath target).source) ∧
      ∀ index name, name ∈ Dict.keys (tree.node index) →
        ∃ rest mapping, tree.property? index (name :: rest) = some mapping := by
  intro tree
  have h : tree.Arranged := empty_arranged.run calls
  refine ⟨empty_ascending.run?_indexed empty_wellFormed calls, h.laidOut, ?_, ?_, ?_⟩
  . intro index name hindex
    exact h.ascending.read?_indexed hindex name
  . intro index names target hindex hreach
    refine ⟨h.wellFormed.add_length_le_of_reach? hreach,
      h.wellFormed.reach?_lt hindex hreach, ?_⟩
    intro object scenePath
    exact h.wellFormed.container_at?_of_reach? object scenePath hreach
  . intro index name hname
    obtain ⟨slot, hslot⟩ := Option.isSome_iff_exists.1 ((Dict.contains_iff _ _).2 hname)
    exact h.exists_property? hslot

end MappingTree

namespace Projection

theorem ofMappings_tree (mappings : List PropertyMapping) (top : Locator) :
    (ofMappings mappings top).tree
      =
    MappingTree.empty.run (mappings.map fun mapping => (mapping.locator, placed top mapping)) := by
  have hfold : ∀ projection : Projection,
      (mappings.foldl (add top) projection).tree
        = projection.tree.run (mappings.map fun mapping =>
            (mapping.locator, placed top mapping)) := by
    induction mappings with
    | nil => exact fun _ => rfl
    | cons mapping rest ih =>
      intro projection
      rw [List.foldl_cons, ih, (add_eq top projection mapping).1]
      rfl
  exact hfold empty

end Projection

namespace MappingTree

-- Below a property, above one and at the root nothing is added, and one way has two steps.
theorem run_laidOut_and_ways_end_rejected :
    let mapping (name : Token) (locator : Locator) : PropertyMapping :=
      ⟨name, locator, .ofAttribute (some Attribute.source)⟩
    let mappings := [mapping "width" ["size", "x"], mapping "unit" ["size", "x", "unit"],
      mapping "area" ["size"], mapping "all" [], mapping "red" ["color", "rgb", "red"]]
    let projection := Projection.ofMappings mappings ["prim"]
    let tree := projection.tree
    projection.issues.length = 3 ∧ tree.nodes.length = 4 ∧
      (∃! place : Nat × Nat, tree.indexed.slotAt? place.1 place.2 = some (.node 3)) ∧
      (tree.slot? 0 "size").isSome ∧ tree.indexed.read? 0 "size" = some (tree.slot? 0 "size") ∧
      tree.reach? 0 ["color", "rgb"] = some 3 ∧
      (∀ object scenePath, (projection.container object scenePath).at? ["color", "rgb"]
        = some (tree.container object scenePath 3).source) ∧
      ∃ rest found, tree.property? 0 ("color" :: rest) = some found := by
  intro mapping mappings projection tree
  have htree : tree = empty.run (mappings.map fun mapping =>
      (mapping.locator, Projection.placed ["prim"] mapping)) :=
    Projection.ofMappings_tree mappings ["prim"]
  have h := run_laidOut_and_ways_end
    (mappings.map fun mapping => (mapping.locator, Projection.placed ["prim"] mapping))
  rw [← htree] at h
  obtain ⟨-, hlaidOut, hread, hway, hend⟩ := h
  have hlength : tree.nodes.length = 4 := by decide
  have hroot : 0 < tree.nodes.length := by decide
  have hreach : tree.reach? 0 ["color", "rgb"] = some 3 := by decide
  refine ⟨by decide, hlength, ?_, by decide, hread 0 "size" hroot, hreach, ?_, ?_⟩
  . exact hlaidOut.single 3 (by decide) (by decide)
  . exact (hway 0 _ _ hroot hreach).2.2
  . exact hend 0 "color" (by decide)

end MappingTree

end SceneTree
