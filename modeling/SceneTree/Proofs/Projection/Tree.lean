import Mathlib.Data.List.Basic
import Mathlib.Data.List.GetD
import Mathlib.Data.List.Induction
import SceneTree.Projection.Tree

/-!
This module contains the theory of mapping trees: what a tree holds at an address, and what adding a
mapping makes of that. A mapping that is added is found at its address, no other address is related
to it, and all other mappings stay where they are, also when a mapping is left out.
-/

namespace SceneTree

namespace MappingNode

theorem get?_add {node : MappingNode} {name : Token} (h : Dict.get? node name = none)
    (slot : MappingSlot) (other : Token) :
    Dict.get? (node.add name slot) other
      =
    if name = other then some slot else Dict.get? node other := by
  rw [← List.takeWhile_append_dropWhile (p := fun entry => entry.1 < name) (l := node),
    Dict.get?_append, Option.or_eq_none_iff] at h
  have hnode := Dict.get?_append (node.takeWhile (·.1 < name)) (node.dropWhile (·.1 < name)) other
  rw [List.takeWhile_append_dropWhile] at hnode
  unfold add
  rw [Dict.get?_append, Dict.get?_cons, hnode]
  split
  . next heq => rw [← heq, h.1, Option.none_or]
  . rfl

end MappingNode

namespace MappingTree

def slot? (tree : MappingTree) (index : Nat) (name : Token) : Option MappingSlot :=
  Dict.get? (tree.node index) name

def reach? (tree : MappingTree) (index : Nat) : Locator → Option Nat
  | [] => some index
  | name :: rest =>
    match tree.slot? index name with
    | some (.node child) => tree.reach? child rest
    | _ => none

def property? (tree : MappingTree) (index : Nat) : Locator → Option PropertyMapping
  | [] => none
  | name :: rest =>
    match tree.slot? index name with
    | some (.property mapping) => if rest = [] then some mapping else none
    | some (.node child) => tree.property? child rest
    | none => none

theorem reach?_append (tree : MappingTree) (index : Nat) (above below : Locator) :
    tree.reach? index (above ++ below) = (tree.reach? index above).bind (tree.reach? · below) := by
  induction above generalizing index with
  | nil => rfl
  | cons name rest ih =>
    simp only [List.cons_append, reach?]
    split
    . exact ih _
    . rfl

theorem property?_append {tree : MappingTree} {index target : Nat} {above : Locator}
    (h : tree.reach? index above = some target) (below : Locator) :
    tree.property? index (above ++ below) = tree.property? target below := by
  induction above generalizing index with
  | nil =>
    cases h
    rfl
  | cons name rest ih =>
    simp only [List.cons_append, reach?, property?] at h ⊢
    split at h
    . next child heq =>
      simp only [heq]
      exact ih h
    . cases h

-- Nodes and mappings exclude each other along an address.
theorem reach?_of_property? {tree : MappingTree} {index : Nat} {address : Locator}
    {mapping : PropertyMapping} (h : tree.property? index address = some mapping)
    (rest : Locator) : tree.reach? index (address ++ rest) = none := by
  induction address generalizing index with
  | nil => cases h
  | cons name address ih =>
    simp only [List.cons_append, reach?, property?] at h ⊢
    split at h
    . next heq => simp only [heq]
    . next child heq =>
      simp only [heq]
      exact ih h
    . cases h

theorem property?_of_reach?_eq_none {tree : MappingTree} {index : Nat} {above : Locator}
    (h : tree.reach? index above = none) {below : Locator} (hbelow : below ≠ []) :
    tree.property? index (above ++ below) = none := by
  induction above generalizing index with
  | nil => cases h
  | cons name rest ih =>
    simp only [List.cons_append, reach?, property?] at h ⊢
    split at h
    . next child heq =>
      simp only [heq]
      exact ih h
    . next hnode =>
      split
      . next mapping heq => simp [hbelow]
      . next child heq => exact absurd heq (hnode child)
      . rfl

theorem property?_concat (tree : MappingTree) (index : Nat) (above : Locator) (name : Token) :
    tree.property? index (above ++ [name])
      =
    (tree.reach? index above).bind fun target =>
      match tree.slot? target name with
      | some (.property mapping) => some mapping
      | _ => none := by
  cases hreach : tree.reach? index above with
  | none => exact property?_of_reach?_eq_none hreach (List.cons_ne_nil name [])
  | some target =>
    rw [property?_append hreach, Option.bind_some]
    unfold property?
    cases tree.slot? target name with
    | none => rfl
    | some slot => cases slot <;> rfl

/--
A node is only referred to by earlier nodes, and from one place.
-/
structure WellFormed (tree : MappingTree) : Prop where
  nonempty : 0 < tree.nodes.length
  forward : ∀ index name child, tree.slot? index name = some (.node child) →
    index < child ∧ child < tree.nodes.length
  single : ∀ index name other otherName child, tree.slot? index name = some (.node child) →
    tree.slot? other otherName = some (.node child) → index = other ∧ name = otherName

theorem slot?_empty (index : Nat) (name : Token) : empty.slot? index name = none := by
  unfold slot? node empty
  cases index <;> rfl

theorem empty_wellFormed : empty.WellFormed where
  nonempty := Nat.zero_lt_one
  forward := by simp [slot?_empty]
  single := by simp [slot?_empty]

theorem reach?_concat_eq_some {tree : MappingTree} {index target : Nat} {above : Locator}
    {name : Token} (h : tree.reach? index (above ++ [name]) = some target) :
    ∃ parent, tree.reach? index above = some parent ∧
      tree.slot? parent name = some (.node target) := by
  rw [reach?_append, Option.bind_eq_some_iff] at h
  obtain ⟨parent, hparent, hslot⟩ := h
  refine ⟨parent, hparent, ?_⟩
  simp only [reach?] at hslot
  split at hslot
  . next heq =>
    cases hslot
    exact heq
  . cases hslot

theorem WellFormed.reach?_lt {tree : MappingTree} (h : tree.WellFormed) {index target : Nat}
    (hindex : index < tree.nodes.length) {address : Locator}
    (hreach : tree.reach? index address = some target) : target < tree.nodes.length := by
  rcases List.eq_nil_or_concat' address with heq | ⟨above, name, heq⟩
  . subst heq
    cases hreach
    exact hindex
  . subst heq
    obtain ⟨parent, _, hslot⟩ := reach?_concat_eq_some hreach
    exact (h.forward parent name target hslot).2

-- The way back from a node is determined at each step, and ends at the root only.
theorem WellFormed.reach?_injective {tree : MappingTree} (h : tree.WellFormed)
    {address other : Locator} {target : Nat} (haddress : tree.reach? 0 address = some target)
    (hother : tree.reach? 0 other = some target) : address = other := by
  induction address using List.reverseRecOn generalizing other target with
  | nil =>
    cases haddress
    rcases List.eq_nil_or_concat' other with heq | ⟨above, name, heq⟩
    . exact heq.symm
    . subst heq
      obtain ⟨parent, _, hslot⟩ := reach?_concat_eq_some hother
      exact absurd (h.forward parent name 0 hslot).1 (Nat.not_lt_zero parent)
  | append_singleton above name ih =>
    obtain ⟨parent, hparent, hslot⟩ := reach?_concat_eq_some haddress
    rcases List.eq_nil_or_concat' other with heq | ⟨otherAbove, otherName, heq⟩
    . subst heq
      cases hother
      exact absurd (h.forward parent name 0 hslot).1 (Nat.not_lt_zero parent)
    . subst heq
      obtain ⟨otherParent, hotherParent, hotherSlot⟩ := reach?_concat_eq_some hother
      obtain ⟨hsame, hname⟩ := h.single parent name otherParent otherName target hslot hotherSlot
      subst hsame hname
      rw [ih hparent hotherParent]

/-! ## Growing trees -/

theorem node_addSlot {tree : MappingTree} {index : Nat} (hindex : index < tree.nodes.length)
    (name : Token) (slot : MappingSlot) (other : Nat) :
    (tree.addSlot index name slot).node other
      =
    if index = other then (tree.node index).add name slot else tree.node other := by
  unfold node addSlot
  dsimp only
  rw [List.getD_eq_getElem?_getD, List.getElem?_modify]
  split
  . next heq =>
    subst heq
    simp [hindex]
  . simp

theorem slot?_addSlot {tree : MappingTree} {index : Nat} (hindex : index < tree.nodes.length)
    {name : Token} (hnew : tree.slot? index name = none) (slot : MappingSlot) (other : Nat)
    (otherName : Token) :
    (tree.addSlot index name slot).slot? other otherName
      =
    if index = other ∧ name = otherName then some slot else tree.slot? other otherName := by
  unfold slot? at hnew ⊢
  rw [node_addSlot hindex]
  by_cases heq : index = other
  . subst heq
    simp only [if_true, true_and]
    exact MappingNode.get?_add hnew slot otherName
  . simp [heq]

/--
Whether one tree comes from another by adding nodes without mappings.
-/
structure Grown (tree later : MappingTree) : Prop where
  wellFormed : later.WellFormed
  length_le : tree.nodes.length ≤ later.nodes.length
  slot? : ∀ index name slot, tree.slot? index name = some slot →
    later.slot? index name = some slot
  property? : ∀ index address, later.property? index address = tree.property? index address

theorem WellFormed.grown {tree : MappingTree} (h : tree.WellFormed) : tree.Grown tree where
  wellFormed := h
  length_le := Nat.le_refl _
  slot? := fun _ _ _ hslot => hslot
  property? := fun _ _ => rfl

theorem Grown.trans {tree later last : MappingTree} (h : tree.Grown later)
    (hlast : later.Grown last) : tree.Grown last where
  wellFormed := hlast.wellFormed
  length_le := Nat.le_trans h.length_le hlast.length_le
  slot? := fun index name slot hslot => hlast.slot? index name slot (h.slot? index name slot hslot)
  property? := fun index address =>
    (hlast.property? index address).trans (h.property? index address)

theorem Grown.reach? {tree later : MappingTree} (h : tree.Grown later) {index target : Nat}
    {address : Locator} (hreach : tree.reach? index address = some target) :
    later.reach? index address = some target := by
  induction address generalizing index with
  | nil => exact hreach
  | cons name rest ih =>
    simp only [MappingTree.reach?] at hreach ⊢
    split at hreach
    . next child heq =>
      simp only [h.slot? index name _ heq]
      exact ih hreach
    . cases hreach

def withChild (tree : MappingTree) (index : Nat) (name : Token) : MappingTree :=
  ⟨(tree.addSlot index name (.node tree.nodes.length)).nodes ++ [[]]⟩

theorem node_withChild (tree : MappingTree) (index : Nat) (name : Token) (other : Nat) :
    (tree.withChild index name).node other
      =
    (tree.addSlot index name (.node tree.nodes.length)).node other := by
  unfold node withChild
  dsimp only
  rw [List.getD_eq_getElem?_getD, List.getD_eq_getElem?_getD, List.getElem?_append]
  split
  . rfl
  . next hle =>
    rw [List.getElem?_eq_none (Nat.le_of_not_lt hle)]
    cases other - (tree.addSlot index name (.node tree.nodes.length)).nodes.length <;> rfl

theorem slot?_withChild {tree : MappingTree} {index : Nat} (hindex : index < tree.nodes.length)
    {name : Token} (hnew : tree.slot? index name = none) (other : Nat) (otherName : Token) :
    (tree.withChild index name).slot? other otherName
      =
    if index = other ∧ name = otherName then some (.node tree.nodes.length)
    else tree.slot? other otherName := by
  rw [← slot?_addSlot hindex hnew]
  unfold slot?
  rw [node_withChild]

theorem slot?_of_length_le {tree : MappingTree} {index : Nat} (h : tree.nodes.length ≤ index)
    (name : Token) : tree.slot? index name = none := by
  unfold slot? node
  rw [List.getD_eq_default _ _ h]
  rfl

theorem length_addSlot (tree : MappingTree) (index : Nat) (name : Token) (slot : MappingSlot) :
    (tree.addSlot index name slot).nodes.length = tree.nodes.length :=
  List.length_modify ..

theorem length_withChild (tree : MappingTree) (index : Nat) (name : Token) :
    (tree.withChild index name).nodes.length = tree.nodes.length + 1 := by
  unfold withChild
  rw [List.length_append, length_addSlot]
  rfl

theorem WellFormed.withChild {tree : MappingTree} (h : tree.WellFormed) {index : Nat}
    (hindex : index < tree.nodes.length) {name : Token} (hnew : tree.slot? index name = none) :
    (tree.withChild index name).WellFormed := by
  have hslot := slot?_withChild hindex hnew
  have hlength := tree.length_withChild index name
  constructor
  . omega
  . intro other otherName child hchild
    rw [hslot] at hchild
    split at hchild
    . next heq =>
      cases hchild
      omega
    . have := h.forward other otherName child hchild
      omega
  . -- No earlier node refers to the new one, which had no place yet.
    intro first firstName second secondName child hfirst hsecond
    rw [hslot] at hfirst hsecond
    split at hfirst
    . next hnewFirst =>
      cases hfirst
      split at hsecond
      . next hnewSecond => exact ⟨hnewFirst.1 ▸ hnewSecond.1, hnewFirst.2 ▸ hnewSecond.2⟩
      . exact absurd (h.forward _ _ _ hsecond).2 (Nat.lt_irrefl _)
    . split at hsecond
      . cases hsecond
        exact absurd (h.forward _ _ _ hfirst).2 (Nat.lt_irrefl _)
      . exact h.single _ _ _ _ _ hfirst hsecond

-- The new node holds nothing, as the place it takes did.
theorem property?_withChild {tree : MappingTree} {index : Nat} (hindex : index < tree.nodes.length)
    {name : Token} (hnew : tree.slot? index name = none) (other : Nat) (address : Locator) :
    (tree.withChild index name).property? other address = tree.property? other address := by
  have hslot := slot?_withChild hindex hnew
  have hfresh : ∀ address, (tree.withChild index name).property? tree.nodes.length address
      = none := by
    intro address
    cases address with
    | nil => rfl
    | cons first rest =>
      simp only [property?]
      rw [hslot, if_neg (fun heq => Nat.lt_irrefl _ (heq.1 ▸ hindex)),
        slot?_of_length_le (Nat.le_refl _)]
  induction address generalizing other with
  | nil => rfl
  | cons first rest ih =>
    simp only [property?]
    rw [hslot]
    by_cases heq : index = other ∧ name = first
    . rw [if_pos heq, ← heq.1, ← heq.2, hnew]
      exact hfresh rest
    . rw [if_neg heq]
      split
      . rfl
      . exact ih _
      . rfl

theorem WellFormed.withChild_grown {tree : MappingTree} (h : tree.WellFormed) {index : Nat}
    (hindex : index < tree.nodes.length) {name : Token} (hnew : tree.slot? index name = none) :
    tree.Grown (tree.withChild index name) where
  wellFormed := h.withChild hindex hnew
  length_le := by
    rw [length_withChild]
    exact Nat.le_succ _
  slot? := by
    intro other otherName slot hold
    rw [slot?_withChild hindex hnew, if_neg]
    . exact hold
    . rintro ⟨heq, hname⟩
      rw [heq, hname, hold] at hnew
      cases hnew
  property? := property?_withChild hindex hnew

/-! ## Adding a mapping -/

theorem WellFormed.enter {tree : MappingTree} (h : tree.WellFormed) {index : Nat}
    (hindex : index < tree.nodes.length) (name : Token) :
    tree.Grown (tree.enter index name).2 ∧
      ∀ child, (tree.enter index name).1 = .ok child →
        (tree.enter index name).2.slot? index name = some (.node child) := by
  unfold MappingTree.enter
  split
  . next child heq =>
    refine ⟨h.grown, ?_⟩
    intro other hother
    cases hother
    exact heq
  . refine ⟨h.grown, ?_⟩
    intro other hother
    cases hother
  . next hnew =>
    refine ⟨h.withChild_grown hindex hnew, ?_⟩
    intro other hother
    cases hother
    exact (slot?_withChild hindex hnew index name).trans (if_pos ⟨rfl, rfl⟩)

theorem WellFormed.descend {tree : MappingTree} (h : tree.WellFormed) {index : Nat}
    (hindex : index < tree.nodes.length) (names : Locator) :
    tree.Grown (tree.descend index names).2 ∧
      ∀ target, (tree.descend index names).1 = .ok target →
        (tree.descend index names).2.reach? index names = some target := by
  induction names generalizing tree index with
  | nil =>
    refine ⟨h.grown, ?_⟩
    intro target htarget
    cases htarget
    rfl
  | cons name rest ih =>
    obtain ⟨hgrown, hslot⟩ := h.enter hindex name
    unfold MappingTree.descend
    generalize tree.enter index name = entered at *
    obtain ⟨answer, later⟩ := entered
    cases answer with
    | error existing =>
      refine ⟨hgrown, ?_⟩
      intro target htarget
      cases htarget
    | ok child =>
      dsimp only at hgrown hslot ⊢
      have hchild := hslot child rfl
      obtain ⟨hrest, hreach⟩ := ih hgrown.wellFormed (hgrown.wellFormed.forward _ _ _ hchild).2
      refine ⟨hgrown.trans hrest, ?_⟩
      intro target htarget
      simp only [reach?]
      rw [hrest.slot? index name _ hchild]
      exact hreach target htarget

theorem reach?_addSlot_property {tree : MappingTree} {target : Nat}
    (htarget : target < tree.nodes.length) {name : Token} (hnew : tree.slot? target name = none)
    (mapping : PropertyMapping) (index : Nat) (address : Locator) :
    (tree.addSlot target name (.property mapping)).reach? index address
      =
    tree.reach? index address := by
  induction address generalizing index with
  | nil => rfl
  | cons first rest ih =>
    simp only [reach?]
    rw [slot?_addSlot htarget hnew]
    by_cases heq : target = index ∧ name = first
    . rw [if_pos heq, ← heq.1, ← heq.2, hnew]
    . rw [if_neg heq]
      split
      . exact ih _
      . rfl

theorem WellFormed.addSlot_property {tree : MappingTree} (h : tree.WellFormed) {target : Nat}
    (htarget : target < tree.nodes.length) {name : Token} (hnew : tree.slot? target name = none)
    (mapping : PropertyMapping) : (tree.addSlot target name (.property mapping)).WellFormed := by
  have hold : ∀ index other child,
      (tree.addSlot target name (.property mapping)).slot? index other = some (.node child) →
        tree.slot? index other = some (.node child) := by
    intro index other child hslot
    rw [slot?_addSlot htarget hnew] at hslot
    split at hslot
    . cases hslot
    . exact hslot
  constructor
  . rw [length_addSlot]
    exact h.nonempty
  . intro index other child hslot
    rw [length_addSlot]
    exact h.forward _ _ _ (hold _ _ _ hslot)
  . intro index other otherIndex otherName child hslot hother
    exact h.single _ _ _ _ _ (hold _ _ _ hslot) (hold _ _ _ hother)

theorem WellFormed.property?_addSlot {tree : MappingTree} (h : tree.WellFormed) {target : Nat}
    {above : Locator} (hreach : tree.reach? 0 above = some target) {name : Token}
    (hnew : tree.slot? target name = none) (mapping : PropertyMapping) (address : Locator) :
    (tree.addSlot target name (.property mapping)).property? 0 address
      =
    if address = above ++ [name] then some mapping else tree.property? 0 address := by
  have htarget := h.reach?_lt h.nonempty hreach
  rcases List.eq_nil_or_concat' address with heq | ⟨otherAbove, otherName, heq⟩
  . subst heq
    rw [if_neg (by simp)]
    rfl
  . subst heq
    rw [property?_concat, property?_concat, reach?_addSlot_property htarget hnew]
    cases hother : tree.reach? 0 otherAbove with
    | none =>
      rw [if_neg]
      . rfl
      . intro heq
        rw [(List.append_inj' heq rfl).1, hreach] at hother
        cases hother
    | some other =>
      rw [Option.bind_some, Option.bind_some, slot?_addSlot htarget hnew]
      by_cases heq : target = other ∧ name = otherName
      . obtain ⟨hsame, hname⟩ := heq
        subst hsame hname
        rw [if_pos ⟨rfl, rfl⟩, if_pos (by rw [h.reach?_injective hother hreach])]
      . rw [if_neg heq, if_neg]
        intro haddress
        obtain ⟨habove, hname⟩ := List.append_inj' haddress rfl
        rw [habove, hreach] at hother
        cases hother
        cases hname
        exact heq ⟨rfl, rfl⟩

-- Where a mapping is found, no node is reached, and below a free name nothing is found.
theorem not_isRelatedTo_of_reach? {tree : MappingTree} {target : Nat} {above : Locator}
    (hreach : tree.reach? 0 above = some target) {name : Token}
    (hnew : tree.slot? target name = none) {address : Locator} {mapping : PropertyMapping}
    (hproperty : tree.property? 0 address = some mapping) :
    ¬ address.isRelatedTo (above ++ [name]) := by
  have hnone : ∀ rest, tree.property? 0 (above ++ name :: rest) = none := by
    intro rest
    rw [property?_append hreach]
    simp only [property?]
    rw [hnew]
  rw [Locator.isRelatedTo_iff]
  rintro (hunder | hover)
  . obtain ⟨rest, heq⟩ := Locator.exists_eq_append_of_isUnder hunder
    rw [heq, List.append_assoc, List.singleton_append, hnone] at hproperty
    cases hproperty
  . obtain ⟨rest, heq⟩ := Locator.exists_eq_append_of_isUnder hover
    rcases List.eq_nil_or_concat' rest with hrest | ⟨more, last, hrest⟩
    . rw [hrest, List.append_nil] at heq
      rw [← heq, hnone] at hproperty
      cases hproperty
    . rw [hrest, ← List.append_assoc] at heq
      have habove := (List.append_inj' heq rfl).1
      have hblocked := reach?_of_property? hproperty more
      rw [← habove, hreach] at hblocked
      cases hblocked

/--
What adding a mapping comes to: it is found at its address unless it is left out, it has no related
address then, and all others are found where they were.
-/
structure Added (tree : MappingTree) (locator : Locator) (mapping : PropertyMapping)
    (result : Option MappingIssue × MappingTree) : Prop where
  wellFormed : result.2.WellFormed
  property? : ∀ address, result.2.property? 0 address
    = if result.1 = none ∧ address = locator then some mapping else tree.property? 0 address
  unrelated : result.1 = none → ∀ address other, tree.property? 0 address = some other →
    ¬ address.isRelatedTo locator

theorem Grown.added {tree later : MappingTree} (h : tree.Grown later) (locator : Locator)
    (mapping : PropertyMapping) (issue : MappingIssue) :
    tree.Added locator mapping (some issue, later) where
  wellFormed := h.wellFormed
  property? := fun address => (h.property? 0 address).trans (if_neg nofun).symm
  unrelated := nofun

theorem WellFormed.add {tree : MappingTree} (h : tree.WellFormed) (locator : Locator)
    (mapping : PropertyMapping) : tree.Added locator mapping (tree.add locator mapping) := by
  rcases List.eq_nil_or_concat' locator with heq | ⟨above, name, heq⟩
  . subst heq
    exact h.grown.added [] mapping _
  . subst heq
    obtain ⟨hgrown, hreach⟩ := h.descend h.nonempty above
    unfold MappingTree.add
    rw [List.getLast?_concat, List.dropLast_concat]
    dsimp only
    generalize tree.descend 0 above = result at *
    obtain ⟨answer, later⟩ := result
    cases answer with
    | error existing => exact hgrown.added _ mapping _
    | ok target =>
      have htarget := hreach target rfl
      have hlater := hgrown.wellFormed
      dsimp only at htarget ⊢
      split
      . exact hgrown.added _ mapping _
      . exact hgrown.added _ mapping _
      . next hnew =>
        have hlt := hlater.reach?_lt hlater.nonempty htarget
        refine ⟨hlater.addSlot_property hlt hnew mapping, ?_, ?_⟩
        . intro address
          rw [hlater.property?_addSlot htarget hnew, hgrown.property?]
          simp
        . intro _ address other hproperty
          rw [← hgrown.property?] at hproperty
          exact not_isRelatedTo_of_reach? htarget hnew hproperty

end MappingTree

end SceneTree
