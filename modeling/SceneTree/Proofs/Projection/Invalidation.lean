import SceneTree.Proofs.Locator.Minimal
import SceneTree.Proofs.Projection.Accepted

/-!
This module contains what projections say of changed properties. Every accepted mapping of a changed
property is named with a place of its own, and whatever is not related to these places reads as
before.
-/

namespace SceneTree

theorem PropertyMapping.serve_congr {mapping : PropertyMapping} {object other : SceneObject}
    (hattribute : object.attributeOf mapping.name = other.attributeOf mapping.name)
    (htargets : object.targetsOf mapping.name = other.targetsOf mapping.name) (scenePath : Path) :
    mapping.serve object scenePath = mapping.serve other scenePath := by
  unfold PropertyMapping.serve
  rw [hattribute, htargets]

namespace MappingTree

theorem container_child (tree : MappingTree) (object : SceneObject) (scenePath : Path)
    (index : Nat) (name : Token) :
    (tree.container object scenePath index).child name
      =
    match tree.slot? index name with
    | none => none
    | some (.property mapping) => mapping.serve object scenePath
    | some (.node next) =>
      if index < next ∧ next < tree.nodes.length then
        some (tree.container object scenePath next).source
      else none := by
  rw [container]
  rfl

-- The induction is that of the container: a node only refers to later ones.
theorem container_congr {tree : MappingTree} {object other : SceneObject} {scenePath : Path}
    {index : Nat}
    (h : ∀ address mapping, tree.property? index address = some mapping →
      mapping.serve object scenePath = mapping.serve other scenePath) :
    tree.container object scenePath index = tree.container other scenePath index := by
  have hchild : ∀ name, (tree.container object scenePath index).child name
      = (tree.container other scenePath index).child name := by
    intro name
    rw [container_child, container_child]
    split
    . rfl
    . next mapping heq => exact h [name] mapping (by simp [property?, heq])
    . next next heq =>
      split
      . next hnext =>
        have hbelow : ∀ address mapping, tree.property? next address = some mapping →
            mapping.serve object scenePath = mapping.serve other scenePath := by
          intro address mapping hproperty
          exact h (name :: address) mapping (by simpa [property?, heq] using hproperty)
        rw [container_congr hbelow]
      . rfl
  have hnames : (tree.container object scenePath index).names
      = (tree.container other scenePath index).names := by
    rw [container, container]
  generalize tree.container object scenePath index = first at *
  generalize tree.container other scenePath index = second at *
  obtain ⟨names, child⟩ := first
  obtain ⟨otherNames, otherChild⟩ := second
  dsimp only at hnames hchild
  rw [hnames, funext hchild]
termination_by tree.nodes.length - index

theorem container_at?_congr {tree : MappingTree} {object other : SceneObject} {scenePath : Path}
    {index : Nat} {place : Locator}
    (h : ∀ address mapping, tree.property? index address = some mapping →
      address.isRelatedTo place → mapping.serve object scenePath = mapping.serve other scenePath) :
    (tree.container object scenePath index).at? place
      =
    (tree.container other scenePath index).at? place := by
  induction place generalizing index with
  | nil =>
    rw [container_congr fun address mapping hproperty =>
      h address mapping hproperty (by simp [Locator.isRelatedTo_iff])]
  | cons name rest ih =>
    rw [Container.at?_cons, Container.at?_cons, container_child, container_child]
    split
    . rfl
    . next mapping heq =>
      rw [h [name] mapping (by simp [property?, heq]) (by simp [Locator.isRelatedTo_iff])]
    . next next heq =>
      split
      . apply ih
        intro address mapping hproperty hrelated
        apply h (name :: address) mapping (by simpa [property?, heq] using hproperty)
        simpa [Locator.isRelatedTo_iff] using hrelated
      . rfl

end MappingTree

namespace Projection

section Shown

variable {top : Locator} {projection : Projection} {mappings : List PropertyMapping}

theorem Shows.mem_flatMap_places_iff (h : Shows top projection mappings) (names : List Token)
    (locator : Locator) :
    (locator ∈ names.flatMap fun name => (projection.places.filter (·.1 = name)).map (·.2))
      ↔
    ∃ mapping ∈ mappings, mapping.name ∈ names ∧ top ++ mapping.locator = locator := by
  simp only [h.places, List.mem_flatMap, List.mem_map, List.mem_filter, decide_eq_true_eq]
  constructor
  . rintro ⟨name, hname, place, ⟨⟨mapping, hmem, hplace⟩, hfirst⟩, hsecond⟩
    subst hplace hfirst
    exact ⟨mapping, hmem, hname, hsecond⟩
  . rintro ⟨mapping, hmem, hname, hlocator⟩
    exact ⟨mapping.name, hname, _, ⟨⟨mapping, hmem, rfl⟩, rfl⟩, hlocator⟩

-- No accepted mapping takes the place of another one in the set.
theorem Shows.mem_invalidated_iff (h : Shows top projection mappings) (names : List Token)
    (locator : Locator) :
    locator ∈ (projection.invalidated names).locators
      ↔
    ∃ mapping ∈ mappings, mapping.name ∈ names ∧ top ++ mapping.locator = locator := by
  unfold invalidated
  rw [LocatorSet.mem_ofList_iff, h.mem_flatMap_places_iff]
  intro first hfirst second hsecond hunder
  obtain ⟨a, ha, -, hfirst⟩ := (h.mem_flatMap_places_iff names first).1 hfirst
  obtain ⟨b, hb, -, hsecond⟩ := (h.mem_flatMap_places_iff names second).1 hsecond
  rw [← hfirst, ← hsecond, Locator.append_isUnder_append] at hunder
  rw [← hfirst, ← hsecond, h.eq_of_isUnder ha hb hunder]

theorem Shows.nodup_addresses (h : Shows top projection mappings) :
    (mappings.map (top ++ ·.locator)).Nodup := by
  unfold List.Nodup
  rw [List.pairwise_map]
  apply h.unrelated.imp
  intro first second hunrelated heq
  apply hunrelated
  rw [List.append_cancel_left heq, Locator.isRelatedTo_iff]
  exact .inl (Locator.isUnder_refl _)

theorem Shows.invalidated_perm (h : Shows top projection mappings) (names : List Token) :
    (projection.invalidated names).locators.Perm
      ((mappings.filter (·.name ∈ names)).map (top ++ ·.locator)) := by
  have hset : (projection.invalidated names).locators.Nodup :=
    (LocatorSet.ofList_minimal _).nodup
  have haddresses : ((mappings.filter (·.name ∈ names)).map (top ++ ·.locator)).Nodup :=
    h.nodup_addresses.sublist (List.filter_sublist.map _)
  rw [List.perm_ext_iff_of_nodup hset haddresses]
  intro locator
  rw [h.mem_invalidated_iff, List.mem_map]
  simp only [List.mem_filter, decide_eq_true_eq, and_assoc]

-- A mapping related to such a place has another name, since its own address would be invalidated.
theorem Shows.name_not_mem (h : Shows top projection mappings) {names : List Token}
    {place : Locator} (habove : ¬ (projection.invalidated names).covers (top ++ place))
    (hbelow : ∀ element ∈ (projection.invalidated names).locators,
      ¬ element.isUnder (top ++ place))
    {mapping : PropertyMapping} (hmem : mapping ∈ mappings)
    (hrelated : mapping.locator.isRelatedTo place) : mapping.name ∉ names := by
  intro hname
  have hinvalidated := (h.mem_invalidated_iff names (top ++ mapping.locator)).2
    ⟨mapping, hmem, hname, rfl⟩
  rcases Locator.isRelatedTo_iff.1 hrelated with hunder | hunder
  . apply hbelow _ hinvalidated
    rwa [Locator.append_isUnder_append]
  . apply habove
    rw [invalidated, (LocatorSet.ofList_minimal _).covers_iff]
    refine ⟨top ++ mapping.locator, hinvalidated, ?_⟩
    rwa [Locator.append_isUnder_append]

theorem Shows.container_at?_congr (h : Shows top projection mappings) {names : List Token}
    {object other : SceneObject}
    (hagree : ∀ name, name ∉ names → object.attributeOf name = other.attributeOf name ∧
      object.targetsOf name = other.targetsOf name)
    (scenePath : Path) {place : Locator}
    (habove : ¬ (projection.invalidated names).covers (top ++ place))
    (hbelow : ∀ element ∈ (projection.invalidated names).locators,
      ¬ element.isUnder (top ++ place)) :
    (projection.container object scenePath).at? place
      =
    (projection.container other scenePath).at? place := by
  apply MappingTree.container_at?_congr
  intro address mapping hproperty hrelated
  obtain ⟨shown, hmem, haddress, hplaced⟩ := h.found address mapping hproperty
  subst haddress hplaced
  obtain ⟨hattribute, htargets⟩ :=
    hagree shown.name (h.name_not_mem habove hbelow hmem hrelated)
  apply PropertyMapping.serve_congr
  . exact hattribute
  . exact htargets

end Shown

theorem invalidated_perm_and_container_at?_eq (mappings : List PropertyMapping) (top : Locator)
    (names : List Token) :
    ((ofMappings mappings top).invalidated names).locators.Perm
        (((sift mappings).accepted.filter (·.name ∈ names)).map (top ++ ·.locator)) ∧
      ∀ (object other : SceneObject) (scenePath : Path) (place : Locator),
        (∀ name, name ∉ names → object.attributeOf name = other.attributeOf name ∧
          object.targetsOf name = other.targetsOf name) →
        ¬ ((ofMappings mappings top).invalidated names).covers (top ++ place) →
        (∀ element ∈ ((ofMappings mappings top).invalidated names).locators,
          ¬ element.isUnder (top ++ place)) →
        ((ofMappings mappings top).container object scenePath).at? place
          = ((ofMappings mappings top).container other scenePath).at? place := by
  have hshows := (ofMappings_sifts mappings top).toShows
  refine ⟨hshows.invalidated_perm names, ?_⟩
  intro object other scenePath place hagree habove hbelow
  exact hshows.container_at?_congr hagree scenePath habove hbelow

-- One property in two places and once in conflict, which the place of another one does not notice.
theorem invalidated_perm_and_container_at?_eq_beside :
    let mappings : List PropertyMapping := [
      ⟨"width", ["size", "x"], .ofAttribute (some Attribute.source)⟩,
      ⟨"width", ["size"], .ofAttribute (some Attribute.source)⟩,
      ⟨"width", ["span"], .ofAttribute none⟩,
      ⟨"owner", ["size", "owner"], .ofTargets (some Supplier.firstTarget)⟩]
    let object : SceneObject := ⟨.root, fun _ => some (.constant (.int 1)), fun _ => some [.root]⟩
    let other : SceneObject := { object with
      attributeOf := fun name => if name = "width" then none else some (.constant (.int 1)) }
    let projection := ofMappings mappings ["prim"]
    let invalidated := projection.invalidated ["width", "width", "depth"]
    let place : Locator := ["size", "owner"]
    (∀ name, name ∉ ["width", "width", "depth"] → object.attributeOf name = other.attributeOf name ∧
        object.targetsOf name = other.targetsOf name) ∧
      ¬ invalidated.covers (["prim"] ++ place) ∧
      (∀ element ∈ invalidated.locators, ¬ element.isUnder (["prim"] ++ place)) ∧
      invalidated.locators.Perm [["prim", "size", "x"], ["prim", "span"]] ∧
      (projection.container object .root).at? place = (projection.container other .root).at? place :=
    by
  intro mappings object other projection invalidated place
  have hagree : ∀ name, name ∉ ["width", "width", "depth"] →
      object.attributeOf name = other.attributeOf name ∧
        object.targetsOf name = other.targetsOf name := by
    intro name hname
    have hwidth : name ≠ "width" := fun heq => hname (heq ▸ List.mem_cons_self)
    exact ⟨(if_neg hwidth).symm, rfl⟩
  have habove : ¬ invalidated.covers (["prim"] ++ place) := by decide
  have hbelow : ∀ element ∈ invalidated.locators, ¬ element.isUnder (["prim"] ++ place) := by decide
  obtain ⟨hperm, hread⟩ := invalidated_perm_and_container_at?_eq mappings ["prim"]
    ["width", "width", "depth"]
  exact ⟨hagree, habove, hbelow, hperm, hread object other .root place hagree habove hbelow⟩

end Projection

end SceneTree
