import SceneTree.Proofs.Projection.Invalidation

/-!
This module contains what a projection shows of an object: what the accepted mappings make of its
properties, at their addresses, in containers that lead there and hold nothing else.
-/

namespace SceneTree

namespace MappingTree

section Read

variable {tree : MappingTree} (h : tree.WellFormed) (object : SceneObject) (scenePath : Path)

theorem container_names (index : Nat) :
    (tree.container object scenePath index).names = Dict.keys (tree.node index) := by
  rw [container]

theorem container_at?_property {index : Nat} {name : Token} {mapping : PropertyMapping}
    (hslot : tree.slot? index name = some (.property mapping)) (rest : Locator) :
    (tree.container object scenePath index).at? (name :: rest)
      =
    (mapping.serve object scenePath).bind (·.at? rest) := by
  rw [Container.at?_cons, container_child, hslot]

include h

theorem WellFormed.container_at?_node {index child : Nat} {name : Token}
    (hslot : tree.slot? index name = some (.node child)) (rest : Locator) :
    (tree.container object scenePath index).at? (name :: rest)
      =
    (tree.container object scenePath child).at? rest := by
  rw [Container.at?_cons, container_child, hslot]
  dsimp only
  rw [if_pos (h.forward _ _ _ hslot)]
  rfl

theorem WellFormed.container_at?_of_reach? {index target : Nat} {place : Locator}
    (hreach : tree.reach? index place = some target) :
    (tree.container object scenePath index).at? place
      =
    some (tree.container object scenePath target).source := by
  induction place generalizing index with
  | nil =>
    cases hreach
    exact Source.at?_nil _
  | cons name rest ih =>
    unfold reach? at hreach
    split at hreach
    . next child hslot =>
      rw [h.container_at?_node object scenePath hslot]
      exact ih hreach
    . cases hreach

theorem WellFormed.container_at?_of_property? {index : Nat} {address : Locator}
    {mapping : PropertyMapping} (hproperty : tree.property? index address = some mapping)
    (rest : Locator) :
    (tree.container object scenePath index).at? (address ++ rest)
      =
    (mapping.serve object scenePath).bind (·.at? rest) := by
  induction address generalizing index with
  | nil => cases hproperty
  | cons name below ih =>
    unfold property? at hproperty
    split at hproperty
    . next other hslot =>
      split at hproperty
      . next hnil =>
        cases hproperty
        subst hnil
        exact container_at?_property object scenePath hslot rest
      . cases hproperty
    . next child hslot =>
      rw [List.cons_append, h.container_at?_node object scenePath hslot]
      exact ih hproperty
    . cases hproperty

-- Off the way to the mappings there is neither a node nor a mapping to ask.
theorem WellFormed.container_at?_eq_none {index : Nat} {place : Locator}
    (hreach : tree.reach? index place = none)
    (hproperty : ∀ address mapping, tree.property? index address = some mapping →
      ¬ place.isUnder address) :
    (tree.container object scenePath index).at? place = none := by
  induction place generalizing index with
  | nil => cases hreach
  | cons name rest ih =>
    unfold reach? at hreach
    cases hslot : tree.slot? index name with
    | none =>
      rw [Container.at?_cons, container_child, hslot]
      rfl
    | some slot =>
      cases slot with
      | property mapping =>
        exact absurd (by simp) (hproperty [name] mapping (by simp [property?, hslot]))
      | node child =>
        rw [hslot] at hreach
        rw [h.container_at?_node object scenePath hslot]
        apply ih hreach
        intro address mapping hfound hunder
        apply hproperty (name :: address) mapping
        . unfold property?
          rw [hslot]
          exact hfound
        . simpa using hunder

end Read

end MappingTree

/--
What a mapping makes of a property of an object, which is looked up by its name, for a place. There
is nothing if the object lacks the property, and a mapping without a function makes nothing.
-/
def PropertyMapping.result (mapping : PropertyMapping) (object : SceneObject)
    (place : MappedPlace) : Option Source :=
  match mapping.supplier with
  | .ofAttribute (some make) => (object.attributeOf mapping.name).bind (make · place)
  | .ofTargets (some make) => (object.targetsOf mapping.name).bind (make · place)
  | _ => none

namespace Projection

theorem serve_placed (top : Locator) (mapping : PropertyMapping) (object : SceneObject)
    (scenePath : Path) :
    (placed top mapping).serve object scenePath
      =
    mapping.result object ⟨scenePath, top ++ mapping.locator⟩ := by
  obtain ⟨name, locator, supplier⟩ := mapping
  rcases supplier with make | make
  all_goals
    cases make <;> rfl

/--
Whether a container shows what some mappings make: at their addresses it holds what they make and
below them what is in that, above them containers, with their names in ascending order, and nothing
elsewhere. The container itself is there if there are no mappings, too.
-/
structure Presents (c : Container) (mappings : List PropertyMapping)
    (make : PropertyMapping → Option Source) : Prop where
  inside : ∀ mapping ∈ mappings, ∀ rest,
    c.at? (mapping.locator ++ rest) = (make mapping).bind (·.at? rest)
  above : ∀ place,
    (place = [] ∨ ∃ mapping ∈ mappings, mapping.locator.isUnder place ∧ mapping.locator ≠ place) →
    ∃ inner : Container, c.at? place = some inner.source ∧ inner.names.Pairwise (· < ·) ∧
      ∀ name, name ∈ inner.names ↔ ∃ mapping ∈ mappings, mapping.locator.isUnder (place ++ [name])
  beside : ∀ place : Locator, place ≠ [] →
    (∀ mapping ∈ mappings, ¬ place.isRelatedTo mapping.locator) → c.at? place = none

section Presents

variable {top : Locator} {projection : Projection} {sifted : Sifted}
variable (h : Sifts top projection sifted)
include h

theorem Sifts.mem_keys_iff {place : Locator} {target : Nat}
    (hreach : projection.tree.reach? 0 place = some target) (name : Token) :
    name ∈ Dict.keys (projection.tree.node target)
      ↔
    ∃ mapping ∈ sifted.accepted, mapping.locator.isUnder (place ++ [name]) := by
  rw [← Dict.contains_iff]
  change (projection.tree.slot? target name).isSome ↔ _
  constructor
  . intro hsome
    obtain ⟨slot, hslot⟩ := Option.isSome_iff_exists.1 hsome
    cases slot with
    | property mapping =>
      have hproperty : projection.tree.property? 0 (place ++ [name]) = some mapping := by
        rw [MappingTree.property?_concat, hreach, Option.bind_some, hslot]
      obtain ⟨shown, hmem, haddress, _⟩ := h.found _ mapping hproperty
      exact ⟨shown, hmem, haddress ▸ Locator.isUnder_refl _⟩
    | node child =>
      have hchild := MappingTree.reach?_concat hreach hslot
      rcases (h.reached _).1 (Option.isSome_of_eq_some hchild) with
        hnil | ⟨mapping, hmem, hunder, _⟩
      . simp at hnil
      . exact ⟨mapping, hmem, hunder⟩
  . rintro ⟨mapping, hmem, hunder⟩
    by_cases heq : mapping.locator = place ++ [name]
    . have hheld := h.held mapping hmem
      rw [heq, MappingTree.property?_concat, hreach, Option.bind_some] at hheld
      cases hslot : projection.tree.slot? target name with
      | none => simp [hslot] at hheld
      | some slot => rfl
    . obtain ⟨child, hchild⟩ := Option.isSome_iff_exists.1
        ((h.reached (place ++ [name])).2 (.inr ⟨mapping, hmem, hunder, heq⟩))
      obtain ⟨parent, hparent, hslot⟩ := MappingTree.reach?_concat_eq_some hchild
      rw [hreach] at hparent
      cases hparent
      rw [hslot]
      rfl

theorem Sifts.presents (object : SceneObject) (scenePath : Path) :
    Presents (projection.container object scenePath) sifted.accepted
      fun mapping => mapping.result object ⟨scenePath, top ++ mapping.locator⟩ where
  inside := by
    intro mapping hmem rest
    rw [← serve_placed]
    exact h.wellFormed.container_at?_of_property? object scenePath (h.held mapping hmem) rest
  above := by
    intro place hplace
    obtain ⟨target, htarget⟩ := Option.isSome_iff_exists.1 ((h.reached place).2 hplace)
    refine ⟨_, h.wellFormed.container_at?_of_reach? object scenePath htarget, ?_⟩
    rw [MappingTree.container_names]
    exact ⟨h.ascending target, h.mem_keys_iff htarget⟩
  beside := by
    intro place hne hbeside
    apply h.wellFormed.container_at?_eq_none
    . rw [← Option.not_isSome_iff_eq_none, h.reached]
      rintro (hnil | ⟨mapping, hmem, hunder, _⟩)
      . exact hne hnil
      . exact hbeside mapping hmem (Locator.isRelatedTo_iff.2 (.inr hunder))
    . intro address mapping hproperty hunder
      obtain ⟨shown, hmem, haddress, _⟩ := h.found address mapping hproperty
      subst haddress
      exact hbeside shown hmem (Locator.isRelatedTo_iff.2 (.inl hunder))

end Presents

theorem ofMappings_presents (mappings : List PropertyMapping) (top : Locator) :
    let projection := ofMappings mappings top
    let sifted := sift mappings
    projection.places
        = sifted.accepted.map (fun mapping => (mapping.name, top ++ mapping.locator)) ∧
      projection.issues = sifted.issues ∧
      ∀ (object : SceneObject) (scenePath : Path),
        Presents (projection.container object scenePath) sifted.accepted
          fun mapping => mapping.result object ⟨scenePath, top ++ mapping.locator⟩ := by
  intro projection sifted
  have h : Sifts top projection sifted := ofMappings_sifts mappings top
  exact ⟨h.places, h.issues, h.presents⟩

-- The container is there without mappings, and so is what a mapping puts below its address.
theorem container_at?_isSome_root_and_inside :
    let object : SceneObject := ⟨.root, fun _ => some (.constant (.int 1)), fun _ => none⟩
    let make : Attribute → MappedPlace → Option Source := fun value place =>
      some (Source.ofEntries [("x", value.source place)])
    let mapping : PropertyMapping := ⟨"width", ["size"], .ofAttribute (some make)⟩
    let place : Locator := ["size", "x"]
    ((sift []).accepted = [] ∧ (((ofMappings [] []).container object .root).at? []).isSome) ∧
      (sift [mapping]).accepted = [mapping] ∧ mapping.locator ≠ place ∧
        ¬ mapping.locator.isUnder place ∧
        ((ofMappings [mapping] []).container object .root).at? place = some (.value (.int 1)) := by
  intro object make mapping place
  have h := (ofMappings_sifts [mapping] []).presents object .root
  have hinside := h.inside mapping List.mem_cons_self ["x"]
  exact ⟨⟨rfl, by simp [Container.at?]⟩, rfl, by decide, by decide, hinside⟩

end Projection

end SceneTree
