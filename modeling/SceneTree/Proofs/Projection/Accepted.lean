import SceneTree.Projection
import SceneTree.Proofs.Projection.Reached

/-!
This module contains which mappings of a list a projection accepts, and what it says of the others,
by their addresses alone: a mapping is accepted if it has an address and no mapping that was
accepted before it is at this address, above it or below it.
-/

namespace SceneTree

namespace Projection

def isFree (accepted : List PropertyMapping) (mapping : PropertyMapping) : Bool :=
  mapping.locator ≠ [] && accepted.all fun other => !mapping.locator.isRelatedTo other.locator

/--
Why a mapping that is not free is left out. If none is at its address or above, others are below.
-/
def issueBeside (accepted : List PropertyMapping) (mapping : PropertyMapping) : MappingIssue :=
  if mapping.locator = [] then .emptyLocator mapping.name
  else match accepted.find? (mapping.locator.isUnder ·.locator) with
    | some other => .locatorOccupied mapping.name mapping.locator other.name
    | none => .containerOccupied mapping.name mapping.locator

structure Sifted where
  accepted : List PropertyMapping
  issues : List MappingIssue

def Sifted.next (sifted : Sifted) (mapping : PropertyMapping) : Sifted :=
  if isFree sifted.accepted mapping then
    { sifted with accepted := sifted.accepted ++ [mapping] }
  else { sifted with issues := sifted.issues ++ [issueBeside sifted.accepted mapping] }

def sift (mappings : List PropertyMapping) : Sifted :=
  mappings.foldl Sifted.next ⟨[], []⟩

theorem isFree_iff (accepted : List PropertyMapping) (mapping : PropertyMapping) :
    isFree accepted mapping
      ↔
    mapping.locator ≠ [] ∧ ∀ other ∈ accepted, ¬ mapping.locator.isRelatedTo other.locator := by
  simp [isFree]

theorem isFree_eq_false {accepted : List PropertyMapping} {mapping other : PropertyMapping}
    (hother : other ∈ accepted) (hrelated : mapping.locator.isRelatedTo other.locator) :
    isFree accepted mapping = false := by
  rw [Bool.eq_false_iff, ne_eq, isFree_iff]
  exact fun hfree => hfree.2 other hother hrelated

def placed (top : Locator) (mapping : PropertyMapping) : PropertyMapping :=
  { mapping with locator := top ++ mapping.locator }

def accepts (top : Locator) (projection : Projection) (mapping : PropertyMapping) : Bool :=
  (projection.tree.add mapping.locator (placed top mapping)).1.isNone

/--
The invariant of projections: the places and the tree hold the same mappings, of which no two have
related addresses.
-/
structure Shows (top : Locator) (projection : Projection) (mappings : List PropertyMapping) :
    Prop where
  wellFormed : projection.tree.WellFormed
  places : projection.places = mappings.map fun mapping => (mapping.name, top ++ mapping.locator)
  found : ∀ address mapping, projection.tree.property? 0 address = some mapping →
    ∃ shown ∈ mappings, shown.locator = address ∧ mapping = placed top shown
  held : ∀ mapping ∈ mappings,
    projection.tree.property? 0 mapping.locator = some (placed top mapping)
  unrelated : mappings.Pairwise fun a b => ¬ a.locator.isRelatedTo b.locator

theorem empty_shows (top : Locator) : Shows top empty [] where
  wellFormed := MappingTree.empty_wellFormed
  places := rfl
  found := by
    intro address mapping h
    cases address with
    | nil => cases h
    | cons name rest =>
      simp only [empty, MappingTree.property?, MappingTree.slot?_empty] at h
      cases h
  held := by simp
  unrelated := List.Pairwise.nil

theorem add_eq (top : Locator) (projection : Projection) (mapping : PropertyMapping) :
    (projection.add top mapping).tree
        = (projection.tree.add mapping.locator (placed top mapping)).2 ∧
      (projection.add top mapping).places
        = if projection.accepts top mapping then
            projection.places ++ [(mapping.name, top ++ mapping.locator)]
          else projection.places := by
  unfold add accepts placed
  dsimp only
  split
  . next heq => simp [heq]
  . next heq => simp [heq]

theorem Shows.add_of_not_accepts {top : Locator} {projection : Projection}
    {mappings : List PropertyMapping} (h : Shows top projection mappings)
    {mapping : PropertyMapping} (haccepts : ¬ projection.accepts top mapping) :
    Shows top (projection.add top mapping) mappings := by
  obtain ⟨htree, hplaces⟩ := add_eq top projection mapping
  have hadded := h.wellFormed.add mapping.locator (placed top mapping)
  rw [if_neg haccepts] at hplaces
  have hproperty : ∀ address, (projection.add top mapping).tree.property? 0 address
      = projection.tree.property? 0 address := by
    intro address
    rw [htree, hadded.property?, if_neg]
    exact fun haccepted => haccepts (Option.isNone_iff_eq_none.2 haccepted.1)
  refine ⟨htree ▸ hadded.wellFormed, hplaces.trans h.places, ?_, ?_, h.unrelated⟩
  . intro address other hother
    exact h.found address other ((hproperty address).symm.trans hother)
  . intro other hother
    exact (hproperty other.locator).trans (h.held other hother)

theorem Shows.add_of_accepts {top : Locator} {projection : Projection}
    {mappings : List PropertyMapping} (h : Shows top projection mappings)
    {mapping : PropertyMapping} (haccepts : projection.accepts top mapping) :
    Shows top (projection.add top mapping) (mappings ++ [mapping]) := by
  obtain ⟨htree, hplaces⟩ := add_eq top projection mapping
  have hadded := h.wellFormed.add mapping.locator (placed top mapping)
  have haccepted := Option.isNone_iff_eq_none.1 haccepts
  rw [if_pos haccepts] at hplaces
  have hproperty : ∀ address, (projection.add top mapping).tree.property? 0 address
      = if address = mapping.locator then some (placed top mapping)
        else projection.tree.property? 0 address := by
    intro address
    rw [htree, hadded.property?]
    simp [haccepted]
  have hunrelated : ∀ other ∈ mappings, ¬ other.locator.isRelatedTo mapping.locator :=
    fun other hother => hadded.unrelated haccepted other.locator _ (h.held other hother)
  refine ⟨htree ▸ hadded.wellFormed, ?_, ?_, ?_, ?_⟩
  . rw [hplaces, h.places, List.map_append]
    rfl
  . intro address other hother
    rw [hproperty] at hother
    split at hother
    . next heq =>
      cases hother
      exact ⟨mapping, List.mem_append_right _ List.mem_cons_self, heq.symm, rfl⟩
    . obtain ⟨shown, hshown, hrest⟩ := h.found address other hother
      exact ⟨shown, List.mem_append_left _ hshown, hrest⟩
  . intro other hother
    rw [hproperty]
    rcases List.mem_append.1 hother with hother | hother
    . rw [if_neg]
      . exact h.held other hother
      . intro heq
        apply hunrelated other hother
        rw [heq, Locator.isRelatedTo_iff]
        exact .inl (Locator.isUnder_refl _)
    . rw [List.mem_singleton.1 hother, if_pos rfl]
  . rw [List.pairwise_append]
    refine ⟨h.unrelated, List.pairwise_singleton _ _, ?_⟩
    intro other hother last hlast
    rw [List.mem_singleton.1 hlast]
    exact hunrelated other hother

theorem Shows.eq_of_isUnder {top : Locator} {projection : Projection}
    {mappings : List PropertyMapping} (h : Shows top projection mappings)
    {first second : PropertyMapping}
    (hfirst : first ∈ mappings) (hsecond : second ∈ mappings)
    (hunder : first.locator.isUnder second.locator) : first.locator = second.locator := by
  obtain ⟨rest, hrest⟩ := Locator.exists_eq_append_of_isUnder hunder
  by_contra hne
  have hreach : projection.tree.reach? 0 second.locator = none := by
    simpa using MappingTree.reach?_of_property? (h.held second hsecond) []
  have hproperty := h.held first hfirst
  rw [hrest, MappingTree.property?_of_reach?_eq_none hreach] at hproperty
  . cases hproperty
  . rintro rfl
    exact hne (by simpa using hrest)

/--
The invariant of projections, with the mappings that are accepted by their addresses: the nodes of
the tree are the places above the mappings.
-/
structure Sifts (top : Locator) (projection : Projection) (sifted : Sifted) : Prop
    extends Shows top projection sifted.accepted where
  issues : projection.issues = sifted.issues
  ascending : projection.tree.Ascending
  reached : ∀ place, (projection.tree.reach? 0 place).isSome
    ↔ place = [] ∨ ∃ mapping ∈ sifted.accepted,
        mapping.locator.isUnder place ∧ mapping.locator ≠ place

theorem empty_sifts (top : Locator) : Sifts top empty ⟨[], []⟩ where
  toShows := empty_shows top
  issues := rfl
  ascending := MappingTree.empty_ascending
  reached := by
    intro place
    cases place with
    | nil => simp [MappingTree.reach?]
    | cons name rest => simp [MappingTree.reach?, empty, MappingTree.slot?_empty]

theorem add_issues (top : Locator) (projection : Projection) (mapping : PropertyMapping) :
    (projection.add top mapping).issues
      =
    projection.issues ++
      (projection.tree.add mapping.locator (placed top mapping)).1.toList := by
  unfold add placed
  dsimp only
  split
  . next heq => simp [heq]
  . next heq => simp [heq]

section Sifts

variable {top : Locator} {projection : Projection} {sifted : Sifted}
variable (h : Sifts top projection sifted) (mapping : PropertyMapping)
include h

-- At most one accepted mapping is at an address or above it.
theorem Sifts.name_eq_of_isUnder {locator : Locator} {first second : PropertyMapping}
    (hfirst : first ∈ sifted.accepted) (hsecond : second ∈ sifted.accepted)
    (hfirstUnder : locator.isUnder first.locator) (hsecondUnder : locator.isUnder second.locator) :
    first.name = second.name := by
  have hsame : first.locator = second.locator := by
    have hrelated := Locator.isRelatedTo_of_isUnder hfirstUnder hsecondUnder
    rcases Locator.isRelatedTo_iff.1 hrelated with hunder | hunder
    . exact h.eq_of_isUnder hfirst hsecond hunder
    . exact (h.eq_of_isUnder hsecond hfirst hunder).symm
  have hheld := h.held first hfirst
  rw [hsame, h.held second hsecond] at hheld
  simp only [placed, Option.some.injEq, PropertyMapping.mk.injEq] at hheld
  exact hheld.1.symm

theorem Sifts.add_issue :
    (projection.tree.add mapping.locator (placed top mapping)).1
      =
    if isFree sifted.accepted mapping then none
    else some (issueBeside sifted.accepted mapping) := by
  have hunrelated := (h.wellFormed.add mapping.locator (placed top mapping)).unrelated
  have hjudged := h.wellFormed.add_judged (placed top mapping) mapping.locator
  generalize (projection.tree.add mapping.locator (placed top mapping)).1 = issue at *
  unfold issueBeside
  cases hjudged with
  | empty hnil =>
    rw [if_neg (by simp [isFree, hnil]), if_pos hnil]
    rfl
  | @occupied address other hne hunder hproperty =>
    obtain ⟨shown, hshown, haddress, hplaced⟩ := h.found address other hproperty
    subst haddress hplaced
    rw [isFree_eq_false hshown (Locator.isRelatedTo_iff.2 (.inl hunder)), if_neg nofun, if_neg hne]
    cases hfind : sifted.accepted.find? (mapping.locator.isUnder ·.locator) with
    | none => exact absurd hunder (List.find?_eq_none.1 hfind shown hshown)
    | some first =>
      have hfirst := List.find?_some hfind
      have hname := h.name_eq_of_isUnder (List.mem_of_find?_eq_some hfind) hshown hfirst hunder
      dsimp only
      rw [hname]
      rfl
  | container hne hreached =>
    rcases (h.reached mapping.locator).1 hreached with hnil | ⟨below, hmem, hunder, _⟩
    . exact absurd hnil hne
    . rw [isFree_eq_false hmem (Locator.isRelatedTo_iff.2 (.inr hunder)), if_neg nofun, if_neg hne]
      cases hfind : sifted.accepted.find? (mapping.locator.isUnder ·.locator) with
      | none => rfl
      | some first =>
        -- Below a mapping there are no nodes.
        have hfirst := List.find?_some hfind
        have hblocked := h.held first (List.mem_of_find?_eq_some hfind)
        obtain ⟨rest, hrest⟩ := Locator.exists_eq_append_of_isUnder hfirst
        rw [hrest, MappingTree.reach?_of_property? hblocked] at hreached
        cases hreached
  | accepted hne =>
    rw [if_pos]
    rw [isFree_iff]
    refine ⟨hne, fun other hmem hrelated => ?_⟩
    apply hunrelated rfl other.locator _ (h.held other hmem)
    rw [Locator.isRelatedTo_iff] at hrelated ⊢
    exact hrelated.symm

theorem Sifts.accepts_eq : projection.accepts top mapping = isFree sifted.accepted mapping := by
  unfold accepts
  rw [h.add_issue]
  cases isFree sifted.accepted mapping <;> rfl

theorem Sifts.add : Sifts top (projection.add top mapping) (sifted.next mapping) := by
  obtain ⟨htree, _⟩ := add_eq top projection mapping
  have hissue := h.add_issue mapping
  have hissues := add_issues top projection mapping
  have hascending := h.ascending.add h.wellFormed mapping.locator (placed top mapping)
  have hreached := h.wellFormed.add_reach?_isSome_iff (placed top mapping) mapping.locator
  rw [← htree] at hascending hreached
  unfold Sifted.next
  by_cases hfree : isFree sifted.accepted mapping
  . rw [if_pos hfree] at hissue ⊢
    rw [hissue] at hissues hreached
    rw [← h.accepts_eq] at hfree
    refine { h.toShows.add_of_accepts hfree with
      issues := by simpa [h.issues] using hissues
      ascending := hascending
      reached := ?_ }
    intro place
    rw [hreached, h.reached]
    simp only [true_and, List.mem_append, List.mem_singleton, or_and_right, exists_or,
      exists_eq_left, or_assoc]
  . rw [if_neg hfree] at hissue ⊢
    rw [hissue] at hissues hreached
    rw [← h.accepts_eq] at hfree
    refine { h.toShows.add_of_not_accepts hfree with
      issues := by simpa [h.issues] using hissues
      ascending := hascending
      reached := ?_ }
    intro place
    rw [hreached, h.reached]
    simp

end Sifts

theorem ofMappings_sifts (mappings : List PropertyMapping) (top : Locator) :
    Sifts top (ofMappings mappings top) (sift mappings) := by
  have hfold : ∀ (projection : Projection) (sifted : Sifted), Sifts top projection sifted →
      Sifts top (mappings.foldl (add top) projection) (mappings.foldl Sifted.next sifted) := by
    induction mappings with
    | nil => exact fun _ _ h => h
    | cons mapping rest ih => exact fun _ _ h => ih _ _ (h.add mapping)
  exact hfold empty ⟨[], []⟩ (empty_sifts top)

end Projection

end SceneTree
