import SceneTree.Proofs.Projection.Accepted

/-!
This module contains what becomes of the mappings that a projection leaves out: nothing but the
issues that tell of them. The projection of the accepted mappings alone is the same.
-/

namespace SceneTree

namespace Projection

section Add

variable {top : Locator} {projection : Projection} {mapping : PropertyMapping}

theorem add_of_accepts (h : projection.accepts top mapping) :
    projection.add top mapping
      =
    { projection with
      places := projection.places ++ [(mapping.name, top ++ mapping.locator)]
      tree := (projection.tree.add mapping.locator (placed top mapping)).2 } := by
  unfold accepts placed at h
  unfold add placed
  dsimp only
  split
  . next heq => rw [heq]
  . next heq => simp [heq] at h

theorem exists_issue_of_not_accepts (h : ¬ projection.accepts top mapping) :
    ∃ issue, (projection.tree.add mapping.locator (placed top mapping)).1 = some issue := by
  unfold accepts at h
  rwa [Option.isNone_iff_eq_none, ← ne_eq, Option.ne_none_iff_exists'] at h

variable (hformed : projection.tree.WellFormed)
include hformed

theorem add_of_issue {issue : MappingIssue}
    (hissue : (projection.tree.add mapping.locator (placed top mapping)).1 = some issue) :
    projection.add top mapping
      =
    { projection with issues := projection.issues ++ [issue] } := by
  have htree := hformed.add_of_issue (placed top mapping) hissue
  unfold placed at hissue htree
  unfold add
  dsimp only
  split
  . next heq => simp [heq] at hissue
  . next heq =>
    rw [heq] at hissue htree
    cases hissue
    cases htree
    rfl

end Add

theorem foldl_next_accepted_sublist (sifted : Sifted) (mappings : List PropertyMapping) :
    (mappings.foldl Sifted.next sifted).accepted.Sublist (sifted.accepted ++ mappings) := by
  induction mappings generalizing sifted with
  | nil => simp
  | cons mapping rest ih =>
    apply (ih (sifted.next mapping)).trans
    unfold Sifted.next
    split
    . rw [List.append_assoc]
      rfl
    . exact (List.sublist_cons_self mapping rest).append_left sifted.accepted

-- Each mapping is either accepted or has an issue.
theorem length_foldl_next (sifted : Sifted) (mappings : List PropertyMapping) :
    (mappings.foldl Sifted.next sifted).accepted.length
        + (mappings.foldl Sifted.next sifted).issues.length
      =
    sifted.accepted.length + sifted.issues.length + mappings.length := by
  induction mappings generalizing sifted with
  | nil => rfl
  | cons mapping rest ih =>
    have hnext : (sifted.next mapping).accepted.length + (sifted.next mapping).issues.length
        = sifted.accepted.length + sifted.issues.length + 1 := by
      unfold Sifted.next
      split
      . dsimp only
        rw [List.length_append, List.length_singleton]
        omega
      . dsimp only
        rw [List.length_append, List.length_singleton]
        omega
    rw [List.foldl_cons, ih, hnext, List.length_cons]
    omega

theorem sift_concat (mappings : List PropertyMapping) (last : PropertyMapping) :
    sift (mappings ++ [last]) = (sift mappings).next last :=
  List.foldl_append

theorem ofMappings_concat (mappings : List PropertyMapping) (last : PropertyMapping)
    (top : Locator) :
    ofMappings (mappings ++ [last]) top = (ofMappings mappings top).add top last :=
  List.foldl_append

-- The induction takes the last mapping off, for which both lists have led to the same tree.
theorem ofMappings_sift_accepted (mappings : List PropertyMapping) (top : Locator) :
    ofMappings (sift mappings).accepted top = { ofMappings mappings top with issues := [] } := by
  induction mappings using List.reverseRecOn with
  | nil => rfl
  | append_singleton rest last ih =>
    have hsifts := ofMappings_sifts rest top
    have haccepts := hsifts.accepts_eq last
    rw [sift_concat, ofMappings_concat]
    unfold Sifted.next
    by_cases hfree : isFree (sift rest).accepted last
    . rw [hfree] at haccepts
      rw [if_pos hfree, ofMappings_concat, ih, add_of_accepts haccepts]
      exact add_of_accepts haccepts
    . rw [← haccepts] at hfree
      obtain ⟨issue, hissue⟩ := exists_issue_of_not_accepts hfree
      rw [← haccepts, if_neg hfree, ih, add_of_issue hsifts.wellFormed hissue]

theorem ofMappings_accepted (mappings : List PropertyMapping) (top : Locator) :
    let projection := ofMappings mappings top
    let kept := (sift mappings).accepted
    kept.Sublist mappings ∧ kept.length + projection.issues.length = mappings.length ∧
      ofMappings kept top = { projection with issues := [] } ∧
      ∀ (mapping : PropertyMapping) (issue : MappingIssue),
        (projection.tree.add mapping.locator (placed top mapping)).1 = some issue →
        (projection.tree.add mapping.locator (placed top mapping)).2 = projection.tree ∧
          ofMappings (mappings ++ [mapping]) top
            = { projection with issues := projection.issues ++ [issue] } := by
  intro projection kept
  have hsifts : Sifts top projection (sift mappings) := ofMappings_sifts mappings top
  have hformed := hsifts.wellFormed
  refine ⟨foldl_next_accepted_sublist ⟨[], []⟩ mappings, ?_,
    ofMappings_sift_accepted mappings top, ?_⟩
  . rw [hsifts.issues]
    exact (length_foldl_next ⟨[], []⟩ mappings).trans (Nat.zero_add _)
  . intro mapping issue hissue
    refine ⟨hformed.add_of_issue (placed top mapping) hissue, ?_⟩
    rw [ofMappings_concat]
    exact add_of_issue hformed hissue

-- A mapping far below a property and one above it are left out, and a further one would be, too.
theorem ofMappings_accepted_below :
    let mapping (name : Token) (locator : Locator) : PropertyMapping :=
      ⟨name, locator, .ofAttribute (some Attribute.source)⟩
    let mappings := [mapping "width" ["size", "x"], mapping "unit" ["size", "x", "unit", "name"],
      mapping "area" ["size"], mapping "height" ["size", "y"]]
    let further := mapping "color" ["size", "y", "color", "red"]
    let issue := MappingIssue.locatorOccupied "color" ["size", "y", "color", "red"] "height"
    let projection := ofMappings mappings ["prim"]
    let kept := (sift mappings).accepted
    (projection.tree.add further.locator (placed ["prim"] further)).1 = some issue ∧
      (projection.tree.add further.locator (placed ["prim"] further)).2 = projection.tree ∧
      ofMappings (mappings ++ [further]) ["prim"]
        = { projection with issues := projection.issues ++ [issue] } ∧
      kept.map (·.name) = ["width", "height"] ∧ projection.tree.nodes.length = 2 ∧
      ofMappings kept ["prim"] = { projection with issues := [] } := by
  intro mapping mappings further issue projection kept
  have hissue : (projection.tree.add further.locator (placed ["prim"] further)).1 = some issue := by
    decide
  obtain ⟨_, _, hkept, hrejected⟩ := ofMappings_accepted mappings ["prim"]
  obtain ⟨htree, hfurther⟩ := hrejected further issue hissue
  exact ⟨hissue, htree, hfurther, by decide, by decide, hkept⟩

end Projection

end SceneTree
