import SceneTree.Flatten.Cache
import SceneTree.Proofs.Edit.History

/-!
This module contains the flattened prims of a scene, found without a cache, and what they depend on:
prims at and above a path, and of those above only what they hold under the names of the rules.
-/

namespace SceneTree

namespace FlattenRules

def changes (rules : FlattenRules) (path : Path) (prim parent : Option Container) :
    List Editor.Change :=
  rules.map fun rule => {
    place := [rule.1]
    source := (rule.2.flatten {
      path
      own := prim.bind (·.container? rule.1)
      inherited := parent.bind (·.container? rule.1) }).map Container.source }

theorem flatten_eq_finish_run (rules : FlattenRules) (path : Path)
    (prim parent : Option Container) :
    rules.flatten path prim parent
      =
    ((Editor.new prim).run (rules.changes path prim parent)).finish := by
  unfold flatten changes Editor.run
  rw [List.foldl_map]

def Agree (rules : FlattenRules) (prim other : Option Container) : Prop :=
  ∀ rule ∈ rules, prim.bind (·.child rule.1) = other.bind (·.child rule.1)

theorem Agree.changes_eq {rules : FlattenRules} {prim other parent otherParent : Option Container}
    (hprim : rules.Agree prim other) (hparent : rules.Agree parent otherParent) (path : Path) :
    rules.changes path prim parent = rules.changes path other otherParent := by
  unfold changes
  apply List.map_congr_left
  intro rule hrule
  have hcontainer : ∀ {a b : Option Container}, rules.Agree a b →
      a.bind (·.container? rule.1) = b.bind (·.container? rule.1) := by
    intro a b h
    unfold Container.container?
    rw [← Option.bind_assoc, ← Option.bind_assoc, h rule hrule]
  rw [hcontainer hprim, hcontainer hparent]

-- Nothing but the parent's containers of the rules reaches a prim.
theorem Agree.flatten_eq {rules : FlattenRules} {parent other : Option Container}
    (h : rules.Agree parent other) (path : Path) (prim : Option Container) :
    rules.flatten path prim parent = rules.flatten path prim other := by
  rw [flatten_eq_finish_run, flatten_eq_finish_run]
  rw [Agree.changes_eq (fun _ _ => rfl) h path]

theorem Agree.flatten {rules : FlattenRules} {prim other : Option Container}
    (h : rules.Agree prim other) (path : Path) (parent : Option Container) :
    rules.Agree (some (rules.flatten path prim parent))
      (some (rules.flatten path other parent)) := by
  intro rule hrule
  have hread : ∀ {container : Option Container},
      (Editor.new container).finish.at? [rule.1] = container.bind (·.child rule.1) := by
    intro container
    rw [Editor.new_finish_at? container (by simp)]
    simp only [Container.at?_singleton]
  rw [flatten_eq_finish_run, flatten_eq_finish_run, h.changes_eq (fun _ _ => rfl) path]
  simp only [Option.bind_some, ← Container.at?_singleton]
  apply (Editor.new_valid prim).run_finish_at?_congr (Editor.new_valid other)
  . simp
  . intro change hchange hunder
    obtain ⟨written, _, hwritten⟩ := List.mem_map.1 hchange
    subst hwritten
    simp only [Locator.cons_isUnder_cons, Locator.isUnder_nil, Bool.and_true, beq_iff_eq] at hunder
    rw [hunder]
  . rw [hread, hread, h rule hrule]

end FlattenRules

namespace Scene

def flattened (scene : Scene) (rules : FlattenRules) (path : Path) : Container :=
  rules.flatten path (scene.prim? path) <|
    match h : path.parent? with
    | none => none
    | some parent =>
      have := Path.depth_lt_of_parent? h
      some (scene.flattened rules parent)
termination_by path.depth

theorem flattened_eq (scene : Scene) (rules : FlattenRules) (path : Path) :
    scene.flattened rules path
      =
    rules.flatten path (scene.prim? path) (path.parent?.map (scene.flattened rules)) := by
  rw [flattened]
  congr 1
  split
  . next h => exact (congrArg (Option.map _) h).symm
  . next h => exact (congrArg (Option.map _) h).symm

-- A prim is flattened from prims at and above its path only.
theorem flattened_insert_of_not_isUnder (scene : Scene) (rules : FlattenRules) {path : Path}
    (prim : Container) (other : Path) (h : ¬ other.isUnder path) :
    (scene.insert path prim).flattened rules other = scene.flattened rules other := by
  induction other using Path.induction with
  | h other ih =>
    have hne : path ≠ other := by
      intro heq
      subst heq
      exact h path.isUnder_refl
    rw [flattened_eq, flattened_eq, prim?_insert, if_neg hne]
    cases hparent : other.parent? with
    | none => rfl
    | some parent =>
      have hparentNot : ¬ parent.isUnder path := fun hunder =>
        h (Path.isUnder_of_parent? hparent hunder)
      rw [Option.map_some, Option.map_some, ih parent hparent hparentNot]

-- A prim that agrees with the one that it replaces makes no difference to any other.
theorem flattened_insert_of_agree (scene : Scene) {rules : FlattenRules} {path : Path}
    {prim : Container} (hagree : rules.Agree (scene.prim? path) (some prim)) (other : Path) :
    rules.Agree (some (scene.flattened rules other))
        (some ((scene.insert path prim).flattened rules other)) ∧
      (other ≠ path →
        (scene.insert path prim).flattened rules other = scene.flattened rules other) := by
  induction other using Path.induction with
  | h other ih =>
    have hparents : rules.Agree (other.parent?.map (scene.flattened rules))
        (other.parent?.map ((scene.insert path prim).flattened rules)) := by
      cases hparent : other.parent? with
      | none => exact fun _ _ => rfl
      | some parent => exact (ih parent hparent).1
    by_cases hother : other = path
    . subst hother
      refine ⟨?_, fun hne => absurd rfl hne⟩
      rw [flattened_eq, flattened_eq, ← hparents.flatten_eq, prim?_insert, if_pos rfl]
      exact hagree.flatten other _
    . have heq : (scene.insert path prim).flattened rules other
          = scene.flattened rules other := by
        rw [flattened_eq, flattened_eq, ← hparents.flatten_eq, prim?_insert,
          if_neg (Ne.symm hother)]
      refine ⟨?_, fun _ => heq⟩
      rw [heq]
      exact fun _ _ => rfl

end Scene

end SceneTree
