import SceneTree.Proofs.Flatten.Children
import SceneTree.Proofs.Path.Chain

/-!
This module contains whose visibility a flattened prim has: that of the deepest prim on the way from
the root that says how visible it is. All that this prim holds for visibility is taken over as one.
-/

namespace SceneTree

theorem Schema.isSome_child?_leaf (data : Option Container) (name : Token) :
    (child? .leaf data name).isSome = (data.bind (·.sampled? name)).isSome := by
  unfold Container.sampled? child?
  rw [← Option.bind_assoc]
  cases data.bind (·.child name) with
  | none => rfl
  | some source => cases source <;> rfl

namespace Scene

def ownVisibility? (scene : Scene) (path : Path) : Option Container :=
  (scene.prim? path).bind (·.container? "visibility")

def saysVisibility (scene : Scene) (path : Path) : Bool :=
  ((scene.ownVisibility? path).bind (·.sampled? "visibility")).isSome

theorem isSome_ownVisibility? {scene : Scene} {path : Path} (h : scene.saysVisibility path) :
    (scene.ownVisibility? path).isSome :=
  Option.isSome_of_isSome_bind h

theorem flattenVisibility_eq (scene : Scene) (path : Path) (inherited : Option Container) :
    FlattenRule.flattenVisibility (scene.ownVisibility? path) inherited
      =
    if scene.saysVisibility path then scene.ownVisibility? path else inherited := by
  unfold FlattenRule.flattenVisibility saysVisibility
  rw [← Schema.isSome_child?_leaf]
  rfl

-- The induction is on the path: a prim that says nothing has what its parent has.
theorem inherited_visibility (scene : Scene) (path : Path) :
    scene.inherited ("visibility", .visibility) path
      =
    (path.deepest? scene.saysVisibility).bind scene.ownVisibility? := by
  induction path using Path.induction with
  | h path ih =>
    rw [inherited_eq, Path.deepest?_eq]
    refine (scene.flattenVisibility_eq path _).trans ?_
    split
    . rfl
    . cases hparent : path.parent? with
      | none => rfl
      | some parent => exact ih parent hparent

end Scene

namespace FlattenRules

-- Whatever a prim lists, the name of a rule is listed if the rule made something.
theorem mem_names_flatten_iff {rules : FlattenRules} (hnames : (Dict.keys rules).Nodup)
    {name : Token} (hname : name ∈ Dict.keys rules) (path : Path)
    (prim parent : Option Container) :
    name ∈ (rules.flatten path prim parent).names
      ↔
    ((rules.flatten path prim parent).child name).isSome := by
  rw [flatten_names hnames]
  by_cases hlisted : name ∈ Schema.namesOf prim
  . cases rules.isEmpty <;> simp [hname, hlisted]
  . cases rules.isEmpty <;> simp [hname, hlisted]

end FlattenRules

namespace FlattenCache

theorem visibility_lookups_eq_deepest (scene : Scene) (lookups : List Path) {path : Path}
    (hcontains : scene.contains path) :
    ∃ flat, (((new scene .standard).run (lookups.map .lookup)).prim? path).1 = some flat ∧
      flat.child "visibility"
        = ((path.deepest? scene.saysVisibility).bind scene.ownVisibility?).map Container.source ∧
      ("visibility" ∈ flat.names ↔ ∃ link ∈ path.chain, scene.saysVisibility link) := by
  have hnames : (Dict.keys FlattenRules.standard).Nodup := by decide
  have hrule : ("visibility", FlattenRule.visibility) ∈ FlattenRules.standard := by
    simp [FlattenRules.standard]
  have hchild := scene.flattened_child_of_mem hnames hrule path
  rw [scene.inherited_visibility] at hchild
  refine ⟨scene.flattened .standard path, ?_, hchild, ?_⟩
  . obtain ⟨prim, hprim⟩ := Option.isSome_iff_exists.1 hcontains
    rw [lookups_prim?, Scene.prim?, hprim]
    rfl
  . have hkey : "visibility" ∈ Dict.keys FlattenRules.standard := List.mem_map_of_mem hrule
    have hlisted : "visibility" ∈ (scene.flattened .standard path).names
        ↔ ((scene.flattened .standard path).child "visibility").isSome := by
      rw [Scene.flattened_eq]
      exact FlattenRules.mem_names_flatten_iff hnames hkey path _ _
    rw [hlisted, hchild, Option.isSome_map, ← Path.isSome_deepest?_iff]
    cases hdeepest : path.deepest? scene.saysVisibility with
    | none => rfl
    | some top =>
      rw [Option.bind_some, Scene.isSome_ownVisibility? (Path.of_deepest? hdeepest)]
      rfl

-- A prim below a missing one has a container that says nothing, so it takes over one from further
-- above. Where no prim above says anything either, its own container is not kept.
theorem visibility_lookups_eq_deepest_hidden :
    let outer : Path := ⟨["a"], by decide⟩
    let inner : Path := ⟨["a", "b", "c"], by decide⟩
    let apart : Path := ⟨["d"], by decide⟩
    let hidden := Container.ofEntries [("visibility", some (.value (.bool false))),
      ("purpose", some (.value (.token "guide")))]
    let silent := Container.ofEntries [("visibility", some (Source.ofEntries [("visibility",
      some (Source.ofEntries []))]))]
    let scene : Scene := ⟨[(inner, silent),
      (outer, Container.ofEntries [("visibility", some hidden.source)]), (apart, silent)]⟩
    scene.contains inner ∧ scene.contains apart ∧
      (∃ flat, ((new scene .standard).prim? inner).1 = some flat ∧
        flat.child "visibility" = some hidden.source) ∧
      ∃ flat, ((new scene .standard).prim? apart).1 = some flat ∧
        flat.child "visibility" = none ∧ "visibility" ∉ flat.names := by
  intro outer inner apart hidden silent scene
  have hinner : scene.contains inner := by decide
  have hapart : scene.contains apart := by decide
  obtain ⟨low, hlow, hlowChild, -⟩ := visibility_lookups_eq_deepest scene [] hinner
  obtain ⟨other, hother, hotherChild, hotherListed⟩ :=
    visibility_lookups_eq_deepest scene [] hapart
  have hdeepest : inner.deepest? scene.saysVisibility = some outer := by
    have hinnerParent : inner.parent? = some ⟨["a", "b"], by decide⟩ := rfl
    have hbetween : (⟨["a", "b"], by decide⟩ : Path).parent? = some outer := rfl
    rw [Path.deepest?_eq, if_neg (by decide), hinnerParent, Option.bind_some,
      Path.deepest?_eq, if_neg (by decide), hbetween, Option.bind_some,
      Path.deepest?_eq, if_pos (by decide)]
  have hnone : apart.deepest? scene.saysVisibility = none := by
    have hapartParent : apart.parent? = some .root := rfl
    have hroot : Path.root.parent? = none := rfl
    rw [Path.deepest?_eq, if_neg (by decide), hapartParent, Option.bind_some,
      Path.deepest?_eq, if_neg (by decide), hroot, Option.bind_none]
  rw [hdeepest] at hlowChild
  rw [hnone] at hotherChild
  refine ⟨hinner, hapart, ⟨low, hlow, hlowChild⟩, other, hother, hotherChild, ?_⟩
  rw [hotherListed, ← Path.isSome_deepest?_iff, hnone]
  exact Bool.false_ne_true

end FlattenCache

end SceneTree
