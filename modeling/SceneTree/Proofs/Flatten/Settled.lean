import SceneTree.Proofs.Edit.Names
import SceneTree.Proofs.Flatten.Transform

/-!
This module contains the flattening of prims that are flattened already: a rule keeps what it made,
whatever the prims above hold, so nothing is taken over from them a second time.
-/

namespace SceneTree

namespace FlattenRule

def Keeps (rule : FlattenRule) (container : Container) : Prop :=
  ∀ input, input.own = some container → rule.flatten input = some container

structure Settles (rule : FlattenRule) : Prop where
  made : ∀ input container, (∀ above, input.inherited = some above → rule.Keeps above) →
    rule.flatten input = some container → rule.Keeps container
  absent : ∀ input, rule.flatten input = none → rule.flatten { input with own := none } = none

theorem Settles.flatten_flatten {rule : FlattenRule} (h : rule.Settles) (input : FlattenInput)
    (habove : ∀ above, input.inherited = some above → rule.Keeps above) :
    rule.flatten { input with own := rule.flatten input } = rule.flatten input := by
  cases hmade : rule.flatten input with
  | some container => exact h.made input container habove hmade _ rfl
  | none => exact h.absent input hmade

theorem xform_keeps {container : Container} (hmatrix : (Schema.matrix? (some container)).isSome)
    (hresets : Schema.resets (some container)) : xform.Keeps container := by
  intro input hown
  obtain ⟨matrix, hmatrix⟩ := Option.isSome_iff_exists.1 hmatrix
  change some (flattenXform Matrix.mul input.own input.inherited) = some container
  unfold flattenXform
  rw [hown, hmatrix, if_pos hresets]

theorem completeXform_kept (matrix : Sampled) : xform.Keeps (completeXform matrix) :=
  xform_keeps rfl rfl

theorem xform_settles : xform.Settles where
  made := by
    intro input container habove hmade
    cases hmade
    unfold flattenXform
    split
    . next hresets =>
      split
      . next matrix container hmatrix hown =>
        rw [hown] at hmatrix hresets
        exact xform_keeps (Option.isSome_of_eq_some hmatrix) hresets
      . exact completeXform_kept _
    . split
      . exact completeXform_kept _
      . next outer _ houter =>
        cases hinherited : input.inherited with
        | none => exact completeXform_kept _
        | some above => exact habove above hinherited
      . exact completeXform_kept _
      . exact completeXform_kept _
  absent := by
    intro input hmade
    cases hmade

theorem visibility_settles : visibility.Settles where
  made := by
    intro input container habove hmade
    change flattenVisibility input.own input.inherited = some container at hmade
    unfold flattenVisibility at hmade
    split at hmade
    . next hvisible =>
      intro other hown
      change flattenVisibility other.own other.inherited = some container
      unfold flattenVisibility
      rw [hmade] at hvisible
      rw [hown, if_pos hvisible]
    . exact habove container hmade
  absent := by
    intro input hmade
    change flattenVisibility input.own input.inherited = none at hmade
    change flattenVisibility none input.inherited = none
    unfold flattenVisibility at hmade
    split at hmade
    . next hvisible =>
      rw [hmade] at hvisible
      cases hvisible
    . exact hmade

end FlattenRule

namespace FlattenRules

theorem settles_standard {rule : Token × FlattenRule} (hrule : rule ∈ standard) :
    rule.2.Settles := by
  simp only [standard, List.mem_cons, List.not_mem_nil, or_false] at hrule
  rcases hrule with hrule | hrule
  . subst hrule
    exact FlattenRule.xform_settles
  . subst hrule
    exact FlattenRule.visibility_settles

theorem flatten_container?_of_mem {rules : FlattenRules} (hnames : (Dict.keys rules).Nodup)
    {rule : Token × FlattenRule} (hrule : rule ∈ rules) (path : Path)
    (prim parent : Option Container) :
    (rules.flatten path prim parent).container? rule.1 = made rule path prim parent := by
  rw [Container.container?_eq_at?, flatten_at?_of_mem hnames hrule]
  cases made rule path prim parent with
  | none => rfl
  | some container => rfl

-- The rules find what they made, so they write it over what they wrote.
theorem flatten_flatten {rules : FlattenRules} (hnames : (Dict.keys rules).Nodup)
    (hsettles : ∀ rule ∈ rules, rule.2.Settles) (path : Path) (prim parent : Option Container)
    (hparent : ∀ rule ∈ rules, ∀ above,
      parent.bind (·.container? rule.1) = some above → rule.2.Keeps above) :
    rules.flatten path (some (rules.flatten path prim parent)) parent
      =
    rules.flatten path prim parent := by
  have hchanges : rules.changes path (some (rules.flatten path prim parent)) parent
      = rules.changes path prim parent := by
    apply List.map_congr_left
    intro rule hrule
    rw [Option.bind_some, flatten_container?_of_mem hnames hrule]
    have hagain := (hsettles rule hrule).flatten_flatten {
      path
      own := prim.bind (·.container? rule.1)
      inherited := parent.bind (·.container? rule.1) } (hparent rule hrule)
    exact congrArg (fun made => Editor.Change.mk [rule.1] (made.map Container.source)) hagain
  rw [flatten_eq_finish_run, hchanges, flatten_eq_finish_run]
  exact Editor.finish_run_finish_run prim _

end FlattenRules

namespace Scene

theorem keeps_inherited (scene : Scene) {rule : Token × FlattenRule} (h : rule.2.Settles)
    (path : Path) {container : Container} (hmade : scene.inherited rule path = some container) :
    rule.2.Keeps container := by
  induction path using Path.induction generalizing container with
  | h path ih =>
    rw [inherited_eq] at hmade
    apply h.made _ container _ hmade
    intro above habove
    obtain ⟨parent, hparent, hinherited⟩ := Option.bind_eq_some_iff.1 habove
    exact ih parent hparent hinherited

theorem flattened_container?_of_mem (scene : Scene) {rules : FlattenRules}
    (hnames : (Dict.keys rules).Nodup) {rule : Token × FlattenRule} (hrule : rule ∈ rules)
    (path : Path) :
    (scene.flattened rules path).container? rule.1 = scene.inherited rule path := by
  rw [Container.container?_eq_at?, flattened_at?_of_mem scene hnames hrule]
  cases scene.inherited rule path with
  | none => rfl
  | some container => rfl

-- The induction is on the path: the flattened parents of both scenes are one. A prim that the scene
-- lacks is missing from both.
theorem flattened_flattened {scene flat : Scene} {rules : FlattenRules}
    (hnames : (Dict.keys rules).Nodup) (hsettles : ∀ rule ∈ rules, rule.2.Settles)
    (hflat : ∀ path,
      flat.prim? path = (scene.prim? path).map fun _ => scene.flattened rules path)
    (path : Path) : flat.flattened rules path = scene.flattened rules path := by
  induction path using Path.induction with
  | h path ih =>
    have hparents : path.parent?.map (flat.flattened rules)
        = path.parent?.map (scene.flattened rules) := by
      cases hparent : path.parent? with
      | none => rfl
      | some parent => exact congrArg some (ih parent hparent)
    rw [flattened_eq, hflat, hparents, flattened_eq scene]
    cases scene.prim? path with
    | none => rfl
    | some prim =>
      apply FlattenRules.flatten_flatten hnames hsettles
      intro rule hrule above habove
      obtain ⟨parent, hparent, hcontainer⟩ := Option.bind_eq_some_iff.1 habove
      obtain ⟨other, _, heq⟩ := Option.map_eq_some_iff.1 hparent
      rw [← heq, flattened_container?_of_mem scene hnames hrule] at hcontainer
      exact scene.keeps_inherited (hsettles rule hrule) other hcontainer

end Scene

namespace FlattenCache

def flattenedScene (cache : FlattenCache) : Scene :=
  ⟨cache.scene.paths.filterMap fun path => (cache.prim? path).1.map fun prim => (path, prim)⟩

theorem flattenedScene_prim? (cache : FlattenCache) (path : Path) :
    cache.flattenedScene.prim? path = (cache.prim? path).1 := by
  change Dict.get? (cache.scene.paths.filterMap _) path = _
  rw [Dict.get?_filterMap_keys fun path => (cache.prim? path).1]
  split
  . rfl
  . next hpath =>
    have hcontains : ¬ cache.scene.contains path := fun h => hpath ((Dict.contains_iff _ _).1 h)
    unfold prim?
    rw [if_neg hcontains]

theorem new_flattened (scene : Scene) (rules : FlattenRules) (path : Path) :
    ((new scene rules).flattened path).1 = scene.flattened rules path :=
  ((new_valid scene rules).flattened path).1

theorem paths_flattenedScene_new (scene : Scene) (rules : FlattenRules) :
    (new scene rules).flattenedScene.paths = scene.paths := by
  unfold flattenedScene Scene.paths Dict.keys
  dsimp only
  rw [List.map_filterMap]
  have hpath : ∀ path ∈ (new scene rules).scene.paths,
      (((new scene rules).prim? path).1.map fun prim => (path, prim)).map (·.1) = some path := by
    intro path hpath
    have hcontains : scene.contains path := (Dict.contains_iff _ _).2 hpath
    rw [new_prim?, if_pos hcontains]
    rfl
  exact (List.filterMap_congr hpath).trans List.filterMap_some

theorem prim?_flattenedScene_eq_prim? (scene : Scene) (path : Path) :
    let flat := (new scene .standard).flattenedScene
    flat.paths = scene.paths ∧
      flat.prim? path = ((new scene .standard).prim? path).1 ∧
      ((new flat .standard).prim? path).1 = ((new scene .standard).prim? path).1 ∧
      ((new flat .standard).flattened path).1 = ((new scene .standard).flattened path).1 := by
  intro flat
  have hflat : ∀ path, flat.prim? path = ((new scene .standard).prim? path).1 :=
    (new scene .standard).flattenedScene_prim?
  have hprims : ∀ path, flat.prim? path
      = (scene.prim? path).map fun _ => scene.flattened .standard path := by
    intro path
    rw [hflat, new_prim?]
    change (if (scene.prim? path).isSome then _ else _) = _
    cases scene.prim? path <;> rfl
  have hflattened := Scene.flattened_flattened (by decide)
    (fun _ hrule => FlattenRules.settles_standard hrule) hprims path
  have hcontains : flat.contains path = scene.contains path := by
    change (flat.prim? path).isSome = (scene.prim? path).isSome
    rw [hprims]
    cases scene.prim? path <;> rfl
  refine ⟨paths_flattenedScene_new scene .standard, hflat path, ?_, ?_⟩
  . rw [new_prim?, new_prim?, hcontains, hflattened]
  . rw [new_flattened, new_flattened, hflattened]

end FlattenCache

end SceneTree
