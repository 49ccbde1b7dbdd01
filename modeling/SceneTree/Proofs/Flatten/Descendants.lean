import SceneTree.Proofs.Flatten.Cache
import SceneTree.Proofs.Flatten.Inherited
import SceneTree.Proofs.Locator.Minimal

/-!
This module contains what an update of a prim says about the prims below: a leaf that reads
differently there afterwards is at a place that the answer of the update covers.
-/

namespace SceneTree

namespace Container

def leafAt? (container : Container) (place : Locator) : Option Source :=
  (container.at? place).filter fun source => source.container?.isNone

theorem leafAt?_nil (container : Container) : container.leafAt? [] = none := by
  unfold leafAt? at?
  rw [Source.at?_nil]
  rfl

theorem leafAt?_congr {container other : Container} {place : Locator}
    (h : container.at? place = other.at? place) : container.leafAt? place = other.leafAt? place := by
  unfold leafAt?
  rw [h]

end Container

namespace FlattenRules

def share (rule : Token × FlattenRule) (changed : LocatorSet) : LocatorSet :=
  (rule.2.spread ((changed.within [rule.1]).moved [rule.1] [])).moved [] [rule.1]

theorem covers_spread_iff (rules : FlattenRules) (changed : LocatorSet) (place : Locator) :
    (rules.spread changed).covers place
      ↔
    ∃ rule ∈ rules, changed.meets [rule.1] ∧ (share rule changed).covers place := by
  have hfold : ∀ result : LocatorSet, result.Minimal →
      ((rules.foldl (fun result rule =>
        if changed.meets [rule.1] then result.union (share rule changed) else result)
        result).covers place
        ↔
      result.covers place ∨
        ∃ rule ∈ rules, changed.meets [rule.1] ∧ (share rule changed).covers place) := by
    induction rules with
    | nil => simp
    | cons rule rest ih =>
      intro result hresult
      have hshare : (share rule changed).Minimal := LocatorSet.ofList_minimal _
      simp only [List.foldl_cons, List.mem_cons, exists_eq_or_imp]
      by_cases hmeets : changed.meets [rule.1]
      . rw [if_pos hmeets, ih _ (hresult.union _), hresult.covers_union, ← hshare.covers_iff,
          or_assoc]
        simp [hmeets]
      . rw [if_neg hmeets, ih _ hresult]
        simp [hmeets]
  refine (hfold .empty LocatorSet.empty_minimal).trans ?_
  rw [LocatorSet.empty_minimal.covers_iff]
  simp [LocatorSet.empty]

theorem covers_share_of_universal {rule : Token × FlattenRule} (changed : LocatorSet)
    (huniversal : ∀ set, rule.2.spread set = .universal) {place : Locator}
    (hunder : place.isUnder [rule.1]) : (share rule changed).covers place := by
  have hshare : share rule changed = ⟨[[rule.1]]⟩ := by
    unfold share
    rw [huniversal]
    rfl
  have hminimal : (share rule changed).Minimal := LocatorSet.ofList_minimal _
  exact (hminimal.covers_iff place).2 ⟨[rule.1], by simp [hshare], hunder⟩

end FlattenRules

namespace FlattenCache

-- Whatever changes below a prim changed through a rule whose name the announcement meets.
theorem Announced.exists_meets_of_leafAt?_ne {rules : FlattenRules} {scene : Scene} {path : Path}
    {prim : Container} {changed : LocatorSet} (h : Announced rules scene path prim changed)
    (hnames : (Dict.keys rules).Nodup) {other : Path} (hother : other ≠ path) {place : Locator}
    (hdiffers : (scene.flattened rules other).leafAt? place
      ≠ ((scene.insert path prim).flattened rules other).leafAt? place) :
    ∃ rule ∈ rules, changed.meets [rule.1] ∧ place.isUnder [rule.1] := by
  cases place with
  | nil =>
    rw [Container.leafAt?_nil, Container.leafAt?_nil] at hdiffers
    exact absurd rfl hdiffers
  | cons name rest =>
    by_cases hname : name ∈ Dict.keys rules
    . obtain ⟨rule, hrule, heq⟩ := List.mem_map.1 hname
      subst heq
      refine ⟨rule, hrule, h rule hrule fun hagree => hdiffers (Container.leafAt?_congr ?_), ?_⟩
      . rw [Scene.flattened_at?_of_mem _ hnames hrule, Scene.flattened_at?_of_mem _ hnames hrule,
          Scene.inherited_insert scene rule hagree]
      . simp
    . apply absurd (Container.leafAt?_congr ?_) hdiffers
      rw [Scene.flattened_at?_of_not_mem _ hname, Scene.flattened_at?_of_not_mem _ hname,
        Scene.prim?_insert, if_neg (Ne.symm hother)]

theorem Valid.prim?_update {cache : FlattenCache} (h : cache.Valid)
    (hrules : cache.rules = .standard) {path : Path} {prim : Container} {changed : LocatorSet}
    (hannounced : Announced .standard cache.scene path prim changed) (other : Path) :
    ((cache.update path prim changed).2.prim? other).1
      =
    if (cache.scene.insert path prim).contains other then
      some ((cache.scene.insert path prim).flattened .standard other)
    else none := by
  have hafter : (cache.update path prim changed).2.Valid :=
    h.update (fun _ hrule set _ => FlattenRules.isEmpty_spread_standardBy (hrules ▸ hrule) set)
      (hrules.symm ▸ hannounced)
  rw [(hafter.prim? other).1, ← hrules]
  rfl

theorem Valid.covers_update {cache : FlattenCache} (h : cache.Valid)
    (hrules : cache.rules = .standard) {path : Path} {prim : Container} {changed : LocatorSet}
    (hannounced : Announced .standard cache.scene path prim changed) {other : Path}
    (hother : other ≠ path) {place : Locator}
    (hdiffers : (cache.prim? other).1.bind (·.leafAt? place)
      ≠ ((cache.update path prim changed).2.prim? other).1.bind (·.leafAt? place)) :
    (cache.update path prim changed).1.covers place := by
  have hanswer : (cache.update path prim changed).1 = cache.rules.spread changed := rfl
  have hcontains : (cache.scene.insert path prim).contains other = cache.scene.contains other := by
    change ((cache.scene.insert path prim).prim? other).isSome = (cache.scene.prim? other).isSome
    rw [Scene.prim?_insert, if_neg (Ne.symm hother)]
  rw [(h.prim? other).1, h.prim?_update hrules hannounced, hcontains, hrules] at hdiffers
  rw [hanswer, hrules]
  split at hdiffers
  . obtain ⟨rule, hrule, hmeets, hunder⟩ :=
      hannounced.exists_meets_of_leafAt?_ne (by decide) hother hdiffers
    exact (FlattenRules.covers_spread_iff _ _ _).2 ⟨rule, hrule, hmeets,
      FlattenRules.covers_share_of_universal changed (FlattenRules.spread_standardBy hrule) hunder⟩
  . exact absurd rfl hdiffers

theorem covers_of_leafAt?_update_ne (scene : Scene) (calls : List Call)
    (hcalls : AllAnnounced .standard scene calls) (path : Path) (prim : Container)
    (changed : LocatorSet)
    (hannounced : Announced .standard (sceneAfter scene calls) path prim changed) (other : Path)
    (hother : other ≠ path) (place : Locator)
    (hdiffers : (((new scene .standard).run calls).prim? other).1.bind (·.leafAt? place)
      ≠ ((((new scene .standard).run calls).update path prim changed).2.prim? other).1.bind
          (·.leafAt? place)) :
    (((new scene .standard).run calls).update path prim changed).1.covers place := by
  obtain ⟨hscene, hrules, hvalid⟩ := (new_valid scene .standard).run
    (fun _ hrule set _ => FlattenRules.isEmpty_spread_standardBy hrule set) hcalls
  exact hvalid.covers_update hrules (hscene ▸ hannounced) hother hdiffers

-- The missing parent of a prim that is known appears, and hides it.
theorem covers_of_leafAt?_update_ne_hidden :
    let outer : Path := ⟨["a"], by decide⟩
    let inner : Path := ⟨["a", "b"], by decide⟩
    let scene : Scene := ⟨[(inner, .empty)]⟩
    let hidden := Schema.visibility.build fun _ => some (.value (.bool false))
    let prim := Container.ofEntries [("visibility", some hidden.source)]
    let changed : LocatorSet := ⟨[["visibility", "visibility"]]⟩
    let place : Locator := ["visibility", "visibility"]
    let cache := (new scene .standard).run [.lookup inner]
    AllAnnounced .standard scene [.lookup inner] ∧
      Announced .standard (sceneAfter scene [.lookup inner]) outer prim changed ∧
      inner ≠ outer ∧
      (cache.prim? inner).1.bind (·.leafAt? place)
        ≠ ((cache.update outer prim changed).2.prim? inner).1.bind (·.leafAt? place) ∧
      (cache.update outer prim changed).1.covers place := by
  intro outer inner scene hidden prim changed place cache
  have hcalls : AllAnnounced .standard scene [.lookup inner] := ⟨trivial, trivial⟩
  have hannounced : Announced .standard scene outer prim changed := by
    intro rule hrule hdiffers
    simp only [FlattenRules.standard, List.mem_cons, List.not_mem_nil, or_false] at hrule
    rcases hrule with hrule | hrule
    . subst hrule
      exact absurd rfl hdiffers
    . subst hrule
      rfl
  have hother : inner ≠ outer := by decide
  have hread : ∀ scene : Scene, (scene.flattened .standard inner).leafAt? place
      = ((scene.inherited ("visibility", .visibility) inner).bind (·.at? ["visibility"])).filter
          fun source => source.container?.isNone := by
    intro scene
    have hrule : ("visibility", FlattenRule.visibility) ∈ FlattenRules.standard := by
      simp [FlattenRules.standard]
    unfold Container.leafAt?
    rw [Scene.flattened_at?_of_mem scene (by decide) hrule]
  have hbefore : (scene.flattened .standard inner).leafAt? place = none := by
    rw [hread]
    have hroot : scene.inherited ("visibility", .visibility) .root = none := by
      rw [Scene.inherited_eq]
      rfl
    have houter : scene.inherited ("visibility", .visibility) outer = none := by
      rw [Scene.inherited_eq]
      exact hroot
    have hinner : scene.inherited ("visibility", .visibility) inner = none := by
      rw [Scene.inherited_eq]
      exact houter
    rw [hinner]
    rfl
  have hafter : ((scene.insert outer prim).flattened .standard inner).leafAt? place
      = some (.value (.bool false)) := by
    rw [hread]
    have houter : (scene.insert outer prim).inherited ("visibility", .visibility) outer
        = some hidden := by
      rw [Scene.inherited_eq]
      rfl
    have hinner : (scene.insert outer prim).inherited ("visibility", .visibility) inner
        = some hidden := by
      rw [Scene.inherited_eq]
      exact houter
    rw [hinner]
    rfl
  have hdiffers : (cache.prim? inner).1.bind (·.leafAt? place)
      ≠ ((cache.update outer prim changed).2.prim? inner).1.bind (·.leafAt? place) := by
    obtain ⟨hscene, hrules, hvalid⟩ := (new_valid scene .standard).run
      (fun _ hrule set _ => FlattenRules.isEmpty_spread_standardBy hrule set) hcalls
    rw [(hvalid.prim? inner).1, hvalid.prim?_update hrules (hscene ▸ hannounced), hscene, hrules]
    change (some _).bind _ ≠ (some _).bind _
    rw [Option.bind_some, Option.bind_some]
    exact fun heq => Option.some_ne_none _ (hafter.symm.trans (heq.symm.trans hbefore))
  exact ⟨hcalls, hannounced, hother, hdiffers,
    covers_of_leafAt?_update_ne scene [.lookup inner] hcalls outer prim changed hannounced inner
      hother place hdiffers⟩

end FlattenCache

end SceneTree
