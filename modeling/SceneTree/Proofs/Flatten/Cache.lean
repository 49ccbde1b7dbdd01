import SceneTree.Proofs.Flatten.Prim
import SceneTree.Proofs.Locator.Set

/-!
This module contains the theory of the flatten cache: what it knows is what a new cache would make
of the scene, whatever was looked up and changed before, provided that changes are announced.
-/

namespace SceneTree

namespace FlattenRules

-- A rule is asked if the changed places meet its name, and what it answers is not lost.
theorem isEmpty_spread (rules : FlattenRules) (changed : LocatorSet) :
    (rules.spread changed).isEmpty
      =
    rules.all fun rule =>
      !changed.meets [rule.1] ||
        (rule.2.spread ((changed.within [rule.1]).moved [rule.1] [])).isEmpty := by
  have hfold : ∀ result : LocatorSet,
      (rules.foldl (fun result rule =>
        if changed.meets [rule.1] then
          let own := (changed.within [rule.1]).moved [rule.1] []
          result.union ((rule.2.spread own).moved [] [rule.1])
        else result) result).isEmpty
        =
      (result.isEmpty && rules.all fun rule =>
        !changed.meets [rule.1] ||
          (rule.2.spread ((changed.within [rule.1]).moved [rule.1] [])).isEmpty) := by
    induction rules with
    | nil => simp
    | cons rule rest ih =>
      intro result
      rw [List.foldl_cons, ih, List.all_cons]
      by_cases hmeets : changed.meets [rule.1]
      . simp [hmeets, LocatorSet.isEmpty_union, LocatorSet.isEmpty_moved, Bool.and_assoc]
      . simp [hmeets]
  unfold spread
  rw [hfold]
  rfl

theorem spread_standardBy {mul : Matrix → Matrix → Matrix} {rule : Token × FlattenRule}
    (hrule : rule ∈ standardBy mul) (set : LocatorSet) : rule.2.spread set = .universal := by
  simp only [standardBy, List.mem_cons, List.not_mem_nil, or_false] at hrule
  rcases hrule with hrule | hrule
  all_goals
    subst hrule
    rfl

theorem isEmpty_spread_standardBy {mul : Matrix → Matrix → Matrix} {rule : Token × FlattenRule}
    (hrule : rule ∈ standardBy mul) (set : LocatorSet) : (rule.2.spread set).isEmpty = false := by
  rw [spread_standardBy hrule]
  rfl

end FlattenRules

namespace FlattenCache

/--
The invariant of the cache: what it knows is what the scene flattens to.
-/
def Valid (cache : FlattenCache) : Prop :=
  ∀ path prim, Dict.get? cache.known path = some prim →
    prim = cache.scene.flattened cache.rules path

theorem new_valid (scene : Scene) (rules : FlattenRules) : (new scene rules).Valid := by
  intro path prim h
  simp [new] at h

theorem Valid.remember {cache : FlattenCache} (h : cache.Valid) (path : Path) :
    Valid { cache with
      known := Dict.insert cache.known path (cache.scene.flattened cache.rules path) } := by
  intro other prim hknown
  dsimp only at hknown ⊢
  rw [Dict.get?_insert] at hknown
  split at hknown
  . next heq =>
    subst heq
    exact (Option.some.inj hknown).symm
  . exact h other prim hknown

theorem Valid.flattened {cache : FlattenCache} (h : cache.Valid) (path : Path) :
    (cache.flattened path).1 = cache.scene.flattened cache.rules path ∧
      (cache.flattened path).2.scene = cache.scene ∧
      (cache.flattened path).2.rules = cache.rules ∧
      (cache.flattened path).2.Valid := by
  induction path using Path.induction with
  | h path ih =>
    rw [FlattenCache.flattened]
    split
    . next prim hknown => exact ⟨h path prim hknown, rfl, rfl, h⟩
    . dsimp only
      split
      . next hroot =>
        have hprim : cache.rules.flatten path (cache.scene.prim? path) none
            = cache.scene.flattened cache.rules path := by
          rw [Scene.flattened_eq, hroot, Option.map_none]
        dsimp only
        rw [hprim]
        exact ⟨rfl, rfl, rfl, h.remember path⟩
      . next parent hparent =>
        obtain ⟨habove, hscene, hrules, hvalid⟩ := ih parent hparent
        generalize cache.flattened parent = result at *
        obtain ⟨above, later⟩ := result
        dsimp only at *
        have hprim : later.rules.flatten path (later.scene.prim? path) (some above)
            = later.scene.flattened later.rules path := by
          rw [Scene.flattened_eq, hparent, Option.map_some, hscene, hrules, habove]
        rw [hprim]
        refine ⟨?_, hscene, hrules, hvalid.remember path⟩
        rw [hscene, hrules]

theorem Valid.prim? {cache : FlattenCache} (h : cache.Valid) (path : Path) :
    (cache.prim? path).1
        = (if cache.scene.contains path then some (cache.scene.flattened cache.rules path)
          else none) ∧
      (cache.prim? path).2.scene = cache.scene ∧
      (cache.prim? path).2.rules = cache.rules ∧
      (cache.prim? path).2.Valid := by
  unfold FlattenCache.prim?
  split
  . obtain ⟨hprim, hrest⟩ := h.flattened path
    exact ⟨congrArg some hprim, hrest⟩
  . exact ⟨rfl, rfl, rfl, h⟩

theorem new_prim? (scene : Scene) (rules : FlattenRules) (path : Path) :
    ((new scene rules).prim? path).1
      =
    if scene.contains path then some (scene.flattened rules path) else none :=
  ((new_valid scene rules).prim? path).1

theorem get?_known_invalidate {cache : FlattenCache} {path other : Path} {changed : LocatorSet}
    {prim : Container}
    (h : Dict.get? (cache.invalidate path changed).2.known other = some prim) :
    Dict.get? cache.known other = some prim ∧ other ≠ path ∧
      ((cache.rules.spread changed).isEmpty ∨ ¬ other.isUnder path) := by
  unfold invalidate at h
  dsimp only at h
  split at h
  . next hempty =>
    rw [Dict.get?_erase] at h
    split at h
    . cases h
    . next hne => exact ⟨h, Ne.symm hne, .inl hempty⟩
  . rw [Dict.get?_filter _ fun candidate : Path => !candidate.isUnder path, Dict.get?_erase] at h
    split at h
    . next hunder =>
      split at h
      . cases h
      . next hne => exact ⟨h, Ne.symm hne, .inr (by simpa using hunder)⟩
    . cases h

theorem Valid.invalidate {cache : FlattenCache} (h : cache.Valid) (path : Path)
    (changed : LocatorSet) : (cache.invalidate path changed).2.Valid := by
  intro other prim hknown
  exact h other prim (get?_known_invalidate hknown).1

/--
Whether a new prim holds the same as the one before it under the names of the rules, apart from
those that a set of changed places meets.
-/
def Announced (rules : FlattenRules) (scene : Scene) (path : Path) (prim : Container)
    (changed : LocatorSet) : Prop :=
  ∀ rule ∈ rules, (scene.prim? path).bind (·.child rule.1) ≠ prim.child rule.1 →
    changed.meets [rule.1]

theorem Valid.update {cache : FlattenCache} (h : cache.Valid)
    (hspread : ∀ rule ∈ cache.rules, ∀ set : LocatorSet,
      set.isEmpty = false → (rule.2.spread set).isEmpty = false)
    {path : Path} {prim : Container} {changed : LocatorSet}
    (hannounced : Announced cache.rules cache.scene path prim changed) :
    (cache.update path prim changed).2.Valid := by
  intro other known hknown
  obtain ⟨hknown, hne, hkept⟩ := get?_known_invalidate hknown
  rw [h other known hknown]
  dsimp only [FlattenCache.update, FlattenCache.invalidate] at *
  rcases hkept with hempty | hunder
  . have hagree : cache.rules.Agree (cache.scene.prim? path) (some prim) := by
      intro rule hrule
      by_contra hdiffers
      have hmeets := hannounced rule hrule hdiffers
      have hset : ((changed.within [rule.1]).moved [rule.1] []).isEmpty = false := by
        rw [LocatorSet.isEmpty_moved]
        exact LocatorSet.isEmpty_within_of_meets hmeets
      rw [FlattenRules.isEmpty_spread, List.all_eq_true] at hempty
      have hspread := hspread rule hrule _ hset
      simpa [hmeets, hspread] using hempty rule hrule
    exact ((cache.scene.flattened_insert_of_agree hagree other).2 hne).symm
  . exact (cache.scene.flattened_insert_of_not_isUnder cache.rules prim other hunder).symm

theorem get?_known_flattened (cache : FlattenCache) (path : Path) :
    Dict.get? (cache.flattened path).2.known path = some (cache.flattened path).1 := by
  rw [FlattenCache.flattened]
  split
  . next prim hknown => exact hknown
  . dsimp only
    rw [Dict.get?_insert, if_pos rfl]

theorem flattened_of_known {cache : FlattenCache} {path : Path} {prim : Container}
    (h : Dict.get? cache.known path = some prim) : cache.flattened path = (prim, cache) := by
  rw [FlattenCache.flattened]
  split
  . next other hknown =>
    cases h.symm.trans hknown
    rfl
  . next hunknown =>
    rw [h] at hunknown
    cases hunknown

-- What was looked up is not looked for again.
theorem Valid.prim?_update_empty {cache : FlattenCache} (h : cache.Valid) {path other : Path}
    (hcontains : cache.scene.contains path) (hne : other ≠ path) (prim : Container) :
    (((cache.prim? path).2.update other prim .empty).2.prim? path).1
      =
    some (cache.scene.flattened cache.rules path) := by
  obtain ⟨hprim, hscene, hrules, hvalid⟩ := h.flattened path
  have hlookup : (cache.prim? path).2 = (cache.flattened path).2 := by
    unfold FlattenCache.prim?
    rw [if_pos hcontains]
  have hknown := cache.get?_known_flattened path
  rw [hlookup]
  generalize (cache.flattened path).2 = later at *
  have hspread : (later.rules.spread .empty).isEmpty := by
    rw [FlattenRules.isEmpty_spread]
    simp [LocatorSet.empty, LocatorSet.meets]
  have hkept : Dict.get? (later.update other prim .empty).2.known path
      = some (cache.flattened path).1 := by
    unfold FlattenCache.update FlattenCache.invalidate
    dsimp only
    rw [if_pos hspread, Dict.get?_erase, if_neg hne, hknown]
  have hstill : (later.update other prim .empty).2.scene.contains path := by
    change ((later.scene.insert other prim).prim? path).isSome
    rw [Scene.prim?_insert, if_neg hne, hscene]
    exact hcontains
  unfold FlattenCache.prim?
  rw [if_pos hstill, flattened_of_known hkept, hprim]

inductive Call where
  | lookup (path : Path)
  | invalidate (path : Path) (changed : LocatorSet)
  | update (path : Path) (prim : Container) (changed : LocatorSet)

namespace Call

def sceneAfter (scene : Scene) : Call → Scene
  | update path prim _ => scene.insert path prim
  | _ => scene

def IsAnnounced (rules : FlattenRules) (scene : Scene) : Call → Prop
  | update path prim changed => Announced rules scene path prim changed
  | _ => True

end Call

def perform (cache : FlattenCache) : Call → FlattenCache
  | .lookup path => (cache.prim? path).2
  | .invalidate path changed => (cache.invalidate path changed).2
  | .update path prim changed => (cache.update path prim changed).2

def run (cache : FlattenCache) (calls : List Call) : FlattenCache :=
  calls.foldl perform cache

def sceneAfter (scene : Scene) (calls : List Call) : Scene :=
  calls.foldl Call.sceneAfter scene

def AllAnnounced (rules : FlattenRules) : Scene → List Call → Prop
  | _, [] => True
  | scene, call :: rest =>
    call.IsAnnounced rules scene ∧ AllAnnounced rules (call.sceneAfter scene) rest

theorem Valid.perform {cache : FlattenCache} (h : cache.Valid)
    (hspread : ∀ rule ∈ cache.rules, ∀ set : LocatorSet,
      set.isEmpty = false → (rule.2.spread set).isEmpty = false)
    {call : Call} (hannounced : call.IsAnnounced cache.rules cache.scene) :
    (cache.perform call).scene = call.sceneAfter cache.scene ∧
      (cache.perform call).rules = cache.rules ∧
      (cache.perform call).Valid := by
  cases call with
  | lookup path => exact (h.prim? path).2
  | invalidate path changed => exact ⟨rfl, rfl, h.invalidate path changed⟩
  | update path prim changed => exact ⟨rfl, rfl, h.update hspread hannounced⟩

theorem Valid.run {cache : FlattenCache} (h : cache.Valid)
    (hspread : ∀ rule ∈ cache.rules, ∀ set : LocatorSet,
      set.isEmpty = false → (rule.2.spread set).isEmpty = false)
    {calls : List Call} (hannounced : AllAnnounced cache.rules cache.scene calls) :
    (cache.run calls).scene = sceneAfter cache.scene calls ∧
      (cache.run calls).rules = cache.rules ∧
      (cache.run calls).Valid := by
  induction calls generalizing cache with
  | nil => exact ⟨rfl, rfl, h⟩
  | cons call rest ih =>
    obtain ⟨hcall, hrest⟩ := hannounced
    obtain ⟨hscene, hrules, hvalid⟩ := h.perform hspread hcall
    rw [← hscene, ← hrules] at hrest
    rw [← hrules] at hspread
    obtain ⟨hsceneRun, hrulesRun, hvalidRun⟩ := ih hvalid hspread hrest
    refine ⟨?_, hrulesRun.trans hrules, hvalidRun⟩
    unfold sceneAfter at *
    rw [List.foldl_cons, ← hscene]
    exact hsceneRun

theorem prim?_run_eq_prim?_new (scene : Scene) (rules : FlattenRules)
    (hspread : ∀ rule ∈ rules, ∀ set : LocatorSet,
      set.isEmpty = false → (rule.2.spread set).isEmpty = false)
    (calls : List Call) (hannounced : AllAnnounced rules scene calls) (path : Path) :
    (((new scene rules).run calls).prim? path).1
      =
    ((new (sceneAfter scene calls) rules).prim? path).1 := by
  obtain ⟨hscene, hrules, hvalid⟩ := (new_valid scene rules).run hspread hannounced
  rw [(hvalid.prim? path).1, ((new_valid _ rules).prim? path).1, hscene, hrules]
  rfl

-- A prim above a known one appears, and only its visibility is announced.
theorem prim?_run_eq_prim?_new_hidden :
    let outer : Path := ⟨["a"], by decide⟩
    let inner : Path := ⟨["a", "b"], by decide⟩
    let moved := FlattenRule.completeXform (.constant (.matrix .identity))
    let hidden := Schema.visibility.build fun _ => some (.value (.bool false))
    let calls : List Call := [
      .update inner (Container.ofEntries [("xform", some moved.source)]) .universal,
      .lookup inner,
      .update outer (Container.ofEntries [("visibility", some hidden.source)]) ⟨[["visibility"]]⟩]
    (∀ rule ∈ FlattenRules.standard, ∀ set : LocatorSet,
        set.isEmpty = false → (rule.2.spread set).isEmpty = false) ∧
      AllAnnounced .standard .empty calls ∧
      (((new .empty .standard).run calls).prim? inner).1
        = ((new (sceneAfter .empty calls) .standard).prim? inner).1 := by
  intro outer inner moved hidden calls
  have hspread : ∀ rule ∈ FlattenRules.standard, ∀ set : LocatorSet,
      set.isEmpty = false → (rule.2.spread set).isEmpty = false :=
    fun _ hrule set _ => FlattenRules.isEmpty_spread_standardBy hrule set
  have hannounced : AllAnnounced .standard .empty calls := by
    refine ⟨?_, trivial, ?_, trivial⟩
    . intro rule _ _
      rfl
    . intro rule hrule hdiffers
      simp only [FlattenRules.standard, List.mem_cons, List.not_mem_nil, or_false] at hrule
      rcases hrule with hrule | hrule
      . subst hrule
        exact absurd rfl hdiffers
      . subst hrule
        rfl
  exact ⟨hspread, hannounced,
    prim?_run_eq_prim?_new .empty .standard hspread calls hannounced inner⟩

end FlattenCache

end SceneTree
