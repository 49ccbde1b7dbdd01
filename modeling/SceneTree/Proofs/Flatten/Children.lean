import SceneTree.Proofs.Edit.Entries
import SceneTree.Proofs.Flatten.Settled

/-!
This module contains how a flattened prim differs from the prim of the scene: only under the names
of the rules. Its names are those of the prim, without the rules that made nothing, and then the
rules that added something.
-/

namespace SceneTree

namespace FlattenRules

def results (rules : FlattenRules) (path : Path) (prim parent : Option Container) : EntryHistory :=
  rules.map fun rule => (rule.1, (made rule path prim parent).isSome)

theorem keys_results (rules : FlattenRules) (path : Path) (prim parent : Option Container) :
    (rules.results path prim parent).map (·.1) = Dict.keys rules := by
  unfold results Dict.keys
  rw [List.map_map]
  rfl

theorem run_changes_hasEntries (rules : FlattenRules) (path : Path)
    (prim parent : Option Container) :
    ((Editor.new prim).run (rules.changes path prim parent)).HasEntries prim
      (rules.results path prim parent) := by
  induction rules using List.reverseRecOn with
  | nil => exact Editor.new_hasEntries prim
  | append_singleton rules rule ih =>
    have hset := ih.set rule.1 ((made rule path prim parent).map Container.source)
    have hputs : (Edit.write ((made rule path prim parent).map Container.source)).isReplace
        = (made rule path prim parent).isSome := by
      cases made rule path prim parent <;> rfl
    rw [hputs] at hset
    unfold results
    rw [changes_append, Editor.run_append, List.map_append]
    exact hset

theorem flatten_names {rules : FlattenRules} (hnames : (Dict.keys rules).Nodup) (path : Path)
    (prim parent : Option Container) :
    let flat := rules.flatten path prim parent
    let names := Schema.namesOf prim
    flat.names
      =
    ((if rules.isEmpty then names else names.eraseDups).filter fun name =>
        name ∉ Dict.keys rules ∨ (flat.child name).isSome) ++
      (Dict.keys rules).filter fun name => name ∉ names ∧ (flat.child name).isSome := by
  intro flat names
  have hkeys := keys_results rules path prim parent
  have hlast : ∀ name ∈ Dict.keys rules,
      (rules.results path prim parent).last? name = some (flat.child name).isSome := by
    intro name hname
    obtain ⟨rule, hrule, heq⟩ := List.mem_map.1 hname
    subst heq
    have hchild : flat.child rule.1 = (made rule path prim parent).map Container.source := by
      rw [← Container.at?_singleton, flatten_at?_of_mem hnames hrule]
      cases made rule path prim parent <;> rfl
    rw [hchild, Option.isSome_map]
    exact EntryHistory.last?_of_mem (hkeys ▸ hnames) (List.mem_map_of_mem hrule)
  have hnone : ∀ name, name ∉ Dict.keys rules →
      (rules.results path prim parent).last? name = none :=
    fun name hname => EntryHistory.last?_eq_none (hkeys ▸ hname)
  change (rules.flatten path prim parent).names = _
  rw [flatten_eq_finish_run, (run_changes_hasEntries rules path prim parent).finish_names]
  cases rules with
  | nil => simp [results, names, Dict.keys, List.filter_eq_self.2]
  | cons first rest =>
    have hempty : (results (first :: rest) path prim parent).isEmpty = false := rfl
    rw [hempty]
    unfold EntryHistory.namesAfter EntryHistory.firstNames
    rw [hkeys, EditTree.eraseDups_of_nodup hnames]
    simp only [List.isEmpty_cons, Bool.false_eq_true, if_false]
    congr 1
    . apply List.filter_congr
      intro name _
      by_cases hname : name ∈ Dict.keys (first :: rest)
      . simp [hlast name hname, hname]
      . simp [hnone name hname, hname]
    . apply List.filter_congr
      intro name hname
      simp [hlast name hname, names]

end FlattenRules

namespace Scene

theorem flattened_child_of_not_mem (scene : Scene) {rules : FlattenRules} {name : Token}
    (hname : name ∉ Dict.keys rules) (path : Path) :
    (scene.flattened rules path).child name = (scene.prim? path).bind (·.child name) := by
  rw [← Container.at?_singleton, flattened_at?_of_not_mem scene hname]
  simp only [Container.at?_singleton]

theorem flattened_child_of_mem (scene : Scene) {rules : FlattenRules}
    (hnames : (Dict.keys rules).Nodup) {rule : Token × FlattenRule} (hrule : rule ∈ rules)
    (path : Path) :
    (scene.flattened rules path).child rule.1
      =
    (scene.inherited rule path).map Container.source := by
  rw [← Container.at?_singleton, flattened_at?_of_mem scene hnames hrule]
  cases scene.inherited rule path <;> rfl

-- What a rule makes of the prims from the root down does not depend on the other rules.
theorem flattened_child_of_perm (scene : Scene) {rules other : FlattenRules}
    (hnames : (Dict.keys rules).Nodup) (h : rules.Perm other) (path : Path) :
    (scene.flattened other path).child = (scene.flattened rules path).child := by
  have hkeys : (Dict.keys rules).Perm (Dict.keys other) := h.map _
  funext name
  by_cases hname : name ∈ Dict.keys rules
  . obtain ⟨rule, hrule, heq⟩ := List.mem_map.1 hname
    subst heq
    rw [scene.flattened_child_of_mem hnames hrule,
      scene.flattened_child_of_mem (hkeys.nodup hnames) (h.mem_iff.1 hrule)]
  . have hother : name ∉ Dict.keys other := fun hmem => hname (hkeys.mem_iff.2 hmem)
    rw [scene.flattened_child_of_not_mem hname, scene.flattened_child_of_not_mem hother]

end Scene

namespace FlattenCache

theorem Valid.lookups {cache : FlattenCache} (h : cache.Valid) (paths : List Path) :
    (cache.run (paths.map .lookup)).scene = cache.scene ∧
      (cache.run (paths.map .lookup)).rules = cache.rules ∧
      (cache.run (paths.map .lookup)).Valid := by
  induction paths generalizing cache with
  | nil => exact ⟨rfl, rfl, h⟩
  | cons path rest ih =>
    obtain ⟨_, hscene, hrules, hvalid⟩ := h.prim? path
    obtain ⟨hsceneRun, hrulesRun, hvalidRun⟩ := ih hvalid
    exact ⟨hsceneRun.trans hscene, hrulesRun.trans hrules, hvalidRun⟩

theorem lookups_flattened (scene : Scene) (rules : FlattenRules) (lookups : List Path)
    (path : Path) :
    (((new scene rules).run (lookups.map .lookup)).flattened path).1
      =
    scene.flattened rules path := by
  obtain ⟨hscene, hrules, hvalid⟩ := (new_valid scene rules).lookups lookups
  rw [(hvalid.flattened path).1, hscene, hrules]
  rfl

theorem lookups_prim? (scene : Scene) (rules : FlattenRules) (lookups : List Path) (path : Path) :
    (((new scene rules).run (lookups.map .lookup)).prim? path).1
      =
    (scene.prim? path).map fun _ => scene.flattened rules path := by
  obtain ⟨hscene, hrules, hvalid⟩ := (new_valid scene rules).lookups lookups
  rw [(hvalid.prim? path).1, hscene, hrules]
  change (if (scene.prim? path).isSome then _ else _) = _
  cases scene.prim? path <;> rfl

theorem flattened_lookups_eq (scene : Scene) (rules : FlattenRules)
    (hnames : (Dict.keys rules).Nodup) (lookups : List Path) (path : Path) :
    let cache := (new scene rules).run (lookups.map .lookup)
    let prim := scene.prim? path
    let names := Schema.namesOf prim
    let flat := (cache.flattened path).1
    (cache.prim? path).1 = prim.map (fun _ => flat) ∧
      (∀ name, name ∉ Dict.keys rules → flat.child name = prim.bind (·.child name)) ∧
      (∀ rule ∈ rules, flat.child rule.1 = (rule.2.flatten {
          path
          own := prim.bind (·.container? rule.1)
          inherited := path.parent?.bind fun parent =>
            (cache.flattened parent).1.container? rule.1 }).map Container.source) ∧
      flat.names
        = ((if rules.isEmpty then names else names.eraseDups).filter fun name =>
            name ∉ Dict.keys rules ∨ (flat.child name).isSome) ++
          ((Dict.keys rules).filter fun name => name ∉ names ∧ (flat.child name).isSome) ∧
      ∀ other : FlattenRules, rules.Perm other → ∀ more : List Path,
        (((new scene other).run (more.map .lookup)).flattened path).1.child = flat.child := by
  intro cache prim names flat
  have hflattened : ∀ path, (cache.flattened path).1 = scene.flattened rules path :=
    lookups_flattened scene rules lookups
  have hflat : flat = scene.flattened rules path := hflattened path
  refine ⟨?_, ?_, ?_, ?_, ?_⟩
  . rw [hflat]
    exact lookups_prim? scene rules lookups path
  . intro name hname
    rw [hflat]
    exact scene.flattened_child_of_not_mem hname path
  . intro rule hrule
    have hinherited : (path.parent?.bind fun parent =>
          (cache.flattened parent).1.container? rule.1)
        = path.parent?.bind (scene.inherited rule) := by
      congr 1
      funext parent
      rw [hflattened, scene.flattened_container?_of_mem hnames hrule]
    rw [hflat, scene.flattened_child_of_mem hnames hrule, Scene.inherited_eq, hinherited]
  . rw [hflat, Scene.flattened_eq]
    exact FlattenRules.flatten_names hnames path prim _
  . intro other hother more
    rw [lookups_flattened, hflat]
    exact scene.flattened_child_of_perm hnames hother path

-- A container that does not say how visible its prim is goes away where no prim above says it
-- either, and a transform is added.
theorem flattened_lookups_eq_unset :
    let path : Path := ⟨["a"], by decide⟩
    let prim := Container.ofEntries
      [("visibility", some (Source.ofEntries [])), ("size", some (.value (.int 2)))]
    let scene := Scene.empty.insert path prim
    let lookups : List Path := [path, .root]
    let cache := (new scene .standard).run (lookups.map .lookup)
    (Dict.keys FlattenRules.standard).Nodup ∧
      (cache.prim? path).1.map (·.names) = some ["size", "xform"] ∧
      (cache.flattened path).1.child "visibility" = none ∧
      (cache.flattened path).1.child "size" = some (.value (.int 2)) ∧
      (((new scene FlattenRules.standard.reverse).run []).flattened path).1.child "visibility"
        = none := by
  intro path prim scene lookups cache
  have hrules : (Dict.keys FlattenRules.standard).Nodup := by decide
  have hvisibility : ("visibility", FlattenRule.visibility) ∈ FlattenRules.standard := by
    simp [FlattenRules.standard]
  have hxform : ("xform", FlattenRule.xform) ∈ FlattenRules.standard := by
    simp [FlattenRules.standard]
  obtain ⟨-, -, hroot, -⟩ := flattened_lookups_eq scene .standard hrules lookups .root
  obtain ⟨hprim, hkept, hmade, hnames, hperm⟩ :=
    flattened_lookups_eq scene .standard hrules lookups path
  have habove : (cache.flattened .root).1.container? "visibility" = none := by
    unfold Container.container?
    rw [hroot _ hvisibility]
    rfl
  have hhidden : (cache.flattened path).1.child "visibility" = none := by
    have hparent : path.parent? = some .root := rfl
    rw [hmade _ hvisibility, hparent]
    dsimp only
    rw [Option.bind_some, habove]
    rfl
  have hmoved : ((cache.flattened path).1.child "xform").isSome := by
    rw [hmade _ hxform]
    rfl
  refine ⟨hrules, ?_, hhidden, ?_, ?_⟩
  . have hlisted : (cache.flattened path).1.names
        = (["visibility", "size"].filter fun name =>
            name ∉ ["xform", "visibility"] ∨ ((cache.flattened path).1.child name).isSome) ++
          ["xform", "visibility"].filter fun name =>
            name ∉ ["visibility", "size"] ∧ ((cache.flattened path).1.child name).isSome := hnames
    have hfound : (cache.prim? path).1 = some (cache.flattened path).1 := hprim
    rw [hfound, Option.map_some, hlisted]
    simp [hhidden, hmoved]
  . exact hkept "size" (by decide)
  . exact (congrFun (hperm _ (List.reverse_perm _).symm []) "visibility").trans hhidden

end FlattenCache

end SceneTree
