import SceneTree.Proofs.Flatten.Prim

/-!
This module contains the children of flattened prims: under the name of a rule there is what the
rule makes of the prims from the root down, whatever the other rules do, and under any other name
the child of the prim itself.
-/

namespace SceneTree

namespace FlattenRules

def made (rule : Token × FlattenRule) (path : Path) (prim parent : Option Container) :
    Option Container :=
  rule.2.flatten {
    path
    own := prim.bind (·.container? rule.1)
    inherited := parent.bind (·.container? rule.1) }

theorem changes_append (rules later : FlattenRules) (path : Path)
    (prim parent : Option Container) :
    changes (rules ++ later) path prim parent
      =
    changes rules path prim parent ++ changes later path prim parent :=
  List.map_append

theorem not_isRelatedTo_of_mem_changes {rules : FlattenRules} {path : Path}
    {prim parent : Option Container} {change : Editor.Change} {name : Token}
    (hname : name ∉ Dict.keys rules) (hchange : change ∈ rules.changes path prim parent)
    (rest : Locator) : ¬ Locator.isRelatedTo (name :: rest) change.place := by
  obtain ⟨rule, hrule, heq⟩ := List.mem_map.1 hchange
  subst heq
  have hne : rule.1 ≠ name := fun heq => hname (heq ▸ List.mem_map_of_mem hrule)
  simp [Locator.isRelatedTo_iff, hne, Ne.symm hne]

theorem flatten_at?_of_not_mem {rules : FlattenRules} {name : Token}
    (hname : name ∉ Dict.keys rules) (path : Path) (prim parent : Option Container)
    (rest : Locator) :
    (rules.flatten path prim parent).at? (name :: rest) = prim.bind (·.at? (name :: rest)) := by
  rw [flatten_eq_finish_run]
  rw [(Editor.new_valid prim).run_finish_at?_of_not_isRelatedTo]
  . exact Editor.new_finish_at? prim (by simp)
  . intro change hchange
    exact not_isRelatedTo_of_mem_changes hname hchange rest

-- Of the rules, only the one with the name writes under it.
theorem flatten_at?_of_mem {rules : FlattenRules} (hnames : (Dict.keys rules).Nodup)
    {rule : Token × FlattenRule} (hrule : rule ∈ rules) (path : Path)
    (prim parent : Option Container) (rest : Locator) :
    (rules.flatten path prim parent).at? (rule.1 :: rest)
      =
    (made rule path prim parent).bind (·.at? rest) := by
  obtain ⟨before, after, heq⟩ := List.append_of_mem hrule
  subst heq
  have hafter : rule.1 ∉ Dict.keys after := by
    unfold Dict.keys at hnames ⊢
    rw [List.map_append, List.map_cons] at hnames
    exact (List.nodup_cons.1 (List.nodup_append.1 hnames).2.1).1
  have hrest : changes (rule :: after) path prim parent
      = ⟨[rule.1], (made rule path prim parent).map Container.source⟩ ::
        changes after path prim parent := rfl
  rw [flatten_eq_finish_run, changes_append, hrest, Editor.run_append, Editor.run_cons]
  have hvalid := (Editor.new_valid prim).run (changes before path prim parent)
  rw [(hvalid.set _ _).run_finish_at?_of_not_isRelatedTo fun change hchange =>
    not_isRelatedTo_of_mem_changes hafter hchange rest]
  have hplace : rule.1 :: rest = [rule.1] ++ rest := rfl
  rw [hplace, hvalid.set_finish_at?_of_isUnder rfl (List.cons_ne_nil rule.1 rest)]
  cases made rule path prim parent with
  | none => rfl
  | some container => rfl

end FlattenRules

namespace Scene

def inherited (scene : Scene) (rule : Token × FlattenRule) (path : Path) : Option Container :=
  rule.2.flatten {
    path
    own := (scene.prim? path).bind (·.container? rule.1)
    inherited :=
      match h : path.parent? with
      | none => none
      | some parent =>
        have := Path.depth_lt_of_parent? h
        scene.inherited rule parent }
termination_by path.depth

theorem inherited_eq (scene : Scene) (rule : Token × FlattenRule) (path : Path) :
    scene.inherited rule path
      =
    rule.2.flatten {
      path
      own := (scene.prim? path).bind (·.container? rule.1)
      inherited := path.parent?.bind (scene.inherited rule) } := by
  rw [inherited]
  congr 2
  split
  . next h => exact (congrArg (Option.bind · _) h).symm
  . next h => exact (congrArg (Option.bind · _) h).symm

theorem flattened_at?_of_not_mem (scene : Scene) {rules : FlattenRules} {name : Token}
    (hname : name ∉ Dict.keys rules) (path : Path) (rest : Locator) :
    (scene.flattened rules path).at? (name :: rest)
      =
    (scene.prim? path).bind (·.at? (name :: rest)) := by
  rw [flattened_eq]
  exact FlattenRules.flatten_at?_of_not_mem hname path _ _ rest

theorem flattened_at?_of_mem (scene : Scene) {rules : FlattenRules}
    (hnames : (Dict.keys rules).Nodup) {rule : Token × FlattenRule} (hrule : rule ∈ rules)
    (path : Path) (rest : Locator) :
    (scene.flattened rules path).at? (rule.1 :: rest)
      =
    (scene.inherited rule path).bind (·.at? rest) := by
  induction path using Path.induction generalizing rest with
  | h path ih =>
    have hparent : (path.parent?.map (scene.flattened rules)).bind (·.container? rule.1)
        = path.parent?.bind (scene.inherited rule) := by
      cases hpath : path.parent? with
      | none => rfl
      | some parent =>
        rw [Option.map_some, Option.bind_some, Option.bind_some, Container.container?_eq_at?,
          ih parent hpath []]
        cases scene.inherited rule parent with
        | none => rfl
        | some container => rfl
    rw [flattened_eq, FlattenRules.flatten_at?_of_mem hnames hrule, inherited_eq]
    unfold FlattenRules.made
    rw [hparent]

-- A rule sees nothing of a prim but the container under its name.
theorem inherited_insert (scene : Scene) (rule : Token × FlattenRule) {path : Path}
    {prim : Container} (hagree : (scene.prim? path).bind (·.child rule.1) = prim.child rule.1)
    (other : Path) :
    (scene.insert path prim).inherited rule other = scene.inherited rule other := by
  induction other using Path.induction with
  | h other ih =>
    have hparent : other.parent?.bind ((scene.insert path prim).inherited rule)
        = other.parent?.bind (scene.inherited rule) := by
      cases hother : other.parent? with
      | none => rfl
      | some parent => exact ih parent hother
    have hown : ((scene.insert path prim).prim? other).bind (·.container? rule.1)
        = (scene.prim? other).bind (·.container? rule.1) := by
      rw [prim?_insert]
      split
      . next heq =>
        subst heq
        unfold Container.container?
        rw [Option.bind_some, ← Option.bind_assoc, hagree]
      . rfl
    rw [inherited_eq, inherited_eq, hparent, hown]

end Scene

end SceneTree
