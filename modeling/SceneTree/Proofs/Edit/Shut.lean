import SceneTree.Proofs.Edit.Recorded

/-!
This module contains the shape of the edit trees of editors: where something was deleted, or was
replaced by something other than a container, there are no edits below. So what was put in a place is
never covered by a container that its edits make.
-/

namespace SceneTree

namespace EditTree

inductive Holds : EditTree → EditTree → Prop where
  | whole (tree : EditTree) : Holds tree tree
  | entry {edit : Edit} {children : List (Token × EditTree)} {entry : Token × EditTree}
      {inner : EditTree} (hentry : entry ∈ children) (h : Holds entry.2 inner) :
      Holds (node edit children) inner

theorem Holds.wellFormed {tree inner : EditTree} (hinner : tree.Holds inner)
    (h : tree.WellFormed) : inner.WellFormed := by
  induction hinner with
  | whole => exact h
  | entry hentry _ ih =>
    cases h with
    | node _ below => exact ih (below _ hentry)

theorem WellFormed.apply_of_replace {tree : EditTree} (h : tree.WellFormed) {source : Source}
    (hedit : tree.edit = .replace source) (hsource : source.container? = none)
    (below : Option Source) : tree.apply below = some source :=
  (h.apply_eq_leaf_iff below hsource).2 (.inl hedit)

theorem WellFormed.layer_child_of_replace {tree child : EditTree} (h : tree.WellFormed)
    {name : Token} (hchild : Dict.get? tree.children name = some child) {source : Source}
    (hedit : child.edit = .replace source) (hsource : source.container? = none)
    (base : Option Container) : (layer tree.children base).child name = some source := by
  rw [layer_child, hchild]
  exact (h.child hchild).apply_of_replace hedit hsource _

-- The induction is on the place: a child of a well-formed tree is one, whatever it lies over.
theorem WellFormed.at?_of_replace {tree : EditTree} (h : tree.WellFormed) {place : Locator}
    {source : Source} (hedit : tree.editAt place = .replace source)
    (hsource : source.container? = none) (below : Option Source) :
    tree.at? below place = some source := by
  induction place generalizing tree below with
  | nil =>
    rw [editAt_nil] at hedit
    rw [at?_nil]
    exact h.apply_of_replace hedit hsource below
  | cons name rest ih =>
    rw [editAt_cons] at hedit
    rw [at?_cons_eq h]
    cases hget : Dict.get? tree.children name with
    | none =>
      rw [hget, Option.getD_none, blank_editAt] at hedit
      cases hedit
    | some child =>
      rw [hget] at hedit
      exact ih (h.child hget) hedit _

end EditTree

namespace Editor

theorem Valid.edit_root {editor : Editor} (h : editor.Valid) :
    editor.edits.edit = .keep ∨ ∃ c : Container, editor.edits.edit = .replace c.source := by
  have hroot := congrArg Edit.isShut h.root
  rw [Edit.isShut_opened] at hroot
  cases hedit : editor.edits.edit with
  | keep => exact .inl rfl
  | replace source =>
    cases source with
    | container names child => exact .inr ⟨⟨names, child⟩, rfl⟩
    | _ =>
      rw [hedit] at hroot
      cases hroot
  | delete =>
    rw [hedit] at hroot
    cases hroot

theorem Valid.finish_at?_of_replace {editor : Editor} (h : editor.Valid) {place : Locator}
    {source : Source} (hedit : editor.edits.editAt place = .replace source)
    (hsource : source.container? = none) : editor.finish.at? place = some source := by
  cases place with
  | nil =>
    rw [EditTree.editAt_nil] at hedit
    rcases h.edit_root with hroot | ⟨c, hroot⟩
    . cases hedit.symm.trans hroot
    . cases hedit.symm.trans hroot
      cases hsource
  | cons name rest =>
    rw [h.finish_at?_cons]
    exact h.wellFormed.at?_of_replace hedit hsource _

theorem run_edits_children_eq_nil (base : Option Container) (changes : List Change) :
    let editor := (new base).run changes
    (editor.edits.edit = .keep ∨ ∃ c : Container, editor.edits.edit = .replace c.source)
      ∧
    (∀ tree, editor.edits.Holds tree →
      (tree.edit = .delete → tree.children = [] ∧ tree.replacesBelow = false) ∧
      (∀ source, tree.edit = .replace source → source.container? = none → tree.children = []) ∧
      ∀ name child source, Dict.get? tree.children name = some child →
        child.edit = .replace source → source.container? = none →
        ∀ below, (EditTree.layer tree.children below).child name = some source)
      ∧
    ∀ place source, editor.edits.editAt place = .replace source → source.container? = none →
      editor.finish.at? place = some source := by
  intro editor
  have hvalid : editor.Valid := (new_valid base).run changes
  refine ⟨hvalid.edit_root, ?_, fun place source => hvalid.finish_at?_of_replace⟩
  intro tree hheld
  have hformed := hheld.wellFormed hvalid.wellFormed
  refine ⟨?_, ?_, ?_⟩
  . intro hedit
    have hcreates := hformed.creates_of_delete hedit
    exact ⟨hformed.children_of_isShut (hedit ▸ rfl), (Bool.or_eq_false_iff.1 hcreates).2⟩
  . intro source hedit hsource
    exact hformed.children_of_isShut (hedit ▸ Edit.isShut_replace hsource)
  . intro name child source hchild hedit hsource
    exact hformed.layer_child_of_replace hchild hedit hsource

-- A leaf that is opened by a change below it, a deletion over that change, and a vector.
theorem run_edits_children_eq_nil_opened :
    let leaf := Source.value (.int 3)
    let changes : List Change := [
      ⟨["a"], some leaf⟩,
      ⟨["a", "x", "y"], some leaf⟩,
      ⟨["a", "x"], none⟩,
      ⟨["b"], some (.vector [leaf])⟩]
    let editor := (new none).run changes
    editor.edits.editAt ["a"] = .replace Container.empty.source ∧
      editor.edits.editAt ["a", "x"] = .delete ∧
      (∃ tree, editor.edits.Holds tree ∧ tree.edit = .delete ∧ tree.children = []) ∧
      editor.finish.at? ["b"] = some (.vector [leaf]) := by
  intro leaf changes editor
  obtain ⟨-, hheld, hread⟩ := run_edits_children_eq_nil none changes
  have hdeleted : editor.edits.Holds (.node .delete []) :=
    .entry List.mem_cons_self (.entry List.mem_cons_self (.whole _))
  exact ⟨rfl, rfl, ⟨_, hdeleted, rfl, ((hheld _ hdeleted).1 rfl).1⟩, hread ["b"] _ rfl rfl⟩

end Editor

end SceneTree
