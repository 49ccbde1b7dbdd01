import Mathlib.Data.List.Induction
import SceneTree.Edit
import SceneTree.Proofs.Edit.Tree

/-!
This module contains what an editor makes of a history of changes: at every place it holds what the
last change at or above the place says of it, unless a later change went further down.
-/

namespace SceneTree

namespace Editor

/--
The invariant of editors: only a container takes the place of the whole, and there are no edits
before the first one is made.
-/
structure Valid (editor : Editor) : Prop where
  wellFormed : editor.edits.WellFormed
  root : editor.edits.edit.opened = editor.edits.edit
  blank : editor.isEdited = false → editor.edits = .blank

theorem new_valid (base : Option Container) : (new base).Valid where
  wellFormed := EditTree.wellFormed_blank
  root := rfl
  blank := by intros; rfl

theorem edit_record_cons (tree : EditTree) (edit : Edit) (name : Token) (rest : Locator) :
    (tree.record edit (name :: rest)).edit = tree.edit.opened := by
  cases tree with
  | node _ _ => rfl

theorem Valid.set {editor : Editor} (h : editor.Valid) (place : Locator) (value : Option Source) :
    (editor.set place value).Valid := by
  unfold Editor.set
  dsimp
  split
  . next haccepts =>
    refine ⟨EditTree.record_wellFormed _ _ h.wellFormed, ?_, by simp⟩
    dsimp
    cases place with
    | nil =>
      cases editor.edits with
      | node edit children =>
        cases hwrite : Edit.write value with
        | replace source =>
          cases source with
          | container names child => rfl
          | _ => simp [accepts, hwrite] at haccepts
        | _ => simp [accepts, hwrite] at haccepts
    | cons name rest =>
      rw [edit_record_cons]
      apply Edit.opened_opened
  . exact h

theorem set_base (editor : Editor) (place : Locator) (value : Option Source) :
    (editor.set place value).base = editor.base := by
  unfold Editor.set
  dsimp
  split
  . rfl
  . rfl

theorem Valid.finish_of_isEdited {editor : Editor} (h : editor.Valid) (hedited : editor.isEdited) :
    editor.finish
      =
    EditTree.layer editor.edits.children
      (editor.edits.edit.container? (editor.base.map Container.source)) := by
  have hroot := h.root
  unfold finish
  rw [if_pos hedited]
  revert hroot
  cases editor.edits.edit with
  | keep =>
    intro _
    cases editor.base <;> rfl
  | replace source =>
    intro hroot
    cases source with
    | container names child => rfl
    | _ => simp [Edit.opened, Container.source] at hroot
  | delete =>
    intro hroot
    simp [Edit.opened] at hroot

theorem Valid.finish_at?_cons {editor : Editor} (h : editor.Valid) (name : Token)
    (rest : Locator) :
    editor.finish.at? (name :: rest)
      =
    editor.edits.at? (editor.base.map Container.source) (name :: rest) := by
  rw [EditTree.at?_cons h.wellFormed, Container.at?_cons]
  cases hedited : editor.isEdited with
  | true =>
    rw [h.finish_of_isEdited hedited]
    rfl
  | false =>
    rw [h.blank hedited]
    unfold finish
    rw [hedited]
    cases editor.base <;> rfl

theorem write_ne_keep (value : Option Source) : Edit.write value ≠ .keep := by
  rcases value with _ | ⟨_, _⟩ | _ | _ | _
  all_goals simp [Edit.write]

theorem set_edits {editor : Editor} {place : Locator} {value : Option Source}
    (h : accepts place (Edit.write value)) :
    (editor.set place value).edits = editor.edits.record (Edit.write value) place := by
  unfold Editor.set
  simp [h]

theorem set_isEdited {editor : Editor} {place : Locator} {value : Option Source}
    (h : accepts place (Edit.write value)) : (editor.set place value).isEdited = true := by
  unfold Editor.set
  simp [h]

theorem set_of_not_accepts {editor : Editor} {place : Locator} {value : Option Source}
    (h : ¬ accepts place (Edit.write value)) : editor.set place value = editor := by
  unfold Editor.set
  simp [h]

theorem Valid.set_finish_at?_of_isUnder {editor : Editor} (h : editor.Valid) {place : Locator}
    {value : Option Source} (haccepts : accepts place (Edit.write value)) {rest : Locator}
    (hne : place ++ rest ≠ []) :
    (editor.set place value).finish.at? (place ++ rest)
      =
    (Edit.write value).source?.bind (·.at? rest) := by
  cases hread : place ++ rest with
  | nil => exact absurd hread hne
  | cons name more =>
    rw [(h.set place value).finish_at?_cons, set_edits haccepts, ← hread]
    exact EditTree.record_at?_of_isUnder (write_ne_keep value) place h.wellFormed _ rest

theorem Valid.set_finish_at?_of_not_isRelatedTo {editor : Editor} (h : editor.Valid)
    {place other : Locator} (value : Option Source) (hother : ¬ other.isRelatedTo place) :
    (editor.set place value).finish.at? other = editor.finish.at? other := by
  by_cases haccepts : accepts place (Edit.write value)
  . cases other with
    | nil => simp [Locator.isRelatedTo_iff] at hother
    | cons name rest =>
      rw [(h.set place value).finish_at?_cons, set_edits haccepts, set_base, h.finish_at?_cons]
      exact EditTree.record_at?_of_not_isRelatedTo _ h.wellFormed _ hother
  . rw [set_of_not_accepts haccepts]

structure Change where
  place : Locator
  source : Option Source

namespace Change

def isAccepted (change : Change) : Bool :=
  accepts change.place (Edit.write change.source)

def decides (change : Change) (place : Locator) : Bool :=
  change.isAccepted && place.isUnder change.place

def sourceAt (change : Change) (place : Locator) : Option Source :=
  match Edit.write change.source with
  | .replace source => source.at? (place.drop change.place.length)
  | _ => none

end Change

def run (editor : Editor) (changes : List Change) : Editor :=
  changes.foldl (fun editor change => editor.set change.place change.source) editor

def lastDeciding? (changes : List Change) (place : Locator) : Option Change :=
  changes.reverse.find? (·.decides place)

/--
The changes after the last one that decides what is at a place, the latest first. If none does,
these are all.
-/
def afterDeciding (changes : List Change) (place : Locator) : List Change :=
  changes.reverse.takeWhile fun change => !change.decides place

theorem run_concat (editor : Editor) (changes : List Change) (change : Change) :
    editor.run (changes ++ [change]) = (editor.run changes).set change.place change.source := by
  simp [run]

theorem Valid.run {editor : Editor} (h : editor.Valid) (changes : List Change) :
    (editor.run changes).Valid := by
  induction changes using List.reverseRecOn with
  | nil => exact h
  | append_singleton changes change ih =>
    rw [run_concat]
    exact ih.set change.place change.source

-- A change either decides what is at a place, goes further down, or leaves the place as it is.
theorem Valid.set_finish_at? {editor : Editor} (h : editor.Valid) {change : Change}
    {place : Locator} (hplace : place ≠ [])
    (hfiner : change.isAccepted → change.place.isUnder place → change.place = place) :
    (editor.set change.place change.source).finish.at? place
      =
    if change.decides place then change.sourceAt place else editor.finish.at? place := by
  unfold Change.decides
  by_cases haccepted : change.isAccepted
  . by_cases hover : place.isUnder change.place
    . obtain ⟨rest, hrest⟩ := Locator.exists_eq_append_of_isUnder hover
      subst hrest
      rw [h.set_finish_at?_of_isUnder haccepted hplace]
      simp only [haccepted, hover, Bool.and_self, if_true]
      unfold Change.sourceAt
      rw [List.drop_left]
      cases Edit.write change.source <;> rfl
    . have hrelated : ¬ place.isRelatedTo change.place := by
        rw [Locator.isRelatedTo_iff, not_or]
        refine ⟨hover, fun hunder => hover ?_⟩
        rw [hfiner haccepted hunder]
        exact Locator.isUnder_refl place
      rw [h.set_finish_at?_of_not_isRelatedTo change.source hrelated]
      simp [hover]
  . rw [set_of_not_accepts haccepted]
    simp [haccepted]

theorem Valid.run_finish_at?_congr {editor other : Editor} (h : editor.Valid)
    (hother : other.Valid) {changes : List Change} {place : Locator} (hplace : place ≠ [])
    (hfiner : ∀ change ∈ changes, change.place.isUnder place → change.place = place)
    (hagree : editor.finish.at? place = other.finish.at? place) :
    (editor.run changes).finish.at? place = (other.run changes).finish.at? place := by
  induction changes using List.reverseRecOn with
  | nil => exact hagree
  | append_singleton changes change ih =>
    simp only [List.forall_mem_append, List.forall_mem_singleton] at hfiner
    rw [run_concat, run_concat]
    rw [(h.run changes).set_finish_at? hplace fun _ => hfiner.2]
    rw [(hother.run changes).set_finish_at? hplace fun _ => hfiner.2]
    rw [ih hfiner.1]

theorem run_append (editor : Editor) (changes later : List Change) :
    editor.run (changes ++ later) = (editor.run changes).run later := by
  simp [run]

theorem run_cons (editor : Editor) (change : Change) (changes : List Change) :
    editor.run (change :: changes) = (editor.set change.place change.source).run changes := rfl

theorem Valid.run_finish_at?_of_not_isRelatedTo {editor : Editor} (h : editor.Valid)
    {changes : List Change} {place : Locator}
    (hchanges : ∀ change ∈ changes, ¬ place.isRelatedTo change.place) :
    (editor.run changes).finish.at? place = editor.finish.at? place := by
  induction changes using List.reverseRecOn with
  | nil => rfl
  | append_singleton changes change ih =>
    simp only [List.forall_mem_append, List.forall_mem_singleton] at hchanges
    rw [run_concat, (h.run changes).set_finish_at?_of_not_isRelatedTo _ hchanges.2, ih hchanges.1]

theorem new_finish_at? (base : Option Container) {place : Locator} (hplace : place ≠ []) :
    (new base).finish.at? place = base.bind (·.at? place) := by
  cases base with
  | some container => rfl
  | none =>
    cases place with
    | nil => exact absurd rfl hplace
    | cons name rest => exact Container.at?_cons _ _ _

end Editor

end SceneTree
