import SceneTree.Proofs.Edit.Listing

/-!
This module contains the names of a container after a history of writes to its entries. The edits
below the container record of each entry whether its last write put something there, and the entries
in the order of the first writes to them.
-/

namespace SceneTree

/--
Writes to the entries of a container, the first one first: which entry is written, and whether the
write puts something there.
-/
abbrev EntryHistory := List (Token × Bool)

namespace EntryHistory

def last? (history : EntryHistory) (name : Token) : Option Bool :=
  Dict.get? history.reverse name

def firstNames (history : EntryHistory) : List Token :=
  (history.map (·.1)).eraseDups

/--
The names of a container after some writes to its entries, from the names that it had: those whose
last write is not a deletion, and then those that came to be.
-/
def namesAfter (history : EntryHistory) (names : List Token) : List Token :=
  (names.filter fun name => (history.last? name).getD true) ++
    history.firstNames.filter fun name => name ∉ names ∧ (history.last? name).getD false

theorem last?_concat (history : EntryHistory) (name other : Token) (puts : Bool) :
    last? (history ++ [(name, puts)]) other
      =
    if name = other then some puts else history.last? other := by
  unfold last?
  rw [List.reverse_concat, Dict.get?_cons]

theorem firstNames_concat (history : EntryHistory) (name : Token) (puts : Bool) :
    firstNames (history ++ [(name, puts)])
      =
    if name ∈ history.firstNames then history.firstNames else history.firstNames ++ [name] := by
  unfold firstNames
  rw [List.map_append]
  exact EditTree.eraseDups_concat _ _

theorem last?_eq_none {history : EntryHistory} {name : Token} (h : name ∉ history.map (·.1)) :
    history.last? name = none := by
  unfold last?
  apply Dict.get?_eq_none_of_not_mem
  unfold Dict.keys
  rwa [List.map_reverse, List.mem_reverse]

theorem last?_of_mem {history : EntryHistory} (h : (history.map (·.1)).Nodup)
    {entry : Token × Bool} (hentry : entry ∈ history) :
    history.last? entry.1 = some entry.2 := by
  unfold last?
  apply Dict.get?_eq_some_of_mem
  . unfold Dict.keys
    rwa [List.map_reverse, (List.reverse_perm _).nodup_iff]
  . exact List.mem_reverse.2 hentry

theorem last?_map_true (added : List Token) (name : Token) :
    last? (added.map (·, true)) name = if name ∈ added then some true else none := by
  induction added using List.reverseRecOn with
  | nil => rfl
  | append_singleton added other ih =>
    rw [List.map_append, List.map_singleton, last?_concat, ih]
    by_cases heq : other = name
    . simp [heq]
    . simp [heq, Ne.symm heq]

-- Where nothing is deleted, all names stay.
theorem namesAfter_map_true (added names : List Token) :
    namesAfter (added.map (·, true)) names
      =
    names ++ added.eraseDups.filter fun name => name ∉ names := by
  have hfirst : firstNames (added.map (·, true)) = added.eraseDups := by
    unfold firstNames
    rw [List.map_map]
    exact congrArg List.eraseDups (List.map_id added)
  unfold namesAfter
  rw [hfirst]
  congr 1
  . rw [List.filter_eq_self]
    intro name _
    rw [last?_map_true]
    split <;> rfl
  . apply List.filter_congr
    intro name hname
    rw [List.mem_eraseDups] at hname
    simp [last?_map_true, hname]

end EntryHistory

theorem Edit.opened_ne_delete (edit : Edit) : edit.opened ≠ delete := by
  rcases edit with _ | ⟨_, _⟩ | _
  all_goals simp [opened]

namespace EditTree

/--
How the edits of the entries of a container come from the writes to them.
-/
structure HasEntries (tree : EditTree) (place : Locator) (history : EntryHistory) : Prop where
  names : tree.recordedNames place = history.firstNames
  deleted : ∀ name, tree.editAt (place ++ [name]) = .delete ↔ history.last? name = some false
  created : ∀ name, tree.createsAt (place ++ [name]) ↔ history.last? name = some true

theorem blank_hasEntries (place : Locator) : blank.HasEntries place [] where
  names := by cases place <;> rfl
  deleted := by simp [blank_editAt, EntryHistory.last?]
  created := by simp [createsAt, blank_editAt, Edit.isReplace, EntryHistory.last?]

theorem record_editAt_above (value : Edit) (place : Locator) (name : Token) (rest : Locator)
    (tree : EditTree) :
    (tree.record value (place ++ name :: rest)).editAt place = (tree.editAt place).opened := by
  have hover := Locator.append_isUnder place (name :: rest)
  have hne : place ≠ place ++ name :: rest := by simp
  have hnot : ¬ place.isUnder (place ++ name :: rest) :=
    fun hunder => hne (Locator.isUnder_antisymm hunder hover)
  rw [record_editAt, if_neg hne, if_neg hnot, if_pos hover]

-- Only what is put somewhere may be put below the place: a deletion there would leave it.
theorem record_editAt_eq_delete_iff {value : Edit} (hkeep : value ≠ .keep) (place : Locator)
    {rest : Locator} (h : value.isReplace ∨ rest = []) (tree : EditTree) :
    (tree.record value (place ++ rest)).editAt place = .delete ↔ value.isReplace = false := by
  cases rest with
  | nil =>
    rw [List.append_nil, record_editAt, if_pos rfl]
    cases value with
    | keep => exact absurd rfl hkeep
    | replace source => simp [Edit.isReplace]
    | delete => simp [Edit.isReplace]
  | cons name rest =>
    rw [record_editAt_above, h.resolve_right (by simp)]
    exact iff_of_false (Edit.opened_ne_delete _) (by simp)

section Record

variable {tree : EditTree} {place : Locator} {history : EntryHistory}

theorem HasEntries.record (h : tree.HasEntries place history) (name : Token) {rest : Locator}
    {value : Edit} (hkeep : value ≠ .keep) (hvalue : value.isReplace ∨ rest = []) :
    (tree.record value (place ++ name :: rest)).HasEntries place
      (history ++ [(name, value.isReplace)]) := by
  have hplace : place ++ name :: rest = place ++ [name] ++ rest := by simp
  have hother : ∀ other, name ≠ other →
      ¬ Locator.isRelatedTo (place ++ [other]) (place ++ name :: rest) := by
    intro other hne
    simp [Locator.isRelatedTo_iff, Locator.isUnder_iff, hne, Ne.symm hne]
  constructor
  . rw [record_recordedNames, EntryHistory.firstNames_concat, h.names]
  . intro other
    rw [EntryHistory.last?_concat]
    split
    . next heq =>
      subst heq
      rw [hplace, record_editAt_eq_delete_iff hkeep _ hvalue, Option.some.injEq]
    . next hne =>
      rw [record_editAt_of_not_isRelatedTo _ _ (hother other hne)]
      exact h.deleted other
  . intro other
    rw [EntryHistory.last?_concat]
    split
    . next heq =>
      subst heq
      rw [hplace, record_createsAt _ _ _ _ hvalue, Option.some.injEq]
    . next hne =>
      rw [record_createsAt_of_not_isRelatedTo _ _ (hother other hne)]
      exact h.created other

theorem HasEntries.record_of_not_isRelatedTo (h : tree.HasEntries place history) (value : Edit)
    {other : Locator} (hother : ¬ place.isRelatedTo other) :
    (tree.record value other).HasEntries place history where
  names := by rw [record_recordedNames_of_not_isRelatedTo _ _ hother, h.names]
  deleted := fun name => by
    rw [record_editAt_of_not_isRelatedTo _ _ (Locator.not_isRelatedTo_append hother [name])]
    exact h.deleted name
  created := fun name => by
    rw [record_createsAt_of_not_isRelatedTo _ _ (Locator.not_isRelatedTo_append hother [name])]
    exact h.created name

end Record

section Names

variable {tree : EditTree} {place : Locator} {history : EntryHistory}
variable (h : tree.HasEntries place history) (hformed : tree.WellFormed) (hdistinct : tree.Distinct)
include h

theorem HasEntries.all_lists_eq (name : Token) :
    (tree.inner? (place ++ [name])).all (·.lists true) = (history.last? name).getD true := by
  rw [Bool.eq_iff_iff, inner?_all_lists_iff, ne_eq, h.deleted]
  cases history.last? name with
  | none => simp
  | some puts => cases puts <;> simp

include hformed hdistinct

theorem HasEntries.any_lists_eq (name : Token) :
    (tree.inner? (place ++ [name])).any (·.lists false) = (history.last? name).getD false := by
  rw [Bool.eq_iff_iff, inner?_any_lists_iff hformed hdistinct, h.created]
  cases history.last? name with
  | none => simp
  | some puts => cases puts <;> simp

theorem HasEntries.names_at?
    (hkeep : ∀ step, place.isUnder step → tree.editAt step = .keep) {below : Option Source}
    (hnodup : (Schema.namesOf ((below.bind (·.at? place)).bind Source.container?)).Nodup) :
    Schema.namesOf ((tree.at? below place).bind Source.container?)
      =
    history.namesAfter (Schema.namesOf ((below.bind (·.at? place)).bind Source.container?)) := by
  rw [hformed.names_at? hdistinct hkeep rfl hnodup, h.names]
  simp only [h.all_lists_eq, h.any_lists_eq hformed hdistinct]
  unfold EntryHistory.namesAfter
  simp only [Bool.decide_and, Bool.decide_eq_true]

end Names

theorem HasEntries.editedNames_eq {tree : EditTree} {history : EntryHistory}
    (h : tree.HasEntries [] history) (hformed : tree.WellFormed) (hdistinct : tree.Distinct)
    (names : List Token) :
    editedNames tree.children names = history.namesAfter names.eraseDups := by
  have hchild : ∀ name, Dict.get? tree.children name = tree.inner? [name] := by
    intro name
    rw [inner?_cons]
    simp [inner?_nil]
  have hrecorded : Dict.keys tree.children = history.firstNames := by
    rw [← h.names]
    unfold recordedNames
    rw [inner?_nil]
    rfl
  rw [EditTree.editedNames_eq hdistinct.names, hrecorded]
  have hall := h.all_lists_eq
  have hany := h.any_lists_eq hformed hdistinct
  simp only [List.nil_append] at hall hany
  simp only [hchild, hall, hany]
  unfold EntryHistory.namesAfter
  simp only [List.mem_eraseDups, Bool.decide_and, Bool.decide_eq_true]

end EditTree

namespace Editor

structure HasEntries (editor : Editor) (base : Option Container) (history : EntryHistory) :
    Prop where
  valid : editor.Valid
  distinct : editor.edits.Distinct
  base : editor.base = base
  root : editor.edits.edit = .keep
  isEdited : editor.isEdited = !history.isEmpty
  entries : editor.edits.HasEntries [] history

theorem new_hasEntries (base : Option Container) : (new base).HasEntries base [] where
  valid := new_valid base
  distinct := EditTree.distinct_blank
  base := rfl
  root := rfl
  isEdited := rfl
  entries := EditTree.blank_hasEntries []

section

variable {editor : Editor} {base : Option Container} {history : EntryHistory}

theorem HasEntries.set (h : editor.HasEntries base history) (name : Token)
    (value : Option Source) :
    (editor.set [name] value).HasEntries base
      (history ++ [(name, (Edit.write value).isReplace)]) where
  valid := h.valid.set _ _
  distinct := set_distinct h.distinct _ _
  base := by rw [set_base, h.base]
  root := by
    rw [set_edits rfl, edit_record_cons, h.root]
    rfl
  isEdited := by
    rw [set_isEdited rfl]
    simp
  entries := by
    rw [set_edits rfl]
    exact h.entries.record name (write_ne_keep value) (.inr rfl)

-- Only an editor with edits looks for names that are there twice.
theorem HasEntries.finish_names (h : editor.HasEntries base history) :
    editor.finish.names
      =
    if history.isEmpty then Schema.namesOf base
    else history.namesAfter (Schema.namesOf base).eraseDups := by
  by_cases hempty : history.isEmpty
  . have hedited : editor.isEdited = false := by rw [h.isEdited, hempty]; rfl
    rw [if_pos hempty]
    unfold finish
    rw [hedited, h.base]
    cases base <;> rfl
  . have hedited : editor.isEdited = true := by
      rw [h.isEdited, Bool.eq_false_iff.2 hempty]
      rfl
    rw [if_neg hempty, h.valid.finish_of_isEdited hedited, h.root, h.base]
    unfold EditTree.layer
    dsimp only
    rw [h.entries.editedNames_eq h.valid.wellFormed h.distinct]
    cases base <;> rfl

theorem HasEntries.finish_names_of_nodup (h : editor.HasEntries base history)
    (hnodup : (Schema.namesOf base).Nodup) :
    editor.finish.names = history.namesAfter (Schema.namesOf base) := by
  rw [h.finish_names, EditTree.eraseDups_of_nodup hnodup]
  split
  . next hempty =>
    rw [List.isEmpty_iff.1 hempty]
    simp [EntryHistory.namesAfter, EntryHistory.last?, EntryHistory.firstNames,
      List.filter_eq_self.2]
  . rfl

end

end Editor

end SceneTree
