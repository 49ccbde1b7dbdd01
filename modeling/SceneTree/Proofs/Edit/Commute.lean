import SceneTree.Proofs.Edit.Subtree

/-!
This module contains what becomes of two edits after each other: one at or above the place of an
earlier one absorbs it, and two at places that are not related may change their order. The trees
that the two orders leave differ in the order of their entries only, which shows in the order of
names and in nothing else.
-/

namespace SceneTree

namespace Source

/--
Whether two sources are the same, or containers that list the same names.
-/
def Alike (first second : Option Source) : Prop :=
  first = second ∨ ∃ a b : Container, first = some a.source ∧ second = some b.source ∧
    a.names.Perm b.names

end Source

namespace EditTree

theorem record_record_of_isUnder (value earlier : Edit) (place below : Locator)
    (tree : EditTree) :
    (tree.record earlier (place ++ below)).record value place = tree.record value place := by
  induction place generalizing tree with
  | nil =>
    cases tree.record earlier ([] ++ below) with
    | node _ _ =>
      cases tree with
      | node _ _ => rfl
  | cons name place ih =>
    obtain ⟨edit, children⟩ := tree
    simp only [List.cons_append, record]
    rw [edit.opened_opened, Dict.modify_eq_insert, Dict.modify_eq_insert, Dict.modify_eq_insert,
      Dict.get?_insert, if_pos rfl, Option.getD_some, ih, Dict.insert_insert]

def Agrees (tree other : EditTree) : Prop :=
  ∀ place, tree.edit? place = other.edit? place

section Agrees

variable {tree other : EditTree} (h : tree.Agrees other)
include h

theorem Agrees.edit : tree.edit = other.edit := by
  have hroot := h []
  rwa [edit?_nil, edit?_nil, Option.some.injEq] at hroot

theorem Agrees.editAt (place : Locator) : tree.editAt place = other.editAt place := by
  rw [← getD_edit?, ← getD_edit?, h place]

theorem Agrees.child (name : Token) :
    Dict.get? tree.children name = none ∧ Dict.get? other.children name = none ∨
      ∃ child otherChild, Dict.get? tree.children name = some child ∧
        Dict.get? other.children name = some otherChild ∧ child.Agrees otherChild := by
  have hname : ∀ rest, (Dict.get? tree.children name).bind (·.edit? rest)
      = (Dict.get? other.children name).bind (·.edit? rest) := by
    intro rest
    rw [← edit?_cons, ← edit?_cons, h]
  cases htree : Dict.get? tree.children name with
  | none =>
    cases hother : Dict.get? other.children name with
    | none => exact .inl ⟨rfl, rfl⟩
    | some otherChild => simpa [htree, hother, edit?_nil] using hname []
  | some child =>
    cases hother : Dict.get? other.children name with
    | none => simpa [htree, hother, edit?_nil] using hname []
    | some otherChild =>
      refine .inr ⟨child, otherChild, rfl, rfl, fun rest => ?_⟩
      simpa [htree, hother] using hname rest

theorem Agrees.creates (htree : tree.Distinct) (hother : other.Distinct) :
    tree.creates = other.creates := by
  rw [Bool.eq_iff_iff, htree.creates_iff, hother.creates_iff]
  simp only [h.editAt]

theorem Agrees.lists (htree : tree.Distinct) (hother : other.Distinct) (before : Bool) :
    tree.lists before = other.lists before := by
  unfold EditTree.lists
  rw [h.edit, h.creates htree hother]

theorem Agrees.editedNames_perm (htree : tree.Distinct) (hother : other.Distinct)
    (names : List Token) :
    (editedNames tree.children names).Perm (editedNames other.children names) := by
  rw [List.perm_ext_iff_of_nodup (editedNames_nodup _ _) (editedNames_nodup _ _)]
  intro name
  rw [← decide_eq_decide, mem_editedNames htree.names, mem_editedNames hother.names]
  rcases h.child name with ⟨hnone, hotherNone⟩ | ⟨child, otherChild, hsome, hotherSome, hchild⟩
  . rw [hnone, hotherNone]
  . rw [hsome, hotherSome]
    exact hchild.lists (htree.child hsome) (hother.child hotherSome) _

end Agrees

-- Either order leaves at each place the value written there, nothing below such a place, and what
-- was opened above one.
theorem record_record_agrees (value later : Edit) {place other : Locator}
    (hrelated : ¬ place.isRelatedTo other) (tree : EditTree) :
    ((tree.record value place).record later other).Agrees
      ((tree.record later other).record value place) := by
  intro step
  have hcommon : ¬ (step.isUnder place ∧ step.isUnder other) := fun h =>
    hrelated (Locator.isRelatedTo_of_isUnder h.1 h.2)
  rw [Locator.isRelatedTo_iff, not_or] at hrelated
  simp only [record_edit?, record_editAt]
  by_cases hplace : step = place
  . subst hplace
    have hne : step ≠ other := fun heq => hrelated.1 (heq ▸ Locator.isUnder_refl step)
    simp [hne, hrelated.1, hrelated.2]
  . by_cases hother : step = other
    . subst hother
      simp [hplace, hrelated.1, hrelated.2]
    . by_cases hunder : step.isUnder place
      . have hnot : ¬ step.isUnder other := fun h => hcommon ⟨hunder, h⟩
        have hover : ¬ other.isUnder step := fun h => hrelated.2 (Locator.isUnder_trans h hunder)
        simp [hplace, hother, hunder, hnot, hover]
      . by_cases hunderOther : step.isUnder other
        . have hover : ¬ place.isUnder step := fun h =>
            hrelated.1 (Locator.isUnder_trans h hunderOther)
          simp [hplace, hother, hunder, hunderOther, hover]
        . by_cases hover : place.isUnder step
          . by_cases hoverOther : other.isUnder step
            . simp [hplace, hother, hunder, hunderOther, hover, hoverOther]
            . simp [hplace, hother, hunder, hunderOther, hover, hoverOther]
          . simp [hplace, hother, hunder, hunderOther, hover]

theorem Agrees.layer_alike {tree other : EditTree} (h : tree.Agrees other)
    (htree : tree.Distinct) (hother : other.Distinct) (base : Option Container) :
    Source.Alike (some (layer tree.children base).source)
      (some (layer other.children base).source) :=
  .inr ⟨_, _, rfl, rfl, h.editedNames_perm htree hother _⟩

theorem Agrees.anyReplaces {children others : List (Token × EditTree)}
    (h : (EditTree.node .keep children).Agrees (EditTree.node .keep others))
    (htree : (EditTree.node .keep children).Distinct)
    (hother : (EditTree.node .keep others).Distinct) :
    EditTree.anyReplaces children = EditTree.anyReplaces others := by
  simpa [creates_node, Edit.isReplace] using h.creates htree hother

theorem Agrees.apply_alike {tree other : EditTree} (h : tree.Agrees other)
    (htree : tree.Distinct) (hother : other.Distinct) (below : Option Source) :
    Source.Alike (tree.apply below) (other.apply below) := by
  have hedit := h.edit
  obtain ⟨edit, children⟩ := tree
  obtain ⟨otherEdit, others⟩ := other
  change edit = otherEdit at hedit
  subst hedit
  have hlayer := h.layer_alike htree hother
  cases edit with
  | keep =>
    cases hbelow : below.bind Source.container? with
    | some container =>
      obtain ⟨source, hsome, hcontainer⟩ := Option.bind_eq_some_iff.1 hbelow
      rw [hsome, Source.container?_eq_some_iff.1 hcontainer, apply_keep_of_container,
        apply_keep_of_container]
      exact hlayer (some container)
    | none =>
      rw [apply_keep_of_not_container children hbelow, apply_keep_of_not_container others hbelow,
        h.anyReplaces htree hother]
      split
      . exact hlayer none
      . exact .inl rfl
  | replace source =>
    cases children with
    | nil =>
      cases others with
      | nil => exact .inl rfl
      | cons second rest =>
        rcases h.child second.1 with ⟨_, hnone⟩ | ⟨_, _, hsome, _⟩
        . simp [EditTree.children, Dict.get?] at hnone
        . cases hsome
    | cons first more =>
      cases others with
      | nil =>
        rcases h.child first.1 with ⟨hnone, _⟩ | ⟨_, _, _, hsome, _⟩
        . simp [EditTree.children, Dict.get?] at hnone
        . cases hsome
      | cons second rest =>
        unfold apply
        exact hlayer source.container?
  | delete =>
    unfold apply
    exact .inl rfl

theorem Agrees.at?_alike {tree other : EditTree} (h : tree.Agrees other)
    (htree : tree.WellFormed) (hother : other.WellFormed) (hdistinct : tree.Distinct)
    (hotherDistinct : other.Distinct) (below : Option Source) (place : Locator) :
    Source.Alike (tree.at? below place) (other.at? below place) := by
  induction place generalizing tree other below with
  | nil =>
    rw [EditTree.at?_nil, EditTree.at?_nil]
    exact h.apply_alike hdistinct hotherDistinct below
  | cons name rest ih =>
    rw [at?_cons_eq htree, at?_cons_eq hother, h.edit]
    rcases h.child name with ⟨hnone, hotherNone⟩ | ⟨child, otherChild, hsome, hotherSome, hchild⟩
    . rw [hnone, hotherNone]
      exact .inl rfl
    . rw [hsome, hotherSome]
      exact ih hchild (htree.child hsome) (hother.child hotherSome) (hdistinct.child hsome)
        (hotherDistinct.child hotherSome) _

end EditTree

namespace Editor

theorem set_set_of_isUnder (editor : Editor) {place below : Locator}
    (hunder : below.isUnder place) {value : Option Source}
    (haccepts : accepts place (Edit.write value)) (earlier : Option Source) :
    (editor.set below earlier).set place value = editor.set place value := by
  obtain ⟨rest, hrest⟩ := Locator.exists_eq_append_of_isUnder hunder
  subst hrest
  by_cases hearlier : accepts (place ++ rest) (Edit.write earlier)
  . unfold set
    simp only [hearlier, haccepts, if_true]
    rw [EditTree.record_record_of_isUnder]
  . rw [set_of_not_accepts hearlier]

theorem accepts_of_not_isRelatedTo {place other : Locator} (h : ¬ place.isRelatedTo other)
    (edit : Edit) : accepts place edit := by
  cases place with
  | nil => simp [Locator.isRelatedTo_iff] at h
  | cons name rest => rfl

theorem finish_at?_alike {editor other : Editor} (h : editor.Valid) (hother : other.Valid)
    (hdistinct : editor.edits.Distinct) (hotherDistinct : other.edits.Distinct)
    (hbase : editor.base = other.base) (hedited : editor.isEdited = other.isEdited)
    (hagrees : editor.edits.Agrees other.edits) (place : Locator) :
    Source.Alike (editor.finish.at? place) (other.finish.at? place) := by
  cases place with
  | nil =>
    unfold Container.at? finish
    rw [Source.at?_nil, Source.at?_nil, ← hedited, ← hbase, ← hagrees.edit]
    split
    . exact hagrees.layer_alike hdistinct hotherDistinct _
    . exact .inl rfl
  | cons name rest =>
    rw [h.finish_at?_cons, hother.finish_at?_cons, ← hbase]
    exact hagrees.at?_alike h.wellFormed hother.wellFormed hdistinct hotherDistinct _ _

theorem Valid.set_set_at?_alike {editor : Editor} (h : editor.Valid)
    (hdistinct : editor.edits.Distinct) {place other : Locator}
    (hrelated : ¬ place.isRelatedTo other) (value later : Option Source) (read : Locator) :
    Source.Alike (((editor.set place value).set other later).finish.at? read)
      (((editor.set other later).set place value).finish.at? read) := by
  have hother : ¬ other.isRelatedTo place := by
    rwa [Locator.isRelatedTo_iff, or_comm, ← Locator.isRelatedTo_iff]
  have hplace := accepts_of_not_isRelatedTo hrelated (Edit.write value)
  have hlater := accepts_of_not_isRelatedTo hother (Edit.write later)
  apply finish_at?_alike ((h.set _ _).set _ _) ((h.set _ _).set _ _)
    (set_distinct (set_distinct hdistinct _ _) _ _) (set_distinct (set_distinct hdistinct _ _) _ _)
  . simp only [set_base]
  . rw [set_isEdited hlater, set_isEdited hplace]
  . rw [set_edits hlater, set_edits hplace, set_edits hplace, set_edits hlater]
    exact EditTree.record_record_agrees _ _ hrelated _

theorem finish_set_set_eq_and_alike (base : Option Container) (changes : List Change) :
    let editor := (new base).run changes
    (∀ (place below : Locator) (value earlier : Option Source),
        below.isUnder place → accepts place (Edit.write value) →
        ((editor.set below earlier).set place value).finish = (editor.set place value).finish) ∧
      ∀ (place other : Locator) (value later : Option Source), ¬ place.isRelatedTo other →
        ∀ read, Source.Alike (((editor.set place value).set other later).finish.at? read)
          (((editor.set other later).set place value).finish.at? read) := by
  intro editor
  have hvalid : editor.Valid := (new_valid base).run changes
  refine ⟨?_, ?_⟩
  . intro place below value earlier hunder haccepts
    rw [set_set_of_isUnder editor hunder haccepts]
  . intro place other value later hrelated read
    exact hvalid.set_set_at?_alike (run_distinct base changes) hrelated value later read

-- A deleted place is opened by both edits below it, and an edit of the deleted place is forgotten
-- when a container takes the place of the whole.
theorem finish_set_set_eq_and_alike_reopened :
    let three := some (Source.value (.int 3))
    let whole := Container.ofEntries [("b", three)]
    let editor := (new (some whole)).run [⟨["a"], none⟩]
    Locator.isUnder ["a", "x"] [] ∧ accepts [] (Edit.write (some whole.source)) ∧
      ((editor.set ["a", "x"] none).set [] (some whole.source)).finish
        = (editor.set [] (some whole.source)).finish ∧
      ¬ Locator.isRelatedTo ["a", "x"] ["a", "y"] ∧
      Source.Alike (((editor.set ["a", "x"] three).set ["a", "y"] three).finish.at? ["a"])
        (((editor.set ["a", "y"] three).set ["a", "x"] three).finish.at? ["a"]) := by
  intro three whole editor
  obtain ⟨habsorbs, hcommutes⟩ := finish_set_set_eq_and_alike (some whole) [⟨["a"], none⟩]
  have hrelated : ¬ Locator.isRelatedTo ["a", "x"] ["a", "y"] := by decide
  exact ⟨rfl, rfl, habsorbs [] ["a", "x"] (some whole.source) none rfl rfl, hrelated,
    hcommutes ["a", "x"] ["a", "y"] three three hrelated ["a"]⟩

end Editor

end SceneTree
