import SceneTree.Proofs.Edit.Recorded

/-!
This module contains the agreement of the names of containers with their children: a container is
faithful if it lists every child, nothing else, and nothing twice. Edits keep this at every depth,
deletions included, although an edited container finds its names and its children separately.
-/

namespace SceneTree

structure Container.ListsChildren (c : Container) : Prop where
  nodup : c.names.Nodup
  mem_iff : ∀ name, name ∈ c.names ↔ (c.child name).isSome

namespace Source

inductive Holds : Source → Source → Prop where
  | whole (source : Source) : Holds source source
  | child {names : List Token} {child : Token → Option Source} {name : Token}
      {inner source : Source} (hchild : child name = some inner) (h : Holds inner source) :
      Holds (container names child) source
  | element {elements : List Source} {inner source : Source} (helement : inner ∈ elements)
      (h : Holds inner source) : Holds (vector elements) source

def Faithful (source : Source) : Prop :=
  ∀ c : Container, source.Holds c.source → c.ListsChildren

theorem faithful_container_iff (c : Container) :
    c.source.Faithful
      ↔
    c.ListsChildren ∧ ∀ name inner, c.child name = some inner → inner.Faithful := by
  constructor
  . intro h
    exact ⟨h c (.whole _), fun name inner hchild other hother => h other (.child hchild hother)⟩
  . rintro ⟨hlists, hinner⟩ other hother
    generalize hsource : other.source = source at hother
    cases hother with
    | whole =>
      have heq : some other = some c := container?_eq_some_iff.2 hsource
      cases heq
      exact hlists
    | child hchild hother =>
      subst hsource
      exact hinner _ _ hchild other hother

theorem faithful_sampled (s : Sampled) : (sampled s).Faithful := by
  intro c hc
  cases hc

theorem faithful_block : block.Faithful := by
  intro c hc
  cases hc

theorem faithful_vector {elements : List Source} (h : ∀ element ∈ elements, element.Faithful) :
    (vector elements).Faithful := by
  intro c hc
  cases hc with
  | element helement hc => exact h _ helement c hc

-- Names without a child are left out, and a repeated one is listed once.
theorem faithful_ofEntries {entries : List (Token × Option Source)}
    (h : ∀ entry ∈ entries, ∀ source, entry.2 = some source → source.Faithful) :
    (ofEntries entries).Faithful := by
  unfold ofEntries
  rw [faithful_container_iff]
  refine ⟨⟨Dict.nodup_keys_ofList _, fun name => (Dict.contains_iff _ name).symm⟩, ?_⟩
  intro name inner hinner
  have hmem := Dict.mem_of_mem_ofList (Dict.mem_of_get?_eq_some hinner)
  obtain ⟨entry, hentry, hsome⟩ := List.mem_filterMap.1 hmem
  obtain ⟨source, hsource, heq⟩ := Option.map_eq_some_iff.1 hsome
  cases heq
  exact h entry hentry inner hsource

theorem Faithful.at? {source inner : Source} (h : source.Faithful) {place : Locator}
    (hinner : source.at? place = some inner) : inner.Faithful := by
  induction place generalizing source with
  | nil =>
    rw [at?_nil] at hinner
    cases hinner
    exact h
  | cons name rest ih =>
    rw [at?_cons] at hinner
    obtain ⟨c, hc, hinner⟩ := Option.bind_eq_some_iff.1 hinner
    obtain ⟨child, hchild, hinner⟩ := Option.bind_eq_some_iff.1 hinner
    rw [container?_eq_some_iff.1 hc, faithful_container_iff] at h
    exact ih (h.2 name child hchild) hinner

theorem Faithful.container? {source : Source} (h : source.Faithful) {c : Container}
    (hcontainer : source.container? = some c) : c.source.Faithful := by
  rwa [← container?_eq_some_iff.1 hcontainer]

end Source

namespace EditTree

def Faithful (tree : EditTree) : Prop :=
  ∀ place source, tree.editAt place = .replace source → source.Faithful

theorem faithful_blank : blank.Faithful := by
  intro place source hedit
  rw [blank_editAt] at hedit
  cases hedit

theorem faithful_empty : Container.empty.source.Faithful := by
  change (Source.ofEntries []).Faithful
  apply Source.faithful_ofEntries
  simp

theorem Faithful.record {tree : EditTree} (h : tree.Faithful) {value : Edit}
    (hvalue : ∀ source, value = .replace source → source.Faithful) (place : Locator) :
    (tree.record value place).Faithful := by
  intro other source hedit
  rw [record_editAt] at hedit
  split at hedit
  . exact hvalue source hedit
  . split at hedit
    . cases hedit
    . split at hedit
      . -- What is opened on the way stays, or becomes an empty container.
        cases hother : tree.editAt other with
        | keep =>
          rw [hother] at hedit
          cases hedit
        | replace earlier =>
          rw [hother] at hedit
          cases earlier with
          | container names child =>
            cases hedit
            exact h other _ hother
          | _ =>
            cases hedit
            exact faithful_empty
        | delete =>
          rw [hother] at hedit
          cases hedit
          exact faithful_empty
      . exact h other source hedit

theorem Faithful.child {tree child : EditTree} (h : tree.Faithful) {name : Token}
    (hchild : Dict.get? tree.children name = some child) : child.Faithful := by
  intro place source hedit
  apply h (name :: place) source
  rw [editAt_cons, hchild]
  exact hedit

theorem Faithful.container? {tree : EditTree} (h : tree.Faithful) {below : Option Source}
    (hbelow : ∀ source ∈ below, source.Faithful) :
    ∀ c ∈ tree.edit.container? below, c.source.Faithful := by
  intro c hc
  cases hedit : tree.edit with
  | keep =>
    rw [hedit] at hc
    obtain ⟨source, hsource, hcontainer⟩ := Option.bind_eq_some_iff.1 hc
    exact (hbelow source hsource).container? hcontainer
  | replace source =>
    rw [hedit] at hc
    rw [← editAt_nil] at hedit
    exact (h [] source hedit).container? hc
  | delete =>
    rw [hedit] at hc
    cases hc

-- Whether a name is listed follows from whether it was, as the child does from what was there.
theorem WellFormed.lists_isSome {tree : EditTree} (h : tree.WellFormed) (below : Option Source) :
    tree.lists below.isSome = (tree.apply below).isSome := by
  rw [Bool.eq_iff_iff, h.apply_isSome_iff]
  unfold lists
  cases hedit : tree.edit with
  | keep => simp
  | replace source => simp [creates, hedit, Edit.isReplace]
  | delete => simp [h.creates_of_delete hedit]

section Layer

variable {children : Dict Token EditTree} (hnames : (Dict.keys children).Nodup)
variable (hformed : ∀ entry ∈ children, entry.2.WellFormed)
variable {base : Option Container} (hbase : ∀ c ∈ base, c.source.Faithful)
include hnames hformed hbase

theorem layer_listsChildren : (layer children base).ListsChildren where
  nodup := editedNames_nodup _ _
  mem_iff := by
    intro name
    have hbelow : decide (name ∈ base.elim [] (·.names)) = (base.bind (·.child name)).isSome := by
      cases base with
      | none => rfl
      | some c =>
        rw [Bool.eq_iff_iff, decide_eq_true_iff]
        exact ((Source.faithful_container_iff c).1 (hbase c rfl)).1.mem_iff name
    have hmem := mem_editedNames hnames (base.elim [] (·.names)) name
    rw [← decide_eq_true_iff (p := name ∈ _), layer_child]
    unfold layer
    dsimp only
    rw [hmem, hbelow]
    cases hget : Dict.get? children name with
    | none => rfl
    | some tree =>
      dsimp only
      rw [(hformed _ (Dict.mem_of_get?_eq_some hget)).lists_isSome]

theorem layer_faithful
    (happly : ∀ entry ∈ children, ∀ below : Option Source, (∀ source ∈ below, source.Faithful) →
      ∀ source ∈ entry.2.apply below, source.Faithful) :
    (layer children base).source.Faithful := by
  rw [Source.faithful_container_iff]
  refine ⟨layer_listsChildren hnames hformed hbase, ?_⟩
  intro name inner hinner
  have hbelow : ∀ source ∈ base.bind (·.child name), source.Faithful := by
    intro source hsource
    obtain ⟨c, hc, hchild⟩ := Option.bind_eq_some_iff.1 hsource
    exact ((Source.faithful_container_iff c).1 (hbase c hc)).2 name source hchild
  rw [layer_child] at hinner
  cases hget : Dict.get? children name with
  | none =>
    rw [hget] at hinner
    exact hbelow inner hinner
  | some tree =>
    rw [hget] at hinner
    exact happly _ (Dict.mem_of_get?_eq_some hget) _ hbelow inner hinner

end Layer

-- The induction is on the tree: what is put in a place is faithful, and so is the container below
-- the edits inside it.
theorem Faithful.apply {tree : EditTree} (h : tree.Faithful) (hdistinct : tree.Distinct)
    (hformed : tree.WellFormed) {below : Option Source}
    (hbelow : ∀ source ∈ below, source.Faithful) :
    ∀ source ∈ tree.apply below, source.Faithful := by
  induction hdistinct generalizing below with
  | @node edit children names _ ih =>
    have hlayer : ∀ base : Option Container, (∀ c ∈ base, c.source.Faithful) →
        (layer children base).source.Faithful := by
      intro base hbase
      have hchildren : ∀ entry ∈ children, entry.2.WellFormed ∧ entry.2.Faithful := by
        rintro ⟨name, child⟩ hentry
        have hget := Dict.get?_eq_some_of_mem names hentry
        exact ⟨hformed.child hget, h.child hget⟩
      apply layer_faithful names (fun entry hentry => (hchildren entry hentry).1) hbase
      intro entry hentry below hbelow
      exact ih entry hentry (hchildren entry hentry).2 (hchildren entry hentry).1 hbelow
    have hbase := h.container? hbelow
    intro source hsource
    cases edit with
    | keep =>
      cases hcontainer : below.bind Source.container? with
      | some c =>
        obtain ⟨inner, hinner, heq⟩ := Option.bind_eq_some_iff.1 hcontainer
        rw [hinner, Source.container?_eq_some_iff.1 heq, apply_keep_of_container] at hsource
        cases hsource
        exact hlayer (some c) fun other hother => by
          cases hother
          exact hbase c hcontainer
      | none =>
        rw [apply_keep_of_not_container children hcontainer] at hsource
        split at hsource
        . cases hsource
          exact hlayer none (by simp)
        . exact hbelow source hsource
    | replace value =>
      cases children with
      | nil =>
        cases hsource
        exact h [] source rfl
      | cons first rest =>
        cases hsource
        exact hlayer value.container? hbase
    | delete => cases hsource

theorem Faithful.layer {tree : EditTree} (h : tree.Faithful) (hdistinct : tree.Distinct)
    (hformed : tree.WellFormed) {base : Option Container} (hbase : ∀ c ∈ base, c.source.Faithful) :
    (layer tree.children base).source.Faithful := by
  apply layer_faithful hdistinct.names _ hbase
  . rintro ⟨name, child⟩ hentry below hbelow
    have hget := Dict.get?_eq_some_of_mem hdistinct.names hentry
    exact (h.child hget).apply (hdistinct.child hget) (hformed.child hget) hbelow
  . rintro ⟨name, child⟩ hentry
    exact hformed.child (Dict.get?_eq_some_of_mem hdistinct.names hentry)

end EditTree

namespace Editor

theorem set_edits_faithful {editor : Editor} (h : editor.edits.Faithful) (place : Locator)
    {value : Option Source} (hvalue : ∀ source ∈ value, source.Faithful) :
    (editor.set place value).edits.Faithful := by
  by_cases haccepts : accepts place (Edit.write value)
  . rw [set_edits haccepts]
    apply h.record
    intro source hwrite
    rcases value with _ | ⟨_, _⟩ | _ | _ | _
    case none => cases hwrite
    case some.block => cases hwrite
    all_goals
      cases hwrite
      exact hvalue _ rfl
  . rw [set_of_not_accepts haccepts]
    exact h

theorem run_edits_faithful (base : Option Container) {changes : List Change}
    (h : ∀ change ∈ changes, ∀ source ∈ change.source, source.Faithful) :
    ((new base).run changes).edits.Faithful := by
  induction changes using List.reverseRecOn with
  | nil => exact EditTree.faithful_blank
  | append_singleton changes change ih =>
    simp only [List.forall_mem_append, List.forall_mem_singleton] at h
    rw [run_concat]
    exact set_edits_faithful (ih h.1) change.place h.2

theorem finish_run_faithful (base : Option Container) (changes : List Change)
    (hbase : ∀ c ∈ base, c.source.Faithful)
    (hchanges : ∀ change ∈ changes, ∀ source ∈ change.source, source.Faithful) :
    ((new base).run changes).finish.source.Faithful := by
  have hvalid := (new_valid base).run changes
  have hdistinct := run_distinct base changes
  have hedits := run_edits_faithful base hchanges
  have hbelow : ∀ source ∈ base.map Container.source, source.Faithful := by
    intro source hsource
    obtain ⟨c, hc, heq⟩ := Option.map_eq_some_iff.1 hsource
    exact heq ▸ hbase c hc
  cases hedited : ((new base).run changes).isEdited with
  | true =>
    rw [hvalid.finish_of_isEdited hedited, run_base]
    exact hedits.layer hdistinct hvalid.wellFormed (hedits.container? hbelow)
  | false =>
    unfold finish
    rw [hedited, run_base]
    cases base with
    | none => exact EditTree.faithful_empty
    | some c => exact hbase c rfl

-- A deleted place is opened by a deletion below it, which leaves a container without children. A
-- leaf that is kept and a place that was missing are left alone.
theorem finish_run_faithful_reopened :
    let leaf := some (Source.value (.int 3))
    let base := Container.ofEntries [("a", some (.ofEntries [("x", leaf)])), ("b", leaf)]
    let changes : List Change := [
      ⟨["a"], none⟩,
      ⟨["a", "y"], some .block⟩,
      ⟨["b", "z"], none⟩,
      ⟨["c", "d"], none⟩,
      ⟨["e"], some (.vector [.ofEntries [("w", leaf), ("v", none)]])⟩]
    let edited := ((new (some base)).run changes).finish
    (∀ c ∈ some base, c.source.Faithful) ∧
      (∀ change ∈ changes, ∀ source ∈ change.source, source.Faithful) ∧
      edited.source.Faithful ∧ edited.names = ["a", "b", "e"] ∧
      (edited.container? "a").map Container.names = some [] := by
  intro leaf base changes edited
  have hleaf : (Source.value (.int 3)).Faithful := Source.faithful_sampled _
  have hbase : ∀ c ∈ some base, c.source.Faithful := by
    rintro c ⟨⟩
    apply Source.faithful_ofEntries
    have hinner : (Source.ofEntries [("x", leaf)]).Faithful := by
      apply Source.faithful_ofEntries
      simpa [leaf] using hleaf
    simpa [leaf] using ⟨hinner, hleaf⟩
  have hchanges : ∀ change ∈ changes, ∀ source ∈ change.source, source.Faithful := by
    have helement : (Source.ofEntries [("w", leaf), ("v", none)]).Faithful := by
      apply Source.faithful_ofEntries
      simpa [leaf] using hleaf
    have hvector : (Source.vector [.ofEntries [("w", leaf), ("v", none)]]).Faithful := by
      apply Source.faithful_vector
      simpa using helement
    simpa [changes] using ⟨Source.faithful_block, hvector⟩
  exact ⟨hbase, hchanges, finish_run_faithful (some base) changes hbase hchanges, rfl, rfl⟩

end Editor

end SceneTree
