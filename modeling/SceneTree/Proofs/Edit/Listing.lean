import SceneTree.Proofs.Edit.Subtree
import SceneTree.Schema

/-!
This module contains the order of the names of an edited container: those that were listed before
keep their order, and those that the edits add follow in the order of the edits.
-/

namespace SceneTree

namespace EditTree

theorem eraseDups_concat (names : List Token) (name : Token) :
    (names ++ [name]).eraseDups
      =
    if name ∈ names.eraseDups then names.eraseDups else names.eraseDups ++ [name] := by
  rw [List.eraseDups_append]
  simp only [List.mem_eraseDups, List.removeAll, List.filter_cons, List.filter_nil]
  by_cases hname : name ∈ names
  . simp [hname]
  . simp [hname, List.eraseDups_cons]

theorem step_eq_append (names : List Token) (key : Token) (tree : EditTree) :
    editedNames.step names (key, tree)
      =
    (names.filter fun name => decide (name ≠ key) || tree.lists true) ++
      if key ∉ names ∧ tree.lists false then [key] else [] := by
  rw [step_eq]
  by_cases hmem : key ∈ names
  . cases hlists : tree.lists true with
    | true => simp [hmem, hlists, List.filter_eq_self.2]
    | false => simp [hmem, hlists]
  . have hkept : (names.filter fun name => decide (name ≠ key) || tree.lists true) = names := by
      rw [List.filter_eq_self]
      intro name hname
      have hne : name ≠ key := fun heq => hmem (heq ▸ hname)
      simp [hne]
    rw [hkept]
    cases hlists : tree.lists false with
    | true => simp [hmem, hlists]
    | false => simpa [hmem, hlists] using filter_ne_eq_self hmem

theorem foldl_step_eq {children : Dict Token EditTree} (h : (Dict.keys children).Nodup)
    (names : List Token) :
    children.foldl editedNames.step names
      =
    (names.filter fun name => (Dict.get? children name).all (·.lists true)) ++
      (Dict.keys children).filter fun name =>
        decide (name ∉ names) && (Dict.get? children name).any (·.lists false) := by
  induction children generalizing names with
  | nil => simp [Dict.keys, List.filter_eq_self.2]
  | cons entry rest ih =>
    obtain ⟨key, tree⟩ := entry
    have hkeys : Dict.keys ((key, tree) :: rest) = key :: Dict.keys rest := rfl
    rw [hkeys, List.nodup_cons] at h
    have hrest : Dict.get? rest key = none := Dict.get?_eq_none_of_not_mem h.1
    have hkept : (fun name => (Dict.get? ((key, tree) :: rest) name).all (·.lists true))
        = fun name => (Dict.get? rest name).all (·.lists true) &&
          (decide (name ≠ key) || tree.lists true) := by
      funext name
      by_cases heq : key = name
      . simp [Dict.get?_cons, ← heq, hrest]
      . simp [Dict.get?_cons, heq, Ne.symm heq]
    -- No later edit is one of this name, so the later ones find the other names as they were.
    have hadded : ((Dict.keys rest).filter fun name =>
          decide (name ∉ editedNames.step names (key, tree)) &&
            (Dict.get? rest name).any (·.lists false))
        = (Dict.keys rest).filter fun name =>
          decide (name ∉ names) &&
            (Dict.get? ((key, tree) :: rest) name).any (·.lists false) := by
      apply List.filter_congr
      intro name hname
      have hne : key ≠ name := fun heq => h.1 (heq ▸ hname)
      have hmem := mem_step names key name tree
      rw [if_neg hne, decide_eq_decide] at hmem
      simp [Dict.get?_cons, hne, hmem]
    rw [List.foldl_cons, ih h.2, hadded, step_eq_append, List.filter_append, List.filter_filter,
      ← hkept, hkeys, List.filter_cons, List.append_assoc]
    congr 1
    by_cases hnew : key ∉ names ∧ tree.lists false
    . simp [hnew, hrest, Dict.get?_cons]
    . have hnot : (decide (key ∉ names) &&
          (Dict.get? ((key, tree) :: rest) key).any (·.lists false)) = false := by
        simpa [Dict.get?_cons] using hnew
      rw [if_neg hnew, hnot]
      rfl

theorem editedNames_eq {children : Dict Token EditTree} (h : (Dict.keys children).Nodup)
    (names : List Token) :
    editedNames children names
      =
    (names.eraseDups.filter fun name => (Dict.get? children name).all (·.lists true)) ++
      (Dict.keys children).filter fun name =>
        decide (name ∉ names) && (Dict.get? children name).any (·.lists false) := by
  unfold editedNames
  rw [foldl_step_eq h]
  simp only [List.mem_eraseDups]

theorem WellFormed.lists_of_creates {tree : EditTree} (h : tree.WellFormed)
    (hcreates : tree.creates) (before : Bool) : tree.lists before = true := by
  obtain ⟨edit, children⟩ := tree
  unfold lists
  rw [hcreates, Bool.true_or]
  cases edit with
  | delete =>
    rw [h.creates_of_delete rfl] at hcreates
    cases hcreates
  | _ => rfl

theorem WellFormed.lists_false {tree : EditTree} (h : tree.WellFormed) :
    tree.lists false = tree.creates := by
  cases hcreates : tree.creates with
  | true => exact h.lists_of_creates hcreates false
  | false =>
    unfold lists
    rw [hcreates]
    cases tree.edit <;> rfl

theorem WellFormed.lists_eq {tree : EditTree} (h : tree.WellFormed) (before : Bool) :
    tree.lists before = (tree.lists false || (tree.lists true && before)) := by
  cases before with
  | false => rw [Bool.and_false, Bool.or_false]
  | true =>
    rw [Bool.and_true, h.lists_false]
    cases hcreates : tree.creates with
    | true => exact h.lists_of_creates hcreates true
    | false => rfl

def recordedNames (tree : EditTree) (place : Locator) : List Token :=
  (tree.inner? place).elim [] fun inner => Dict.keys inner.children

theorem record_recordedNames (value : Edit) (place : Locator) (name : Token) (rest : Locator)
    (tree : EditTree) :
    (tree.record value (place ++ name :: rest)).recordedNames place
      =
    if name ∈ tree.recordedNames place then tree.recordedNames place
    else tree.recordedNames place ++ [name] := by
  unfold recordedNames
  rw [record_inner?_append, record_cons]
  cases tree.inner? place with
  | some inner => exact Dict.keys_insert _ _ _
  | none => rfl

theorem record_recordedNames_of_not_isRelatedTo (value : Edit) {place other : Locator}
    (tree : EditTree) (h : ¬ other.isRelatedTo place) :
    (tree.record value place).recordedNames other = tree.recordedNames other := by
  unfold recordedNames
  rw [record_inner?_of_not_isRelatedTo value tree h]

-- What was kept above a place is as it was, so the edits at the place lie over what was there.
theorem WellFormed.at?_eq_apply {tree : EditTree} (h : tree.WellFormed) {place : Locator}
    (hkeep : ∀ step, place.isUnder step → step ≠ place → tree.editAt step = .keep)
    (below : Option Source) :
    tree.at? below place
      =
    match tree.inner? place with
    | some inner => inner.apply (below.bind (·.at? place))
    | none => below.bind (·.at? place) := by
  induction place generalizing tree below with
  | nil =>
    rw [inner?_nil, at?_nil]
    cases below <;> simp
  | cons name rest ih =>
    have htop : tree.edit = .keep := by
      rw [← editAt_nil]
      exact hkeep [] rfl (by simp)
    have hbelow : ((tree.edit.container? below).bind (·.child name)).bind (·.at? rest)
        = below.bind (·.at? (name :: rest)) := by
      rw [htop]
      simp only [Edit.container?, Source.at?_cons, Option.bind_assoc]
    rw [at?_cons_eq h, inner?_cons]
    dsimp only
    cases hget : Dict.get? tree.children name with
    | none => exact hbelow
    | some child =>
      dsimp only
      rw [Option.bind_some, ← hbelow]
      apply ih (h.child hget)
      intro step hstep hne
      have hchild := hkeep (name :: step) (by simpa using hstep) (by simpa using hne)
      rwa [editAt_cons, hget] at hchild

theorem apply_keep_names {children : List (Token × EditTree)} (h : (Dict.keys children).Nodup)
    (hformed : (EditTree.node .keep children).WellFormed) (below : Option Source) :
    Schema.namesOf (((EditTree.node .keep children).apply below).bind Source.container?)
      =
    editedNames children (Schema.namesOf (below.bind Source.container?)) := by
  cases hbelow : below.bind Source.container? with
  | some container =>
    obtain ⟨source, hsome, hcontainer⟩ := Option.bind_eq_some_iff.1 hbelow
    rw [hsome, Source.container?_eq_some_iff.1 hcontainer, apply_keep_of_container]
    rfl
  | none =>
    rw [apply_keep_of_not_container children hbelow]
    split
    . rfl
    . next hreplaces =>
      -- Nothing is created below, so the edits add no name.
      have hnone : Schema.namesOf none = [] := rfl
      rw [hbelow, hnone, editedNames_eq h, eq_comm, List.append_eq_nil_iff]
      refine ⟨rfl, List.filter_eq_nil_iff.2 ?_⟩
      intro name _ hlisted
      rw [Bool.and_eq_true, Option.any_eq_true] at hlisted
      obtain ⟨child, hchild, hlists⟩ := hlisted.2
      rw [(hformed.child hchild).lists_false] at hlists
      rw [anyReplaces_eq_any, List.any_eq_true] at hreplaces
      exact hreplaces ⟨_, Dict.mem_of_get?_eq_some hchild, hlists⟩

theorem inner?_all_lists_iff (tree : EditTree) (place : Locator) :
    (tree.inner? place).all (·.lists true) ↔ tree.editAt place ≠ .delete := by
  rw [← getD_edit?]
  unfold edit?
  cases tree.inner? place with
  | none => simp
  | some inner =>
    rw [Option.all_some, Option.map_some, Option.getD_some]
    unfold lists
    cases inner.edit <;> simp

theorem inner?_any_lists_iff {tree : EditTree} (h : tree.WellFormed) (hdistinct : tree.Distinct)
    (place : Locator) : (tree.inner? place).any (·.lists false) ↔ tree.createsAt place := by
  unfold createsAt
  cases hinner : tree.inner? place with
  | none =>
    have hkeep : ∀ rest, tree.editAt (place ++ rest) = .keep := by
      intro rest
      rw [← getD_edit?]
      unfold edit?
      rw [inner?_append, hinner]
      rfl
    simp [hkeep, Edit.isReplace]
  | some inner =>
    rw [Option.any_some, (h.inner hinner).lists_false, (hdistinct.inner hinner).creates_iff]
    simp only [inner?_editAt hinner]

theorem WellFormed.not_createsAt_of_delete {tree : EditTree} (h : tree.WellFormed)
    (hdistinct : tree.Distinct) {place : Locator} (hdelete : tree.editAt place = .delete) :
    ¬ tree.createsAt place := by
  rw [← inner?_any_lists_iff h hdistinct, Option.any_eq_true]
  rintro ⟨inner, hinner, hlists⟩
  have hedit := inner?_editAt hinner []
  rw [List.append_nil, hdelete, editAt_nil] at hedit
  unfold lists at hlists
  rw [← hedit] at hlists
  cases hlists

theorem inner?_singleton (tree : EditTree) (name : Token) :
    tree.inner? [name] = Dict.get? tree.children name := by
  rw [inner?_cons]
  simp only [inner?_nil, Option.bind_fun_some]

theorem WellFormed.names_at?_eq_editedNames {tree : EditTree} (h : tree.WellFormed)
    (hdistinct : tree.Distinct) {place : Locator}
    (hkeep : ∀ step, place.isUnder step → tree.editAt step = .keep) {below : Option Source}
    {names : List Token}
    (hnames : Schema.namesOf ((below.bind (·.at? place)).bind Source.container?) = names) :
    Schema.namesOf ((tree.at? below place).bind Source.container?)
      =
    match tree.inner? place with
    | some inner => editedNames inner.children names
    | none => names := by
  rw [h.at?_eq_apply (fun step hstep _ => hkeep step hstep)]
  cases hinner : tree.inner? place with
  | none => exact hnames
  | some inner =>
    have hedit : inner.edit = .keep := by
      have hplace := inner?_editAt hinner []
      rw [List.append_nil, hkeep place (Locator.isUnder_refl place), editAt_nil] at hplace
      exact hplace.symm
    have hformed := h.inner hinner
    have hchildren := (hdistinct.inner hinner).names
    obtain ⟨edit, children⟩ := inner
    cases hedit
    rw [← hnames]
    exact apply_keep_names hchildren hformed _

theorem WellFormed.names_at? {tree : EditTree} (h : tree.WellFormed) (hdistinct : tree.Distinct)
    {place : Locator} (hkeep : ∀ step, place.isUnder step → tree.editAt step = .keep)
    {below : Option Source} {names : List Token}
    (hnames : Schema.namesOf ((below.bind (·.at? place)).bind Source.container?) = names)
    (hnodup : names.Nodup) :
    Schema.namesOf ((tree.at? below place).bind Source.container?)
      =
    (names.filter fun name => (tree.inner? (place ++ [name])).all (·.lists true)) ++
      (tree.recordedNames place).filter fun name =>
        decide (name ∉ names) && (tree.inner? (place ++ [name])).any (·.lists false) := by
  rw [h.names_at?_eq_editedNames hdistinct hkeep hnames]
  unfold recordedNames
  simp only [inner?_append]
  cases hinner : tree.inner? place with
  | none => simp [List.filter_eq_self.2]
  | some inner =>
    dsimp only
    rw [editedNames_eq (hdistinct.inner hinner).names, eraseDups_of_nodup hnodup]
    simp only [Option.bind_some, inner?_singleton]
    rfl

-- Which names are listed does not depend on whether a name was listed twice before.
theorem WellFormed.mem_names_at?_iff {tree : EditTree} (h : tree.WellFormed)
    (hdistinct : tree.Distinct) {place : Locator}
    (hkeep : ∀ step, place.isUnder step → tree.editAt step = .keep) {below : Option Source}
    {names : List Token}
    (hnames : Schema.namesOf ((below.bind (·.at? place)).bind Source.container?) = names)
    (name : Token) :
    name ∈ Schema.namesOf ((tree.at? below place).bind Source.container?)
      ↔
    tree.createsAt (place ++ [name]) ∨
      tree.editAt (place ++ [name]) ≠ .delete ∧ name ∈ names := by
  rw [h.names_at?_eq_editedNames hdistinct hkeep hnames, ← inner?_any_lists_iff h hdistinct,
    ← inner?_all_lists_iff, inner?_append]
  cases hinner : tree.inner? place with
  | none => simp
  | some inner =>
    have hmem := mem_editedNames (hdistinct.inner hinner).names names name
    rw [Option.bind_some, inner?_singleton]
    cases hget : Dict.get? inner.children name with
    | none => simpa [hget] using hmem
    | some child =>
      rw [hget] at hmem
      dsimp only at hmem
      rw [((h.inner hinner).child hget).lists_eq, Bool.eq_iff_iff] at hmem
      simpa using hmem

theorem WellFormed.at?_isSome_iff_createsAt {tree : EditTree} (h : tree.WellFormed)
    (hdistinct : tree.Distinct) {place : Locator}
    (hkeep : ∀ step, place.isUnder step → step ≠ place → tree.editAt step = .keep)
    (below : Option Source) :
    (tree.at? below place).isSome
      ↔
    tree.createsAt place ∨ tree.editAt place = .keep ∧ (below.bind (·.at? place)).isSome := by
  rw [h.at?_eq_apply hkeep, ← inner?_any_lists_iff h hdistinct, ← getD_edit?]
  unfold edit?
  cases hinner : tree.inner? place with
  | none => simp
  | some inner =>
    have hformed := h.inner hinner
    dsimp only
    rw [hformed.apply_isSome_iff, Option.any_some, hformed.lists_false]
    rfl

end EditTree

end SceneTree
