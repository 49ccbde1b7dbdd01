import SceneTree.Proofs.Edit.Names

/-!
This module contains what is recorded at the places of an edit tree, and what an edited place holds
by it. A deletion opens the places on its way, so where one of them was emptied or replaced before,
a container appears that nothing wrote.
-/

namespace SceneTree

namespace Locator

def isOnWay (locator top place : Locator) : Bool :=
  locator.isUnder top && place.isUnder locator && locator != place

theorem forall_isOnWay_cons {p : Locator → Prop} (name : Token) (top place : Locator) :
    (∀ locator, isOnWay locator (name :: top) (name :: place) → p locator)
      ↔
    ∀ locator, isOnWay locator top place → p (name :: locator) := by
  constructor
  . intro h locator hway
    apply h
    simpa [isOnWay] using hway
  . intro h locator hway
    cases locator with
    | nil => simp [isOnWay] at hway
    | cons first rest =>
      simp only [isOnWay, cons_isUnder_cons, Bool.and_eq_true, beq_iff_eq, bne_iff_ne] at hway
      obtain ⟨⟨⟨hname, hunder⟩, _, hover⟩, hne⟩ := hway
      subst hname
      apply h
      simpa [isOnWay] using ⟨⟨hunder, hover⟩, fun heq => hne (congrArg _ heq)⟩

theorem exists_isUnder_cons {p : Locator → Prop} (name : Token) (rest : Locator) :
    (∃ locator, isUnder locator (name :: rest) ∧ p locator)
      ↔
    ∃ locator, isUnder locator rest ∧ p (name :: locator) := by
  constructor
  . rintro ⟨locator, hunder, hp⟩
    cases locator with
    | nil => cases hunder
    | cons first inner =>
      simp only [cons_isUnder_cons, Bool.and_eq_true, beq_iff_eq] at hunder
      obtain ⟨hname, hunder⟩ := hunder
      subst hname
      exact ⟨inner, hunder, hp⟩
  . rintro ⟨locator, hunder, hp⟩
    refine ⟨name :: locator, ?_, hp⟩
    simpa using hunder

theorem forall_nil_isUnder {p : Locator → Prop} :
    (∀ locator, isUnder [] locator → p locator) ↔ p [] := by
  constructor
  . intro h
    exact h [] rfl
  . intro h locator hunder
    cases locator with
    | nil => exact h
    | cons first rest => cases hunder

theorem forall_cons_isUnder {p : Locator → Prop} (name : Token) (rest : Locator) :
    (∀ locator, isUnder (name :: rest) locator → p locator)
      ↔
    p [] ∧ ∀ locator, isUnder rest locator → p (name :: locator) := by
  constructor
  . intro h
    refine ⟨h [] rfl, fun locator hunder => h _ ?_⟩
    simpa using hunder
  . rintro ⟨hnil, hcons⟩ locator hunder
    cases locator with
    | nil => exact hnil
    | cons first inner =>
      simp only [cons_isUnder_cons, Bool.and_eq_true, beq_iff_eq] at hunder
      obtain ⟨hname, hunder⟩ := hunder
      subst hname
      exact hcons inner hunder

end Locator

namespace Edit

/--
Whether an edit leaves nothing over which edits below its place can lie.
-/
def isShut : Edit → Bool
  | keep => false
  | replace (.container ..) => false
  | _ => true

theorem isShut_opened (edit : Edit) : edit.opened.isShut = false := by
  rcases edit with _ | (_ | _ | _ | _) | _
  all_goals rfl

theorem isShut_replace {source : Source} (h : source.container? = none) :
    (replace source).isShut := by
  cases source with
  | container names child => cases h
  | _ => rfl

theorem isReplace_opened (edit : Edit) :
    edit.opened.isReplace = (edit.isReplace || edit.isShut) := by
  rcases edit with _ | (_ | _ | _ | _) | _
  all_goals rfl

theorem isReplace_or_isShut_iff (edit : Edit) :
    (edit.isReplace || edit.isShut) ↔ edit ≠ .keep := by
  rcases edit with _ | (_ | _ | _ | _) | _
  all_goals simp [isReplace, isShut]

theorem opened_eq_keep_iff (edit : Edit) : edit.opened = .keep ↔ edit = .keep := by
  rcases edit with _ | (_ | _ | _ | _) | _
  all_goals simp [opened]

def Trims (edit : Edit) : Prop :=
  edit = keep ∨ edit = delete ∨ edit = replace Container.empty

theorem Trims.opened {edit : Edit} (h : edit.Trims) : edit.opened.Trims := by
  rcases h with h | h | h
  all_goals
    subst h
    simp [Trims, Edit.opened, Container.source]

theorem Trims.container?_child {edit : Edit} (h : edit.Trims) (hkeep : edit ≠ keep)
    (below : Option Source) (name : Token) :
    ((edit.container? below).bind fun c => c.child name) = none := by
  rcases h with h | h | h
  . exact absurd h hkeep
  . subst h
    rfl
  . subst h
    rfl

end Edit

namespace EditTree

def editAt : EditTree → Locator → Edit
  | tree, [] => tree.edit
  | tree, name :: rest =>
    match Dict.get? tree.children name with
    | some child => child.editAt rest
    | none => .keep

theorem editAt_nil (tree : EditTree) : tree.editAt [] = tree.edit := by
  unfold editAt
  rfl

theorem blank_editAt (place : Locator) : blank.editAt place = .keep := by
  cases place with
  | nil => exact editAt_nil blank
  | cons name rest =>
    unfold editAt
    rfl

theorem editAt_cons (tree : EditTree) (name : Token) (rest : Locator) :
    tree.editAt (name :: rest)
      =
    ((Dict.get? tree.children name).getD blank).editAt rest := by
  conv_lhs => unfold editAt
  cases Dict.get? tree.children name with
  | none => exact (blank_editAt rest).symm
  | some child => rfl

theorem record_editAt (value : Edit) (place other : Locator) (tree : EditTree) :
    (tree.record value place).editAt other
      =
    if other = place then value
    else if other.isUnder place then .keep
    else if place.isUnder other then (tree.editAt other).opened
    else tree.editAt other := by
  induction place generalizing tree other with
  | nil =>
    obtain ⟨edit, children⟩ := tree
    cases other with
    | nil => rfl
    | cons first rest =>
      rw [editAt_cons]
      exact blank_editAt rest
  | cons name place ih =>
    obtain ⟨edit, children⟩ := tree
    cases other with
    | nil => rfl
    | cons first rest =>
      simp only [editAt_cons, record, EditTree.children, Dict.get?_modify, List.cons.injEq,
        Locator.cons_isUnder_cons]
      by_cases hname : name = first
      . subst hname
        simp [ih]
      . simp [hname, Ne.symm hname]

theorem isShut_record_editAt (value : Edit) (place other : Locator) (tree : EditTree) :
    ((tree.record value place).editAt other).isShut
      =
    if other.isRelatedTo place then place == other && value.isShut
    else (tree.editAt other).isShut := by
  rw [record_editAt]
  unfold Locator.isRelatedTo
  by_cases heq : other = place
  . simp [heq, Locator.isUnder_refl]
  . rw [if_neg heq]
    by_cases hunder : other.isUnder place
    . simp [hunder, Ne.symm heq, Edit.isShut]
    . rw [if_neg hunder]
      by_cases hover : place.isUnder other
      . simp [hover, Ne.symm heq, Edit.isShut_opened]
      . simp [hunder, hover]

theorem creates_node (edit : Edit) (children : List (Token × EditTree)) :
    (node edit children).creates = (edit.isReplace || anyReplaces children) := by
  unfold creates replacesBelow
  rfl

theorem Distinct.creates_iff {tree : EditTree} (h : tree.Distinct) :
    tree.creates ↔ ∃ place, (tree.editAt place).isReplace := by
  induction h with
  | @node edit children names _ ih =>
    have heditAt : ∀ name rest, (EditTree.node edit children).editAt (name :: rest)
        = ((Dict.get? children name).getD blank).editAt rest :=
      editAt_cons (EditTree.node edit children)
    rw [creates_node, anyReplaces_eq_any, Bool.or_eq_true, List.any_eq_true]
    constructor
    . rintro (hreplace | ⟨⟨name, child⟩, hentry, hchild⟩)
      . exact ⟨[], hreplace⟩
      . obtain ⟨place, hplace⟩ := (ih _ hentry).1 hchild
        refine ⟨name :: place, ?_⟩
        rw [heditAt, Dict.get?_eq_some_of_mem names hentry]
        exact hplace
    . rintro ⟨place, hplace⟩
      cases place with
      | nil => exact .inl hplace
      | cons name rest =>
        rw [heditAt] at hplace
        cases hget : Dict.get? children name with
        | none =>
          rw [hget, Option.getD_none, blank_editAt] at hplace
          cases hplace
        | some child =>
          rw [hget] at hplace
          have hentry := Dict.mem_of_get?_eq_some hget
          exact .inr ⟨_, hentry, (ih _ hentry).2 ⟨rest, hplace⟩⟩

theorem WellFormed.children_of_isShut {tree : EditTree} (h : tree.WellFormed)
    (hshut : tree.edit.isShut) : tree.children = [] := by
  cases h with
  | @node edit children opened _ =>
    rcases opened with hopened | hchildren
    . have hopen := edit.isShut_opened
      rw [hopened] at hopen
      exact absurd hshut (by simpa [EditTree.edit] using hopen)
    . exact hchildren

theorem WellFormed.creates_of_delete {tree : EditTree} (h : tree.WellFormed)
    (hedit : tree.edit = .delete) : tree.creates = false := by
  have hchildren := h.children_of_isShut (hedit ▸ rfl)
  obtain ⟨edit, children⟩ := tree
  cases hedit
  cases hchildren
  simp [creates_node, anyReplaces, Edit.isReplace]

theorem WellFormed.apply_isSome_iff {tree : EditTree} (h : tree.WellFormed)
    (below : Option Source) :
    (tree.apply below).isSome ↔ tree.creates ∨ tree.edit = .keep ∧ below.isSome := by
  obtain ⟨edit, children⟩ := tree
  cases edit with
  | keep =>
    rw [creates_node]
    cases hbelow : below.bind Source.container? with
    | some container =>
      obtain ⟨source, hsome, hcontainer⟩ := Option.bind_eq_some_iff.1 hbelow
      rw [hsome, Source.container?_eq_some_iff.1 hcontainer, apply_keep_of_container]
      simp [EditTree.edit]
    | none =>
      rw [apply_keep_of_not_container children hbelow]
      cases anyReplaces children <;> simp [EditTree.edit, Edit.isReplace]
  | replace source =>
    cases children with
    | nil => simp [apply, creates_node, Edit.isReplace]
    | cons first rest => simp [apply, creates_node, Edit.isReplace]
  | delete =>
    rw [h.creates_of_delete rfl]
    simp [apply, EditTree.edit]

theorem WellFormed.apply_eq_leaf_iff {tree : EditTree} (h : tree.WellFormed)
    (below : Option Source) {leaf : Source} (hleaf : leaf.container? = none) :
    tree.apply below = some leaf
      ↔
    tree.edit = .replace leaf ∨ tree.edit = .keep ∧ tree.creates = false ∧ below = some leaf := by
  have hcontainer : ∀ container : Container, container.source ≠ leaf := by
    intro container heq
    subst heq
    cases hleaf
  obtain ⟨edit, children⟩ := tree
  cases edit with
  | keep =>
    rw [creates_node]
    cases hbelow : below.bind Source.container? with
    | some container =>
      obtain ⟨source, hsome, hsource⟩ := Option.bind_eq_some_iff.1 hbelow
      rw [hsome, Source.container?_eq_some_iff.1 hsource, apply_keep_of_container]
      simp [EditTree.edit, hcontainer]
    | none =>
      rw [apply_keep_of_not_container children hbelow]
      cases anyReplaces children <;> simp [EditTree.edit, Edit.isReplace, hcontainer]
  | replace source =>
    cases children with
    | nil => simp [apply, EditTree.edit]
    | cons first rest =>
      have hsource : source ≠ leaf := by
        intro heq
        cases h with
        | node opened _ =>
          subst heq
          cases source with
          | container names child => cases hleaf
          | _ => simp [Edit.opened, Container.source] at opened
      have happly : (EditTree.node (.replace source) (first :: rest)).apply below
          = some (layer (first :: rest) source.container?).source := by
        unfold apply
        rfl
      rw [happly]
      simp [EditTree.edit, hcontainer, hsource]
  | delete =>
    simp [apply, EditTree.edit]

/-! ## Deletions -/

theorem isReplace_record_delete {tree : EditTree} (hkept : tree.creates = false)
    (hdistinct : tree.Distinct) (place other : Locator) :
    ((tree.record .delete place).editAt other).isReplace
      ↔
    other.isOnWay [] place ∧ (tree.editAt other).isShut := by
  unfold Locator.isOnWay
  have hother : (tree.editAt other).isReplace = false := by
    by_contra hreplace
    have hcreates := hdistinct.creates_iff.2 ⟨other, by simpa using hreplace⟩
    simp [hkept] at hcreates
  rw [record_editAt]
  by_cases heq : other = place
  . simp [heq, Edit.isReplace]
  . rw [if_neg heq]
    by_cases hover : other.isUnder place
    . have hunder : ¬ place.isUnder other := fun h => heq (Locator.isUnder_antisymm hover h)
      simp [hover, hunder, Edit.isReplace]
    . rw [if_neg hover]
      by_cases hunder : place.isUnder other
      . simp [hunder, heq, Edit.isReplace_opened, hother]
      . simp [hunder, hother]

-- A leaf above the place of a deletion stays unless the deletion opens a shut place on its way.
theorem record_delete_apply_eq_leaf_iff {tree : EditTree} (hformed : tree.WellFormed)
    (hdistinct : tree.Distinct) {place : Locator} (hplace : place ≠ []) {below : Option Source}
    {leaf : Source} (hleaf : leaf.container? = none) (hread : tree.apply below = some leaf) :
    (tree.record .delete place).apply below = some leaf
      ↔
    ∀ step, step.isOnWay [] place → (tree.editAt step).isShut = false := by
  have hedit : (tree.record .delete place).edit = tree.edit.opened := by
    cases place with
    | nil => exact absurd rfl hplace
    | cons name rest =>
      rw [← editAt_nil, record_editAt, editAt_nil]
      simp
  rw [(record_wellFormed .delete place hformed).apply_eq_leaf_iff below hleaf, hedit]
  rcases (hformed.apply_eq_leaf_iff below hleaf).1 hread with hreplace | ⟨hkeep, hkept, hbelow⟩
  . have hshut : (tree.editAt []).isShut = true := by
      rw [editAt_nil, hreplace]
      cases leaf with
      | container names child => cases hleaf
      | _ => rfl
    constructor
    . rintro (hopened | ⟨hopened, _⟩)
      . have hclash := tree.edit.isShut_opened
        rw [hopened, ← hreplace, ← editAt_nil, hshut] at hclash
        cases hclash
      . rw [Edit.opened_eq_keep_iff, hreplace] at hopened
        cases hopened
    . intro hopen
      have hway : Locator.isOnWay [] [] place := by
        simpa [Locator.isOnWay] using Ne.symm hplace
      rw [hopen [] hway] at hshut
      cases hshut
  . have hcreates := (record_distinct .delete place hdistinct).creates_iff
    simp only [isReplace_record_delete hkept hdistinct] at hcreates
    rw [hkeep, hbelow, ← Bool.not_eq_true, hcreates]
    simp [Edit.opened]

theorem at?_cons_eq {tree : EditTree} (h : tree.WellFormed) (below : Option Source) (name : Token)
    (rest : Locator) :
    tree.at? below (name :: rest)
      =
    let inside := (tree.edit.container? below).bind fun c => c.child name
    match Dict.get? tree.children name with
    | some child => child.at? inside rest
    | none => inside.bind (·.at? rest) := by
  rw [EditTree.at?_cons h, applyChild_eq]
  cases Dict.get? tree.children name <;> rfl

theorem WellFormed.child_at?_eq_leaf {tree : EditTree} (h : tree.WellFormed)
    {below : Option Source} {name : Token} {rest : Locator} {leaf : Source}
    (hleaf : leaf.container? = none) (hread : tree.at? below (name :: rest) = some leaf) :
    ((Dict.get? tree.children name).getD blank).at?
        ((tree.edit.container? below).bind (·.child name)) rest
      =
    some leaf := by
  rw [at?_cons_eq h] at hread
  cases hchild : Dict.get? tree.children name with
  | some child =>
    rw [hchild] at hread
    exact hread
  | none =>
    simp only [hchild] at hread
    rw [Option.getD_none]
    cases rest with
    | cons second rest =>
      rw [blank_at?_cons]
      exact hread
    | nil =>
      obtain ⟨source, hsource, heq⟩ := Option.bind_eq_some_iff.1 hread
      rw [Source.at?_nil, Option.some.injEq] at heq
      subst heq
      rw [EditTree.at?_nil, hsource]
      exact (wellFormed_blank.apply_eq_leaf_iff _ hleaf).2 (.inr ⟨rfl, rfl, rfl⟩)

theorem record_delete_at?_eq_leaf_iff {tree : EditTree} (hformed : tree.WellFormed)
    (hdistinct : tree.Distinct) {place other : Locator} (hunder : place.isUnder other)
    (hne : place ≠ other) {below : Option Source} {leaf : Source}
    (hleaf : leaf.container? = none) (hread : tree.at? below other = some leaf) :
    (tree.record .delete place).at? below other = some leaf
      ↔
    ∀ step, step.isOnWay other place → (tree.editAt step).isShut = false := by
  induction other generalizing tree place below with
  | nil =>
    rw [EditTree.at?_nil] at hread ⊢
    exact record_delete_apply_eq_leaf_iff hformed hdistinct hne hleaf hread
  | cons name other ih =>
    cases place with
    | nil => cases hunder
    | cons first place =>
      simp only [Locator.cons_isUnder_cons, Bool.and_eq_true, beq_iff_eq] at hunder
      obtain ⟨hname, hunder⟩ := hunder
      subst hname
      have hchild : ((Dict.get? tree.children name).getD blank).WellFormed ∧
          ((Dict.get? tree.children name).getD blank).Distinct := by
        cases hget : Dict.get? tree.children name with
        | none => exact ⟨wellFormed_blank, distinct_blank⟩
        | some child => exact ⟨hformed.child hget, hdistinct.child hget⟩
      rw [record_at?_cons .delete name place hformed, if_pos rfl]
      rw [ih hchild.1 hchild.2 hunder (fun heq => hne (congrArg _ heq))
        (hformed.child_at?_eq_leaf hleaf hread)]
      simp only [Locator.forall_isOnWay_cons, editAt_cons]

-- The containers that deletions open are empty, so what shows through is below kept places only.
theorem at?_isSome_iff {tree : EditTree} (hformed : tree.WellFormed) (hdistinct : tree.Distinct)
    (htrims : ∀ place, (tree.editAt place).Trims) (below : Option Source) (place : Locator) :
    (tree.at? below place).isSome
      ↔
    (∃ inner, inner.isUnder place ∧ (tree.editAt inner).isReplace) ∨
      (∀ above, place.isUnder above → tree.editAt above = .keep) ∧
        (below.bind (·.at? place)).isSome := by
  induction place generalizing tree below with
  | nil =>
    rw [EditTree.at?_nil, hformed.apply_isSome_iff, hdistinct.creates_iff,
      Locator.forall_nil_isUnder, editAt_nil]
    simp
  | cons name rest ih =>
    rw [Locator.exists_isUnder_cons, Locator.forall_cons_isUnder, editAt_nil, at?_cons_eq hformed]
    simp only [editAt_cons]
    have hinside : (((tree.edit.container? below).bind fun c => c.child name).bind
          (·.at? rest)).isSome
        ↔ tree.edit = .keep ∧ (below.bind (·.at? (name :: rest))).isSome := by
      by_cases hkeep : tree.edit = .keep
      . simp [hkeep, Edit.container?, Source.at?_cons, Option.bind_assoc]
      . have htop := htrims []
        rw [editAt_nil] at htop
        rw [htop.container?_child hkeep]
        simp [hkeep]
    cases hget : Dict.get? tree.children name with
    | some child =>
      have hchild : ∀ place, (child.editAt place).Trims := by
        intro place
        have hplace := htrims (name :: place)
        rw [editAt_cons, hget] at hplace
        exact hplace
      dsimp only [Option.getD_some]
      rw [ih (hformed.child hget) (hdistinct.child hget) hchild, hinside]
      exact or_congr Iff.rfl (and_left_comm.trans and_assoc.symm)
    | none =>
      dsimp only [Option.getD_none]
      rw [hinside]
      simp [blank_editAt, Edit.isReplace]

end EditTree

end SceneTree
