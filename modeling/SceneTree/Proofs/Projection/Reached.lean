import SceneTree.Proofs.Projection.Tree

/-!
This module contains which nodes a mapping tree has, in which order a node has its names, and why a
mapping is left out. Only a mapping that is added makes nodes, and these are the ones above it.
-/

namespace SceneTree

namespace MappingNode

theorem keys_add_ascending {node : MappingNode} (h : (Dict.keys node).Pairwise (· < ·))
    {name : Token} (hnew : Dict.get? node name = none) (slot : MappingSlot) :
    (Dict.keys (node.add name slot)).Pairwise (· < ·) := by
  unfold Dict.keys at *
  rw [List.pairwise_map] at *
  induction node with
  | nil => exact List.pairwise_singleton _ _
  | cons entry rest ih =>
    rw [List.pairwise_cons] at h
    rw [Dict.get?_cons] at hnew
    split at hnew
    . cases hnew
    . next hne =>
      by_cases hlt : entry.1 < name
      . have hadd : MappingNode.add (entry :: rest) name slot
            = entry :: MappingNode.add rest name slot := by
          unfold add
          rw [List.takeWhile_cons_of_pos (by simpa using hlt),
            List.dropWhile_cons_of_pos (by simpa using hlt)]
          rfl
        rw [hadd, List.pairwise_cons]
        refine ⟨?_, ih h.2 hnew⟩
        intro other hother
        unfold add at hother
        rw [List.mem_append, List.mem_cons] at hother
        rcases hother with hother | hother | hother
        . exact h.1 other (List.takeWhile_subset _ hother)
        . rw [hother]
          exact hlt
        . exact h.1 other (List.dropWhile_subset _ hother)
      . have hbefore : name < entry.1 :=
          Decidable.byContradiction fun hle => hne (String.le_antisymm hle hlt)
        have hadd : MappingNode.add (entry :: rest) name slot = (name, slot) :: entry :: rest := by
          unfold add
          rw [List.takeWhile_cons_of_neg (by simpa using hlt),
            List.dropWhile_cons_of_neg (by simpa using hlt)]
          rfl
        rw [hadd, List.pairwise_cons, List.pairwise_cons]
        refine ⟨?_, h⟩
        intro other hother
        rcases List.mem_cons.1 hother with hother | hother
        . rw [hother]
          exact hbefore
        . exact String.lt_trans hbefore (h.1 other hother)

end MappingNode

namespace MappingTree

def Ascending (tree : MappingTree) : Prop :=
  ∀ index, (Dict.keys (tree.node index)).Pairwise (· < ·)

theorem empty_ascending : empty.Ascending := by
  intro index
  unfold node empty
  cases index <;> exact List.Pairwise.nil

section Ascending

variable {tree : MappingTree} (h : tree.Ascending) {index : Nat}
variable (hindex : index < tree.nodes.length)
include h hindex

theorem Ascending.addSlot {name : Token} (hnew : tree.slot? index name = none)
    (slot : MappingSlot) : (tree.addSlot index name slot).Ascending := by
  intro other
  rw [node_addSlot hindex]
  split
  . exact MappingNode.keys_add_ascending (h index) hnew slot
  . exact h other

theorem Ascending.enter (name : Token) : (tree.enter index name).2.Ascending := by
  unfold MappingTree.enter
  split
  . exact h
  . exact h
  . next hnew =>
    intro other
    have hnode := tree.node_withChild index name other
    unfold withChild at hnode
    dsimp only
    rw [hnode]
    exact h.addSlot hindex hnew _ other

theorem Ascending.descend (hformed : tree.WellFormed) (names : Locator) :
    (tree.descend index names).2.Ascending := by
  induction names generalizing tree index with
  | nil => exact h
  | cons name rest ih =>
    obtain ⟨hgrown, hslot⟩ := hformed.enter hindex name
    have hentered := h.enter hindex name
    unfold MappingTree.descend
    generalize tree.enter index name = entered at *
    obtain ⟨answer, later⟩ := entered
    cases answer with
    | error existing => exact hentered
    | ok child =>
      have hchild := hgrown.wellFormed.forward _ _ _ (hslot child rfl)
      exact ih hentered hchild.2 hgrown.wellFormed

end Ascending

theorem Ascending.add {tree : MappingTree} (h : tree.Ascending) (hformed : tree.WellFormed)
    (locator : Locator) (mapping : PropertyMapping) : (tree.add locator mapping).2.Ascending := by
  have hdescend := h.descend hformed.nonempty hformed locator.dropLast
  obtain ⟨hgrown, hreach⟩ := hformed.descend hformed.nonempty locator.dropLast
  unfold MappingTree.add
  split
  . exact h
  . generalize tree.descend 0 locator.dropLast = result at *
    obtain ⟨answer, later⟩ := result
    cases answer with
    | error existing => exact hdescend
    | ok target =>
      have hlater := hgrown.wellFormed
      have htarget := hlater.reach?_lt hlater.nonempty (hreach target rfl)
      dsimp only
      split
      . exact hdescend
      . exact hdescend
      . next hnew => exact hdescend.addSlot htarget hnew _

theorem reach?_isSome_of_isUnder {tree : MappingTree} {index : Nat} {place top : Locator}
    (hunder : place.isUnder top) (h : (tree.reach? index place).isSome) :
    (tree.reach? index top).isSome := by
  obtain ⟨rest, hrest⟩ := Locator.exists_eq_append_of_isUnder hunder
  rw [hrest, reach?_append] at h
  cases hreach : tree.reach? index top with
  | none => simp [hreach] at h
  | some target => rfl

theorem property?_of_length_le (tree : MappingTree) (address : Locator) :
    tree.property? tree.nodes.length address = none := by
  cases address with
  | nil => rfl
  | cons name rest =>
    unfold property?
    rw [slot?_of_length_le (Nat.le_refl _)]

theorem reach?_concat {tree : MappingTree} {index target child : Nat} {above : Locator}
    (hreach : tree.reach? index above = some target) {name : Token}
    (hslot : tree.slot? target name = some (.node child)) :
    tree.reach? index (above ++ [name]) = some child := by
  rw [reach?_append, hreach, Option.bind_some]
  unfold reach?
  rw [hslot]
  rfl

theorem enter_cases (tree : MappingTree) (index : Nat) (name : Token) :
    (∃ child, tree.slot? index name = some (.node child) ∧
        tree.enter index name = (.ok child, tree)) ∨
      (∃ existing, tree.slot? index name = some (.property existing) ∧
        tree.enter index name = (.error existing.name, tree)) ∨
      tree.slot? index name = none ∧
        tree.enter index name = (.ok tree.nodes.length, tree.withChild index name) := by
  unfold enter slot?
  cases Dict.get? (tree.node index) name with
  | none => exact .inr (.inr ⟨rfl, rfl⟩)
  | some slot =>
    cases slot with
    | property existing => exact .inr (.inl ⟨existing, rfl, rfl⟩)
    | node child => exact .inl ⟨child, rfl, rfl⟩

theorem descend_of_reach? {tree : MappingTree} {index target : Nat} {above : Locator}
    (h : tree.reach? index above = some target) : tree.descend index above = (.ok target, tree) := by
  induction above generalizing index with
  | nil =>
    cases h
    rfl
  | cons name rest ih =>
    unfold reach? at h
    split at h
    . next child hslot =>
      unfold descend enter
      unfold slot? at hslot
      rw [hslot]
      exact ih h
    . cases h

section Reach

variable {tree : MappingTree} (h : tree.WellFormed) {index : Nat}
include h

-- The new node has no slots, so nothing is reached beyond it.
theorem WellFormed.withChild_reach? {above : Locator} (hreach : tree.reach? 0 above = some index)
    {name : Token} (hnew : tree.slot? index name = none) {place : Locator}
    (hplace : ((tree.withChild index name).reach? 0 place).isSome) :
    (tree.reach? 0 place).isSome ∨ place = above ++ [name] := by
  have hindex := h.reach?_lt h.nonempty hreach
  have hgrown := h.withChild_grown hindex hnew
  induction place using List.reverseRecOn with
  | nil => exact .inl rfl
  | append_singleton before last ih =>
    obtain ⟨target, htarget⟩ := Option.isSome_iff_exists.1 hplace
    obtain ⟨parent, hparent, hslot⟩ := reach?_concat_eq_some htarget
    have hold := hslot
    rw [slot?_withChild hindex hnew] at hold
    split at hold
    . next heq =>
      obtain ⟨hsame, hname⟩ := heq
      subst hsame hname
      rw [hgrown.wellFormed.reach?_injective hparent (hgrown.reach? hreach)]
      exact .inr rfl
    . rcases ih (by simp [hparent]) with hsome | hbefore
      . obtain ⟨earlier, hearlier⟩ := Option.isSome_iff_exists.1 hsome
        have hsame := hgrown.reach? hearlier
        rw [hparent] at hsame
        cases hsame
        rw [reach?_concat hearlier hold]
        exact .inl rfl
      . -- The step before would lead from the new node.
        have hchild := reach?_concat (hgrown.reach? hreach)
          ((slot?_withChild hindex hnew index name).trans (if_pos ⟨rfl, rfl⟩))
        rw [hbefore, hchild] at hparent
        cases hparent
        rw [slot?_of_length_le (Nat.le_refl _)] at hold
        cases hold

theorem WellFormed.descend_reach? (above : Locator) (hreach : tree.reach? 0 above = some index)
    (names place : Locator)
    (hplace : ((tree.descend index names).2.reach? 0 place).isSome) :
    (tree.reach? 0 place).isSome ∨ Locator.isUnder (above ++ names) place := by
  induction names generalizing tree index above with
  | nil => exact .inl hplace
  | cons name rest ih =>
    have hassoc : above ++ name :: rest = above ++ [name] ++ rest :=
      List.append_cons above name rest
    unfold MappingTree.descend at hplace
    rcases tree.enter_cases index name with
      ⟨child, hslot, henter⟩ | ⟨existing, _, henter⟩ | ⟨hnew, henter⟩
    . rw [henter] at hplace
      rw [hassoc]
      exact ih h _ (reach?_concat hreach hslot) hplace
    . rw [henter] at hplace
      exact .inl hplace
    . rw [henter] at hplace
      have hindex := h.reach?_lt h.nonempty hreach
      have hgrown := h.withChild_grown hindex hnew
      have hchild := reach?_concat (hgrown.reach? hreach)
        ((slot?_withChild hindex hnew index name).trans (if_pos ⟨rfl, rfl⟩))
      rw [hassoc]
      rcases ih hgrown.wellFormed _ hchild hplace with hsome | hunder
      . rcases h.withChild_reach? hreach hnew hsome with hsome | heq
        . exact .inl hsome
        . rw [heq]
          exact .inr (Locator.append_isUnder _ rest)
      . exact .inr hunder

-- Only a mapping that was there before is an obstacle, so nothing was added in front of it.
theorem WellFormed.descend_error (hindex : index < tree.nodes.length) (names : Locator)
    (existing : Token) (herror : (tree.descend index names).1 = .error existing) :
    (tree.descend index names).2 = tree ∧
      ∃ address mapping, Locator.isUnder names address ∧
        tree.property? index address = some mapping ∧ mapping.name = existing := by
  induction names generalizing tree index with
  | nil => cases herror
  | cons name rest ih =>
    unfold MappingTree.descend at herror ⊢
    rcases tree.enter_cases index name with
      ⟨child, hslot, henter⟩ | ⟨mapping, hslot, henter⟩ | ⟨hnew, henter⟩
    . rw [henter] at herror ⊢
      obtain ⟨hsame, address, mapping, hunder, hproperty, hname⟩ :=
        ih h (h.forward _ _ _ hslot).2 herror
      refine ⟨hsame, name :: address, mapping, by simpa using hunder, ?_, hname⟩
      unfold property?
      rw [hslot]
      exact hproperty
    . rw [henter] at herror ⊢
      cases herror
      refine ⟨rfl, [name], mapping, by simp, ?_, rfl⟩
      unfold property?
      rw [hslot]
      rfl
    . rw [henter] at herror
      have hgrown := h.withChild_grown hindex hnew
      have hlength := tree.length_withChild index name
      obtain ⟨_, address, mapping, _, hproperty, _⟩ :=
        ih hgrown.wellFormed (by omega) herror
      rw [hgrown.property?, property?_of_length_le] at hproperty
      cases hproperty

end Reach

/-! ## Why a mapping is left out -/

/--
What is behind the answer to a mapping at an address: whether it has one, and what the tree holds
there, above it and below it.
-/
inductive Judged (tree : MappingTree) (locator : Locator) (mapping : PropertyMapping) :
    Option MappingIssue → Prop where
  | empty (nil : locator = []) : Judged tree locator mapping (some (.emptyLocator mapping.name))
  | occupied {address : Locator} {other : PropertyMapping} (ne_nil : locator ≠ [])
    (under : locator.isUnder address) (property : tree.property? 0 address = some other) :
    Judged tree locator mapping (some (.locatorOccupied mapping.name locator other.name))
  | container (ne_nil : locator ≠ []) (reached : (tree.reach? 0 locator).isSome) :
    Judged tree locator mapping (some (.containerOccupied mapping.name locator))
  | accepted (ne_nil : locator ≠ []) : Judged tree locator mapping none

-- What a mapping that is not left out does to the tree.
theorem exists_eq_addSlot_of_add {tree : MappingTree} {locator : Locator}
    {mapping : PropertyMapping} (h : (tree.add locator mapping).1 = none) :
    ∃ above name target, locator = above ++ [name] ∧
      (tree.descend 0 above).1 = .ok target ∧
      (tree.descend 0 above).2.slot? target name = none ∧
      (tree.add locator mapping).2
        = (tree.descend 0 above).2.addSlot target name (.property mapping) := by
  rcases List.eq_nil_or_concat' locator with heq | ⟨above, name, heq⟩
  . subst heq
    cases h
  . subst heq
    refine ⟨above, name, ?_⟩
    unfold MappingTree.add at h ⊢
    rw [List.getLast?_concat, List.dropLast_concat] at h ⊢
    dsimp only at h ⊢
    generalize tree.descend 0 above = result at *
    obtain ⟨answer, later⟩ := result
    cases answer with
    | error existing => cases h
    | ok target =>
      dsimp only at h ⊢
      split at h
      . cases h
      . cases h
      . next hnew => exact ⟨target, rfl, rfl, hnew, rfl⟩

section Add

variable {tree : MappingTree} (h : tree.WellFormed) (mapping : PropertyMapping)
include h

theorem WellFormed.add_judged (locator : Locator) :
    tree.Judged locator mapping (tree.add locator mapping).1 := by
  rcases List.eq_nil_or_concat' locator with heq | ⟨above, name, heq⟩
  . subst heq
    exact .empty rfl
  . subst heq
    have hne : above ++ [name] ≠ [] := by simp
    obtain ⟨hgrown, hreach⟩ := h.descend h.nonempty above
    have herror := h.descend_error h.nonempty above
    have hgrowth := h.descend_reach? [] rfl above
    unfold MappingTree.add
    rw [List.getLast?_concat, List.dropLast_concat]
    dsimp only
    generalize tree.descend 0 above = result at *
    obtain ⟨answer, later⟩ := result
    cases answer with
    | error existing =>
      obtain ⟨_, address, other, hunder, hproperty, hname⟩ := herror existing rfl
      subst hname
      have hbelow := Locator.isUnder_trans (Locator.append_isUnder above [name]) hunder
      exact .occupied hne hbelow hproperty
    | ok target =>
      have htarget := hreach target rfl
      have hslot : ∀ slot, Dict.get? (later.node target) name = some slot →
          later.slot? target name = some slot := fun _ hslot => hslot
      dsimp only
      split
      . next other hother =>
        have hproperty : later.property? 0 (above ++ [name]) = some other := by
          rw [property?_concat, htarget, Option.bind_some, hslot _ hother]
        rw [hgrown.property?] at hproperty
        exact .occupied hne (Locator.isUnder_refl _) hproperty
      . next child hchild =>
        have hreached := reach?_concat htarget (hslot _ hchild)
        rcases hgrowth _ (Option.isSome_of_eq_some hreached) with hsome | hunder
        . exact .container hne hsome
        . exact absurd hunder (Locator.not_isUnder_concat above name)
      . exact .accepted hne

-- A mapping that is left out was in conflict with what the tree held before.
theorem WellFormed.descend_reach?_of_slot? (above : Locator) (target : Nat)
    (htarget : (tree.descend 0 above).1 = .ok target) {name : Token} {slot : MappingSlot}
    (hslot : (tree.descend 0 above).2.slot? target name = some slot) :
    (tree.reach? 0 above).isSome := by
  obtain ⟨hgrown, hreach⟩ := h.descend h.nonempty above
  have hlater := hreach target htarget
  cases slot with
  | property other =>
    have hproperty : (tree.descend 0 above).2.property? 0 (above ++ [name]) = some other := by
      rw [property?_concat, hlater, Option.bind_some, hslot]
    rw [hgrown.property?, property?_concat] at hproperty
    cases hbefore : tree.reach? 0 above with
    | none => simp [hbefore] at hproperty
    | some earlier => rfl
  | node child =>
    have hreached := reach?_concat hlater hslot
    rcases h.descend_reach? [] rfl above _ (Option.isSome_of_eq_some hreached) with hsome | hunder
    . exact reach?_isSome_of_isUnder (Locator.append_isUnder above [name]) hsome
    . exact absurd hunder (Locator.not_isUnder_concat above name)

-- A place that is occupied lies on a way that was there, so nothing is added before the conflict.
theorem WellFormed.add_of_issue {locator : Locator} {issue : MappingIssue}
    (hissue : (tree.add locator mapping).1 = some issue) : (tree.add locator mapping).2 = tree := by
  rcases List.eq_nil_or_concat' locator with heq | ⟨above, name, heq⟩
  . subst heq
    rfl
  . subst heq
    have herror := h.descend_error h.nonempty above
    have hslot : ∀ target slot, (tree.descend 0 above).1 = .ok target →
        (tree.descend 0 above).2.slot? target name = some slot →
        (tree.descend 0 above).2 = tree := by
      intro target slot htarget hslot
      have hreached := h.descend_reach?_of_slot? above target htarget hslot
      obtain ⟨earlier, hearlier⟩ := Option.isSome_iff_exists.1 hreached
      rw [descend_of_reach? hearlier]
    unfold MappingTree.add at hissue ⊢
    rw [List.getLast?_concat, List.dropLast_concat] at hissue ⊢
    dsimp only at hissue ⊢
    generalize tree.descend 0 above = result at *
    obtain ⟨answer, later⟩ := result
    cases answer with
    | error existing => exact (herror existing rfl).1
    | ok target =>
      dsimp only at hissue ⊢
      split at hissue
      . next hother => exact hslot target _ rfl hother
      . next hchild => exact hslot target _ rfl hchild
      . cases hissue

theorem WellFormed.add_reach?_isSome_iff_of_none {locator : Locator}
    (hnone : (tree.add locator mapping).1 = none) (place : Locator) :
    ((tree.add locator mapping).2.reach? 0 place).isSome
      ↔
    (tree.reach? 0 place).isSome ∨ locator.isUnder place ∧ locator ≠ place := by
  obtain ⟨above, name, target, heq, hok, hnew, hadd⟩ := exists_eq_addSlot_of_add hnone
  subst heq
  obtain ⟨hgrown, hreach⟩ := h.descend h.nonempty above
  have hlater := hgrown.wellFormed
  have htarget := hreach target hok
  rw [hadd, reach?_addSlot_property (hlater.reach?_lt hlater.nonempty htarget) hnew,
    Locator.concat_isUnder_iff]
  constructor
  . exact h.descend_reach? [] rfl above place
  . rintro (hsome | hunder)
    . obtain ⟨earlier, hearlier⟩ := Option.isSome_iff_exists.1 hsome
      exact Option.isSome_of_eq_some (hgrown.reach? hearlier)
    . exact reach?_isSome_of_isUnder hunder (Option.isSome_of_eq_some htarget)

theorem WellFormed.add_reach?_isSome_iff (locator place : Locator) :
    ((tree.add locator mapping).2.reach? 0 place).isSome
      ↔
    (tree.reach? 0 place).isSome ∨
      (tree.add locator mapping).1 = none ∧ locator.isUnder place ∧ locator ≠ place := by
  cases hanswer : (tree.add locator mapping).1 with
  | some issue => simp [h.add_of_issue mapping hanswer]
  | none => simpa using h.add_reach?_isSome_iff_of_none mapping hanswer place

end Add

end MappingTree

end SceneTree
