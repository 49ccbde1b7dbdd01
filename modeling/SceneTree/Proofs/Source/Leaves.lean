import Mathlib.Data.List.Basic
import SceneTree.Source.Leaves

/-!
This module contains the walk over the leaves of a tree: it hands out every leaf once, under the
locator that leads to it, in the order in which containers list their names and vectors hold their
elements.
-/

namespace SceneTree.Source

/--
Whether a locator leads from the root of a tree to something in it: by listed names through
containers, and by the places of elements through vectors.
-/
inductive Leads : Source → Locator → Source → Prop where
  | here (source : Source) : Leads source [] source
  | child {names : List Token} {child : Token → Option Source} {name : Token} {inner found : Source}
      {rest : Locator} (hname : name ∈ names) (hchild : child name = some inner)
      (h : Leads inner rest found) : Leads (container names child) (name :: rest) found
  | element {elements : List Source} {index : Nat} {inner found : Source} {rest : Locator}
      (helement : elements[index]? = some inner) (h : Leads inner rest found) :
      Leads (vector elements) (toString index :: rest) found

/--
Whether a walk from the root of a tree comes to one locator before it comes to another one. The first
step in which they differ decides: by the order of the names of a container, or by the order of the
elements of a vector.
-/
inductive Precedes : Source → Locator → Locator → Prop where
  | names {names : List Token} {child : Token → Option Source} {first second : Token}
      (h : [first, second].Sublist names) (above below : Locator) :
      Precedes (container names child) (first :: above) (second :: below)
  | child {names : List Token} {child : Token → Option Source} {name : Token} {inner : Source}
      {first second : Locator} (hname : name ∈ names) (hchild : child name = some inner)
      (h : Precedes inner first second) :
      Precedes (container names child) (name :: first) (name :: second)
  | elements {elements : List Source} {first second : Nat} (h : first < second)
      (above below : Locator) :
      Precedes (vector elements) (toString first :: above) (toString second :: below)
  | element {elements : List Source} {index : Nat} {inner : Source} {first second : Locator}
      (helement : elements[index]? = some inner) (h : Precedes inner first second) :
      Precedes (vector elements) (toString index :: first) (toString index :: second)

def ListsOnce (source : Source) : Prop :=
  ∀ place (c : Container), source.Leads place c.source → c.names.Nodup

theorem elementLeaves_eq (locator : Locator) (index : Nat) (elements : List Source) :
    elementLeaves locator index elements
      =
    (elements.zipIdx index).flatMap fun entry =>
      leavesFrom (locator ++ [toString entry.2]) entry.1 := by
  induction elements generalizing index with
  | nil => simp [elementLeaves]
  | cons element rest ih => rw [elementLeaves, ih, List.zipIdx_cons, List.flatMap_cons]

-- The address that the walk carries down only stands in front of the addresses that it hands out.
theorem leavesFrom_append (source : Source) (above below : Locator) :
    source.leavesFrom (above ++ below)
      =
    (source.leavesFrom below).map fun leaf => (above ++ leaf.1, leaf.2) := by
  induction source generalizing below with
  | container names child ih =>
    unfold leavesFrom
    rw [List.map_flatMap]
    congr 1
    funext name
    rw [List.append_assoc]
    cases hchild : child name with
    | none => simp [childLeaves]
    | some inner => exact ih name inner hchild (below ++ [name])
  | sampled s => simp [leavesFrom]
  | vector elements ih =>
    unfold leavesFrom
    rw [elementLeaves_eq, elementLeaves_eq, List.map_flatMap]
    apply List.flatMap_congr
    rintro ⟨element, index⟩ hentry
    have helement := List.mem_of_getElem? (List.mem_zipIdx_iff_getElem?.1 hentry)
    rw [List.append_assoc]
    exact ih element helement (below ++ [toString index])
  | block => simp [leavesFrom]

theorem leaves_container (names : List Token) (child : Token → Option Source) :
    (container names child).leaves
      =
    names.flatMap fun name =>
      ((child name).elim [] leaves).map fun leaf => (name :: leaf.1, leaf.2) := by
  unfold leaves
  rw [leavesFrom]
  congr 1
  funext name
  cases child name with
  | none => simp [childLeaves]
  | some inner => exact inner.leavesFrom_append [name] []

theorem leaves_vector (elements : List Source) :
    (vector elements).leaves
      =
    elements.zipIdx.flatMap fun entry =>
      entry.1.leaves.map fun leaf => (toString entry.2 :: leaf.1, leaf.2) := by
  unfold leaves
  rw [leavesFrom, elementLeaves_eq]
  congr 1
  funext entry
  exact entry.1.leavesFrom_append [toString entry.2] []

theorem mem_leaves_iff (source : Source) (place : Locator) (leaf : Source) :
    (place, leaf) ∈ source.leaves
      ↔
    source.Leads place leaf ∧ (leaf.sampled?.isSome ∨ leaf.isBlock) := by
  induction source generalizing place with
  | container names child ih =>
    rw [leaves_container, List.mem_flatMap]
    constructor
    . rintro ⟨name, hname, hmem⟩
      cases hchild : child name with
      | none => simp [hchild] at hmem
      | some inner =>
        rw [hchild] at hmem
        obtain ⟨⟨rest, found⟩, hfound, heq⟩ := List.mem_map.1 hmem
        cases heq
        obtain ⟨hleads, hleaf⟩ := (ih name inner hchild rest).1 hfound
        exact ⟨.child hname hchild hleads, hleaf⟩
    . rintro ⟨hleads, hleaf⟩
      cases hleads with
      | here => simp [sampled?, isBlock] at hleaf
      | @child _ _ name inner _ rest hname hchild hleads =>
        refine ⟨name, hname, ?_⟩
        rw [hchild]
        exact List.mem_map.2 ⟨(rest, leaf), (ih name inner hchild rest).2 ⟨hleads, hleaf⟩, rfl⟩
  | sampled s =>
    constructor
    . intro hmem
      cases List.mem_singleton.1 hmem
      exact ⟨.here _, .inl rfl⟩
    . rintro ⟨hleads, -⟩
      cases hleads
      exact List.mem_singleton_self _
  | vector elements ih =>
    rw [leaves_vector, List.mem_flatMap]
    constructor
    . rintro ⟨⟨element, index⟩, hentry, hmem⟩
      have helement := List.mem_zipIdx_iff_getElem?.1 hentry
      obtain ⟨⟨rest, found⟩, hfound, heq⟩ := List.mem_map.1 hmem
      cases heq
      obtain ⟨hleads, hleaf⟩ := (ih element (List.mem_of_getElem? helement) rest).1 hfound
      exact ⟨.element helement hleads, hleaf⟩
    . rintro ⟨hleads, hleaf⟩
      cases hleads with
      | here => simp [sampled?, isBlock] at hleaf
      | @element _ index inner _ rest helement hleads =>
        have hmem := List.mem_of_getElem? helement
        refine ⟨(inner, index), List.mem_zipIdx_iff_getElem?.2 helement, ?_⟩
        exact List.mem_map.2 ⟨(rest, leaf), (ih inner hmem rest).2 ⟨hleads, hleaf⟩, rfl⟩
  | block =>
    constructor
    . intro hmem
      cases List.mem_singleton.1 hmem
      exact ⟨.here _, .inr rfl⟩
    . rintro ⟨hleads, -⟩
      cases hleads
      exact List.mem_singleton_self _

theorem pairwise_zipIdx (elements : List Source) (index : Nat) :
    (elements.zipIdx index).Pairwise fun first second => first.2 < second.2 := by
  rw [← List.pairwise_map, List.zipIdx_map_snd]
  exact List.pairwise_lt_range'

theorem leaves_pairwise_precedes (source : Source) :
    source.leaves.Pairwise fun first second => source.Precedes first.1 second.1 := by
  induction source with
  | container names child ih =>
    rw [leaves_container, List.pairwise_flatMap]
    constructor
    . intro name hname
      cases hchild : child name with
      | none => exact .nil
      | some inner =>
        rw [Option.elim_some, List.pairwise_map]
        exact (ih name inner hchild).imp fun h => .child hname hchild h
    . rw [List.pairwise_iff_forall_sublist]
      intro first second hsublist above habove below hbelow
      obtain ⟨_, -, rfl⟩ := List.mem_map.1 habove
      obtain ⟨_, -, rfl⟩ := List.mem_map.1 hbelow
      exact .names hsublist _ _
  | sampled s => exact List.pairwise_singleton _ _
  | vector elements ih =>
    rw [leaves_vector, List.pairwise_flatMap]
    constructor
    . rintro ⟨element, index⟩ hentry
      have helement := List.mem_zipIdx_iff_getElem?.1 hentry
      rw [List.pairwise_map]
      exact (ih element (List.mem_of_getElem? helement)).imp fun h => .element helement h
    . apply (pairwise_zipIdx elements 0).imp
      intro first second hlt above habove below hbelow
      obtain ⟨_, -, rfl⟩ := List.mem_map.1 habove
      obtain ⟨_, -, rfl⟩ := List.mem_map.1 hbelow
      exact .elements hlt _ _
  | block => exact List.pairwise_singleton _ _

theorem listsOnce_container_iff (names : List Token) (child : Token → Option Source) :
    (container names child).ListsOnce
      ↔
    names.Nodup ∧ ∀ name ∈ names, ∀ inner, child name = some inner → inner.ListsOnce := by
  constructor
  . intro h
    refine ⟨h [] ⟨names, child⟩ (.here _), ?_⟩
    intro name hname inner hchild place c hleads
    exact h (name :: place) c (.child hname hchild hleads)
  . rintro ⟨hnames, hinner⟩ place c hleads
    generalize hsource : c.source = source at hleads
    cases hleads with
    | here =>
      cases hsource
      exact hnames
    | child hname hchild hleads =>
      subst hsource
      exact hinner _ hname _ hchild _ c hleads

theorem listsOnce_vector_iff (elements : List Source) :
    (vector elements).ListsOnce ↔ ∀ element ∈ elements, element.ListsOnce := by
  constructor
  . intro h element helement place c hleads
    obtain ⟨index, hindex⟩ := List.mem_iff_getElem?.1 helement
    exact h (toString index :: place) c (.element hindex hleads)
  . intro h place c hleads
    cases hleads with
    | element helement hleads => exact h _ (List.mem_of_getElem? helement) _ c hleads

theorem listsOnce_sampled (s : Sampled) : (sampled s).ListsOnce :=
  fun _ _ hleads => nomatch hleads

theorem listsOnce_block : block.ListsOnce :=
  fun _ _ hleads => nomatch hleads

theorem listsOnce_of_entries {names : List Token} (hnames : names.Nodup)
    {entries : Dict Token Source} (h : ∀ entry ∈ entries, entry.2.ListsOnce) :
    (container names (Dict.get? entries)).ListsOnce :=
  (listsOnce_container_iff _ _).2
    ⟨hnames, fun _ _ _ hchild => h _ (Dict.mem_of_get?_eq_some hchild)⟩

theorem toString_injective : Function.Injective (toString : Nat → String) := by
  intro i j h
  rw [Nat.toString_eq_ofList_toDigits, Nat.toString_eq_ofList_toDigits, String.ofList_inj] at h
  have hdigits (n : Nat) : Nat.ofDigitChars 10 (Nat.toDigits 10 n) 0 = n :=
    Nat.ofDigitChars_ten_toDigits
  rw [← hdigits i, h, hdigits]

-- Of two places in an order neither is above the other: the first step in which they differ exists.
theorem Precedes.not_isRelatedTo {source : Source} {first second : Locator}
    (h : source.Precedes first second) (honce : source.ListsOnce) :
    ¬ first.isRelatedTo second := by
  induction h with
  | @names names child first second hsublist above below =>
    have hnames := ((listsOnce_container_iff names child).1 honce).1
    have hne : first ≠ second := by
      simpa using hsublist.nodup hnames
    simp [Locator.cons_isRelatedTo_cons, hne]
  | child hname hchild _ ih =>
    have hinner := ((listsOnce_container_iff _ _).1 honce).2 _ hname _ hchild
    simpa [Locator.cons_isRelatedTo_cons] using ih hinner
  | elements hlt above below =>
    have hne := toString_injective.ne (Nat.ne_of_lt hlt)
    rw [Locator.cons_isRelatedTo_cons, beq_false_of_ne hne]
    simp
  | element helement _ ih =>
    have hinner := (listsOnce_vector_iff _).1 honce _ (List.mem_of_getElem? helement)
    simpa [Locator.cons_isRelatedTo_cons] using ih hinner

theorem Leads.at?_eq {source found : Source} {place : Locator} (h : source.Leads place found)
    (hcontainers : ∀ above name below, place = above ++ name :: below → ∀ inner,
      source.Leads above inner → inner.container?.isSome) :
    source.at? place = some found := by
  induction h with
  | here => exact at?_nil _
  | @child names child name inner found rest hname hchild _ ih =>
    rw [at?_cons, container?, Option.bind_some]
    dsimp only
    rw [hchild]
    apply ih
    rintro above next below rfl other hother
    exact hcontainers (name :: above) next below rfl other (.child hname hchild hother)
  | @element elements index inner found rest =>
    have hroot := hcontainers [] (toString index) rest rfl _ (.here _)
    cases hroot

theorem leaves_pairwise_and_mem_iff_leads {source : Source} (h : source.ListsOnce) :
    source.leaves.Pairwise (fun first second => ¬ first.1.isRelatedTo second.1)
      ∧
    (∀ place leaf, (place, leaf) ∈ source.leaves
      ↔ source.Leads place leaf ∧ (leaf.sampled?.isSome ∨ leaf.isBlock))
      ∧
    source.leaves.Pairwise (fun first second => source.Precedes first.1 second.1)
      ∧
    ∀ place leaf, (place, leaf) ∈ source.leaves →
      (∀ above name below, place = above ++ name :: below → ∀ inner, source.Leads above inner →
        inner.container?.isSome) →
      source.at? place = some leaf :=
  ⟨source.leaves_pairwise_precedes.imp fun hprecedes => hprecedes.not_isRelatedTo h,
    source.mem_leaves_iff, source.leaves_pairwise_precedes,
    fun place leaf hmem => ((source.mem_leaves_iff place leaf).1 hmem).1.at?_eq⟩

-- A listed name without a child, and a vector that holds a container, on the way to a block.
theorem leaves_pairwise_and_mem_iff_leads_absent :
    let leaf := Source.value (.int 1)
    let inner := container ["b", "e"] (Dict.get? [("b", block), ("e", vector [])])
    let tree := container ["a", "gone", "d"] (Dict.get? [("d", vector [leaf, inner]), ("a", leaf)])
    tree.ListsOnce ∧
      tree.leaves.map (·.1) = [["a"], ["d", "0"], ["d", "1", "b"]] ∧
      tree.leaves.Pairwise (fun first second => ¬ first.1.isRelatedTo second.1) ∧
      (["d", "1", "b"], block) ∈ tree.leaves ∧
      tree.at? ["a"] = some leaf := by
  intro leaf inner tree
  have hleaf : leaf.ListsOnce := listsOnce_sampled _
  have hempty : (vector []).ListsOnce := (listsOnce_vector_iff _).2 (by simp)
  have hinner : inner.ListsOnce :=
    listsOnce_of_entries (by decide) (by simpa using ⟨listsOnce_block, hempty⟩)
  have hvector : (vector [leaf, inner]).ListsOnce :=
    (listsOnce_vector_iff _).2 (by simpa using ⟨hleaf, hinner⟩)
  have htree : tree.ListsOnce :=
    listsOnce_of_entries (by decide) (by simpa using ⟨hvector, hleaf⟩)
  obtain ⟨hapart, hmem, -, hread⟩ := leaves_pairwise_and_mem_iff_leads htree
  have hblock : tree.Leads ["d", "1", "b"] block := by
    exact .child (by decide) rfl (@Leads.element _ 1 _ _ _ rfl (.child (by decide) rfl (.here _)))
  refine ⟨htree, rfl, hapart, (hmem _ _).2 ⟨hblock, .inr rfl⟩, hread ["a"] leaf ?_ ?_⟩
  . exact (hmem _ _).2 ⟨.child (by decide) rfl (.here _), .inl rfl⟩
  . rintro above name below heq inner hinner
    cases above with
    | nil =>
      have hroot : ∀ source found, Leads source [] found → source = found := by
        rintro _ _ ⟨⟩
        rfl
      exact hroot _ _ hinner ▸ rfl
    | cons first rest => simp at heq

end SceneTree.Source
