import SceneTree.Proofs.Flatten.Descendants
import SceneTree.Proofs.Locator.Canonical
import SceneTree.Proofs.Locator.Region

/-!
This module contains what rules are asked about changed places, and what comes of their answers. A
rule is asked about the part of the changed places under its name, as it lies in its own container,
and its answer is put back under the name.
-/

namespace SceneTree

namespace FlattenRules

/--
The changed places in the container of a rule, which the rule is asked about if there are any.
-/
def asked (name : Token) (changed : LocatorSet) : LocatorSet :=
  (changed.within [name]).moved [name] []

section Asked

variable {changed : LocatorSet} (h : changed.Minimal)

theorem asked_minimal (name : Token) (changed : LocatorSet) : (asked name changed).Minimal :=
  LocatorSet.moved_minimal _ _ _

include h in
theorem covers_asked_iff (name : Token) (rest : Locator) :
    (asked name changed).covers rest ↔ changed.covers (name :: rest) :=
  h.covers_moved_within [name] rest

theorem isEmpty_asked (name : Token) (changed : LocatorSet) :
    (asked name changed).isEmpty = !changed.meets [name] := by
  unfold asked
  rw [LocatorSet.isEmpty_moved, LocatorSet.isEmpty_within]

-- A rule that is not asked has nothing of the changed places in its container.
theorem isEmpty_asked_of_covers {name : Token} {rest : Locator}
    (hcovers : (asked name changed).covers rest) : (asked name changed).isEmpty = false := by
  obtain ⟨element, hmem, _⟩ := ((asked_minimal name changed).covers_iff rest).1 hcovers
  exact List.isEmpty_eq_false_iff_exists_mem.2 ⟨element, hmem⟩

end Asked

theorem covers_spread_iff_asked {rules : FlattenRules} {changed : LocatorSet}
    (hanswers : ∀ rule ∈ rules, (rule.2.spread (asked rule.1 changed)).Minimal) (place : Locator) :
    (rules.spread changed).covers place
      ↔
    ∃ rule ∈ rules, (asked rule.1 changed).isEmpty = false ∧
      ∃ rest, place = rule.1 :: rest ∧ (rule.2.spread (asked rule.1 changed)).covers rest := by
  rw [covers_spread_iff]
  apply exists_congr
  intro rule
  apply and_congr_right
  intro hrule
  rw [isEmpty_asked, Bool.not_eq_false']
  exact and_congr_right fun _ => (hanswers rule hrule).covers_moved_nil [rule.1] place

theorem spread_minimal (rules : FlattenRules) (changed : LocatorSet) :
    (rules.spread changed).Minimal := by
  unfold spread
  apply List.foldlRecOn (motive := LocatorSet.Minimal)
  . exact LocatorSet.empty_minimal
  . intro result hresult rule _
    split
    . exact hresult.union _
    . exact hresult

section Same

variable {rules : FlattenRules} {changed : LocatorSet}
variable (hsame : ∀ rule ∈ rules, rule.2.spread (asked rule.1 changed) = asked rule.1 changed)
include hsame

theorem covers_spread_of_same (h : changed.Minimal) (place : Locator) :
    (rules.spread changed).covers place
      ↔
    changed.covers place ∧ ∃ rule ∈ rules, place.isUnder [rule.1] := by
  have hanswers : ∀ rule ∈ rules, (rule.2.spread (asked rule.1 changed)).Minimal := by
    intro rule hrule
    rw [hsame rule hrule]
    exact asked_minimal rule.1 changed
  rw [covers_spread_iff_asked hanswers]
  constructor
  . rintro ⟨rule, hrule, -, rest, rfl, hcovers⟩
    rw [hsame rule hrule, covers_asked_iff h] at hcovers
    exact ⟨hcovers, rule, hrule, Locator.append_isUnder [rule.1] rest⟩
  . rintro ⟨hcovers, rule, hrule, hunder⟩
    obtain ⟨rest, rfl⟩ := Locator.exists_eq_append_of_isUnder hunder
    have hasked := (covers_asked_iff h rule.1 rest).2 hcovers
    refine ⟨rule, hrule, isEmpty_asked_of_covers hasked, rest, rfl, ?_⟩
    rwa [hsame rule hrule]

theorem spread_perm_of_same (hnames : (Dict.keys rules).Nodup) (huniversal : changed = .universal) :
    (rules.spread changed).locators.Perm (rules.map fun rule => [rule.1]) := by
  subst huniversal
  have htops : rules.map (fun rule => [rule.1]) = (Dict.keys rules).map fun name => [name] := by
    unfold Dict.keys
    rw [List.map_map]
    rfl
  rw [htops]
  apply (spread_minimal rules _).perm_of_covers
  . exact hnames.map fun a b heq => List.head_eq_of_cons_eq heq
  . intro a ha b hb hunder
    obtain ⟨first, -, rfl⟩ := List.mem_map.1 ha
    obtain ⟨second, -, rfl⟩ := List.mem_map.1 hb
    simp only [Locator.cons_isUnder_cons, Locator.isUnder_nil, Bool.and_true, beq_iff_eq] at hunder
    rw [hunder]
  . intro place
    rw [covers_spread_of_same hsame LocatorSet.universal_minimal]
    simp [LocatorSet.universal_covers, Dict.keys]

end Same

end FlattenRules

namespace FlattenCache

open FlattenRules

-- What a rule answers is a locator set like all others, which its operations keep minimal.
theorem invalidate_covers_iff_asked (cache : FlattenCache) (hnames : (Dict.keys cache.rules).Nodup)
    (hspread : ∀ rule ∈ cache.rules, ∀ set : LocatorSet, set.Minimal → (rule.2.spread set).Minimal)
    (path : Path) {changed : LocatorSet} (hchanged : changed.Minimal) :
    let below := (cache.invalidate path changed).1
    (∀ rule ∈ cache.rules, ∀ rest,
        (asked rule.1 changed).covers rest ↔ changed.covers (rule.1 :: rest)) ∧
      (∀ rule ∈ cache.rules, (asked rule.1 changed).isEmpty = !changed.meets [rule.1]) ∧
      (∀ place, below.covers place ↔
        ∃ rule ∈ cache.rules, (asked rule.1 changed).isEmpty = false ∧
          ∃ rest, place = rule.1 :: rest ∧ (rule.2.spread (asked rule.1 changed)).covers rest) ∧
      ((∀ rule ∈ cache.rules, rule.2.spread (asked rule.1 changed) = asked rule.1 changed) →
        (∀ place, below.covers place ↔
          changed.covers place ∧ ∃ rule ∈ cache.rules, place.isUnder [rule.1]) ∧
        (changed = .universal → below.locators.Perm (cache.rules.map fun rule => [rule.1]))) := by
  intro below
  refine ⟨?_, ?_, ?_, ?_⟩
  . intro rule _ rest
    exact covers_asked_iff hchanged rule.1 rest
  . intro rule _
    exact isEmpty_asked rule.1 changed
  . apply covers_spread_iff_asked
    intro rule hrule
    exact hspread rule hrule _ (asked_minimal rule.1 changed)
  . intro hsame
    exact ⟨covers_spread_of_same hsame hchanged, spread_perm_of_same hsame hnames⟩

-- A rule that would always answer is not asked, and another one answers with places further down.
theorem invalidate_covers_iff_asked_narrowed :
    let same : FlattenRule := ⟨fun input => input.own, fun set => set⟩
    let inner : FlattenRule := ⟨fun input => input.own, fun set => set.moved [] ["all"]⟩
    let cache := new .empty [("size", inner), ("visibility", .visibility), ("xform", same)]
    let plain := new .empty [("size", same), ("xform", same)]
    let changed := LocatorSet.ofList [["xform"], ["size", "width"], ["kind"]]
    let below := (cache.invalidate .root changed).1
    (Dict.keys cache.rules).Nodup ∧
      (∀ rule ∈ cache.rules, ∀ set : LocatorSet, set.Minimal → (rule.2.spread set).Minimal) ∧
      changed.Minimal ∧
      (asked "size" changed).covers ["width"] ∧
      (asked "visibility" changed).isEmpty ∧
      below.covers ["size", "all", "width"] ∧
      ¬ below.covers ["visibility"] ∧
      (plain.invalidate .root .universal).1.locators.Perm [["size"], ["xform"]] := by
  intro same inner cache plain changed below
  have hnames : (Dict.keys cache.rules).Nodup := by decide
  have hchanged : changed.Minimal := LocatorSet.ofList_minimal _
  have hspread : ∀ rule ∈ cache.rules, ∀ set : LocatorSet,
      set.Minimal → (rule.2.spread set).Minimal := by
    simp only [cache, new, List.forall_mem_cons, List.not_mem_nil, false_imp_iff, implies_true,
      and_true]
    exact ⟨fun _ _ => LocatorSet.moved_minimal _ _ _,
      fun _ _ => LocatorSet.universal_minimal, fun _ h => h⟩
  obtain ⟨hasked, hempty, hcovers, -⟩ :=
    invalidate_covers_iff_asked cache hnames hspread .root hchanged
  have hvisibility : (asked "visibility" changed).isEmpty = true :=
    (hempty ("visibility", .visibility) (by simp [cache, new])).trans (by decide)
  obtain ⟨-, -, -, hsame⟩ := invalidate_covers_iff_asked plain (by decide)
    (by simp [plain, new, same]) .root LocatorSet.universal_minimal
  refine ⟨hnames, hspread, hchanged, ?_, hvisibility, ?_, ?_, ?_⟩
  . exact (hasked ("size", inner) (by simp [cache, new]) ["width"]).2 (by decide)
  . exact (hcovers _).2 ⟨("size", inner), by simp [cache, new], by decide, ["all", "width"], rfl,
      by decide⟩
  . intro hhidden
    obtain ⟨rule, hrule, hnonempty, rest, heq, -⟩ := (hcovers _).1 hhidden
    rw [← (List.cons.inj heq).1, hvisibility] at hnonempty
    cases hnonempty
  . exact (hsame (by simp [plain, new, same])).2 rfl

end FlattenCache

end SceneTree
