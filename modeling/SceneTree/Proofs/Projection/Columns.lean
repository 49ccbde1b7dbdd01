import Mathlib.Data.List.InsertIdx
import SceneTree.Proofs.Projection.Reached

/-!
This module contains nodes of mapping trees as two columns, their names and their slots, of which
the first is searched by halving. If the names ascend, the search ends at the place of the slot, or
at the place where a name and its slot are put into the columns.
-/

namespace SceneTree

namespace Token

/--
Search for a name among ascending ones, in a range of places. The answer is its place, or the place
where it belongs.
-/
def search (names : List Token) (name : Token) (first last : Nat) : Except Nat Nat :=
  if first < last then
    let middle := (first + last) / 2
    match names[middle]? with
    | none => .error first
    | some other =>
      if other = name then .ok middle
      else if other < name then search names name (middle + 1) last
      else search names name first middle
  else .error first
termination_by last - first

/--
What the answer to a search says: the name is at this place, or it is nowhere and belongs between
the smaller names before this place and the greater ones from there on.
-/
inductive Located (names : List Token) (name : Token) : Except Nat Nat → Prop where
  | found {place : Nat} (found : names[place]? = some name) : Located names name (.ok place)
  | missing {place : Nat} (le : place ≤ names.length)
    (before : ∀ i other, i < place → names[i]? = some other → other < name)
    (after : ∀ i other, place ≤ i → names[i]? = some other → name < other) :
    Located names name (.error place)

theorem lt_of_getElem? {names : List Token} (h : names.Pairwise (· < ·)) {i j : Nat}
    {first second : Token} (hlt : i < j) (hfirst : names[i]? = some first)
    (hsecond : names[j]? = some second) : first < second := by
  obtain ⟨hi, hfirst⟩ := List.getElem?_eq_some_iff.1 hfirst
  obtain ⟨hj, hsecond⟩ := List.getElem?_eq_some_iff.1 hsecond
  subst hfirst hsecond
  exact List.pairwise_iff_getElem.1 h i j hi hj hlt

-- The range is halved such that smaller names stay before it and greater ones behind it.
theorem search_located {names : List Token} (h : names.Pairwise (· < ·)) {name : Token}
    {first last : Nat} (hle : first ≤ last) (hlength : last ≤ names.length)
    (hbefore : ∀ i other, i < first → names[i]? = some other → other < name)
    (hafter : ∀ i other, last ≤ i → names[i]? = some other → name < other) :
    Located names name (search names name first last) := by
  fun_induction search names name first last with
  | case1 first last hlt middle hnone =>
    have := List.getElem?_eq_none_iff.1 hnone
    omega
  | case2 first last hlt middle hfound => exact .found hfound
  | case3 first last hlt middle other hother hne hless ih =>
    apply ih
    . omega
    . exact hlength
    . intro i before hi hget
      rcases Nat.lt_or_eq_of_le (Nat.le_of_lt_succ hi) with hi | hi
      . exact String.lt_trans (lt_of_getElem? h hi hget hother) hless
      . subst hi
        cases hother.symm.trans hget
        exact hless
    . exact hafter
  | case4 first last hlt middle other hother hne hless ih =>
    have hgreater : name < other :=
      Decidable.byContradiction fun hle => hne (String.le_antisymm hle hless)
    apply ih
    . omega
    . omega
    . exact hbefore
    . intro i after hi hget
      rcases Nat.lt_or_eq_of_le hi with hi | hi
      . exact String.lt_trans hgreater (lt_of_getElem? h hi hother hget)
      . subst hi
        cases hother.symm.trans hget
        exact hgreater
  | case5 first last hlt =>
    have : first = last := by omega
    subst this
    exact .missing hlength hbefore hafter

end Token

/--
The names of a node, and at the same places its slots.
-/
structure MappingColumns where
  names : List Token
  slots : List MappingSlot

namespace MappingColumns

def empty : MappingColumns := ⟨[], []⟩

/--
The slot at the place of a name, or else the place where the name belongs. There is no answer if the
slots do not reach to the place of the name.
-/
def lookup? (columns : MappingColumns) (name : Token) : Option (Except Nat MappingSlot) :=
  match Token.search columns.names name 0 columns.names.length with
  | .ok place => columns.slots[place]?.map .ok
  | .error place => some (.error place)

def insert? (columns : MappingColumns) (place : Nat) (name : Token) (slot : MappingSlot) :
    Option MappingColumns :=
  if place ≤ columns.names.length ∧ place ≤ columns.slots.length then
    some ⟨columns.names.insertIdx place name, columns.slots.insertIdx place slot⟩
  else none

end MappingColumns

namespace MappingNode

def columns (node : MappingNode) : MappingColumns :=
  ⟨Dict.keys node, node.map (·.2)⟩

theorem length_names_columns (node : MappingNode) :
    node.columns.names.length = node.columns.slots.length := by
  unfold columns Dict.keys
  rw [List.length_map, List.length_map]

-- The place divides the node as the order of its names does.
theorem add_eq_insertIdx {node : MappingNode} {name : Token} {place : Nat}
    (hle : place ≤ (Dict.keys node).length)
    (hbefore : ∀ i other, i < place → (Dict.keys node)[i]? = some other → other < name)
    (hafter : ∀ i other, place ≤ i → (Dict.keys node)[i]? = some other → name < other)
    (slot : MappingSlot) : node.add name slot = node.insertIdx place (name, slot) := by
  induction node generalizing place with
  | nil =>
    cases Nat.le_zero.1 hle
    rfl
  | cons entry rest ih =>
    unfold add at ih ⊢
    cases place with
    | zero =>
      have hgreater : ¬ entry.1 < name :=
        fun hless => String.lt_irrefl _ (String.lt_trans hless (hafter 0 _ (Nat.le_refl 0) rfl))
      rw [List.takeWhile_cons_of_neg (by simpa using hgreater),
        List.dropWhile_cons_of_neg (by simpa using hgreater)]
      rfl
    | succ place =>
      have hless : entry.1 < name := hbefore 0 _ (Nat.succ_pos place) rfl
      have hrest := ih (Nat.le_of_succ_le_succ hle)
        (fun i other hi => hbefore (i + 1) other (Nat.succ_lt_succ hi))
        (fun i other hi => hafter (i + 1) other (Nat.succ_le_succ hi))
      rw [List.takeWhile_cons_of_pos (by simpa using hless),
        List.dropWhile_cons_of_pos (by simpa using hless), List.cons_append, hrest]
      rfl

section Ascending

variable {node : MappingNode} (h : (Dict.keys node).Pairwise (· < ·)) {name : Token}
include h

theorem nodup_keys_of_ascending : (Dict.keys node).Nodup := by
  apply h.imp
  intro first second hlt heq
  exact String.lt_irrefl _ (heq ▸ hlt)

theorem slots_columns_getElem? {place : Nat} (hplace : (Dict.keys node)[place]? = some name) :
    node.columns.slots[place]? = Dict.get? node name := by
  unfold Dict.keys at hplace
  rw [List.getElem?_map, Option.map_eq_some_iff] at hplace
  obtain ⟨⟨key, slot⟩, hentry, hkey⟩ := hplace
  subst hkey
  unfold columns
  rw [List.getElem?_map, hentry]
  have hmem := List.mem_of_getElem? hentry
  exact (Dict.get?_eq_some_of_mem (nodup_keys_of_ascending h) hmem).symm

theorem search_names_located (name : Token) :
    Token.Located node.columns.names name
      (Token.search node.columns.names name 0 node.columns.names.length) := by
  apply Token.search_located h
  . exact Nat.zero_le _
  . exact Nat.le_refl _
  . intro i other hi
    cases hi
  . intro i other hi hget
    exact absurd (List.getElem?_eq_some_iff.1 hget).1 (Nat.not_lt_of_le hi)

theorem lookup?_columns_of_some {slot : MappingSlot} (hslot : Dict.get? node name = some slot) :
    node.columns.lookup? name = some (.ok slot) := by
  have hlocated := search_names_located h name
  unfold MappingColumns.lookup?
  generalize Token.search node.columns.names name 0 node.columns.names.length = answer at *
  cases hlocated with
  | found hplace =>
    dsimp only
    rw [slots_columns_getElem? h hplace, hslot]
    rfl
  | @missing place hle hbefore hafter =>
    obtain ⟨i, hi⟩ := List.mem_iff_getElem?.1 (Dict.mem_keys_of_get?_eq_some hslot)
    rcases Nat.lt_or_ge i place with hlt | hge
    . exact absurd (hbefore i name hlt hi) (String.lt_irrefl _)
    . exact absurd (hafter i name hge hi) (String.lt_irrefl _)

theorem lookup?_columns_of_none (hnone : Dict.get? node name = none) :
    ∃ place, node.columns.lookup? name = some (.error place) ∧
      ∀ slot, node.columns.insert? place name slot = some (node.add name slot).columns := by
  have hlocated := search_names_located h name
  unfold MappingColumns.lookup?
  generalize Token.search node.columns.names name 0 node.columns.names.length = answer at *
  cases hlocated with
  | found hplace =>
    have hmem := (Dict.contains_iff _ _).2 (List.mem_of_getElem? hplace)
    unfold Dict.contains at hmem
    rw [hnone] at hmem
    cases hmem
  | @missing place hle hbefore hafter =>
    refine ⟨place, rfl, ?_⟩
    intro slot
    have hslots : place ≤ node.columns.slots.length := node.length_names_columns ▸ hle
    unfold MappingColumns.insert?
    rw [if_pos ⟨hle, hslots⟩, add_eq_insertIdx hle hbefore hafter]
    unfold columns Dict.keys
    rw [List.map_insertIdx, List.map_insertIdx]

end Ascending

end MappingNode

end SceneTree
