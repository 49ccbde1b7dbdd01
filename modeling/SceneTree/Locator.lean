/-!
This module contains tokens, the short names in scene data, and locators, the addresses of the places
in a tree of it.
-/

namespace SceneTree

/--
A short name, such as a node type or the name of a child. Tokens are ordered by code point, and the
empty token stands for one that is not set.
-/
abbrev Token := String

namespace Token

def unset : Token := ""

def sort (tokens : List Token) : List Token :=
  tokens.mergeSort fun a b => !decide (b < a)

end Token

/--
The names from the root of a tree to a place in it. The empty locator addresses the root. Locators
are ordered by their first difference, a locator before those that extend it.
-/
abbrev Locator := List Token

namespace Locator

/--
The locator of the containing place. The root contains itself.
-/
def parent (locator : Locator) : Locator :=
  locator.dropLast

def isUnder (locator top : Locator) : Bool :=
  top.isPrefixOf locator

def isRelatedTo (a b : Locator) : Bool :=
  a.isUnder b || b.isUnder a

def below? (locator top : Locator) : Option Locator :=
  if locator.isUnder top then some (locator.drop top.length) else none

def moved (locator source target : Locator) : Locator :=
  if locator.isUnder source then target ++ locator.drop source.length else locator

@[simp]
theorem isUnder_nil (locator : Locator) : locator.isUnder [] = true := by
  simp [isUnder]

@[simp]
theorem nil_isUnder_cons (name : Token) (top : Locator) : isUnder [] (name :: top) = false := rfl

@[simp]
theorem cons_isUnder_cons (name other : Token) (locator top : Locator) :
    isUnder (name :: locator) (other :: top) = (other == name && locator.isUnder top) := rfl

theorem cons_isRelatedTo_cons (name other : Token) (a b : Locator) :
    isRelatedTo (name :: a) (other :: b) = (name == other && a.isRelatedTo b) := by
  unfold isRelatedTo
  rw [cons_isUnder_cons, cons_isUnder_cons, BEq.comm, Bool.and_or_distrib_left]

theorem isUnder_iff {locator top : Locator} : locator.isUnder top ↔ top <+: locator := by
  simp [isUnder]

theorem isUnder_refl (locator : Locator) : locator.isUnder locator :=
  isUnder_iff.2 (List.prefix_refl locator)

theorem isUnder_trans {a b c : Locator} (hab : a.isUnder b) (hbc : b.isUnder c) : a.isUnder c := by
  rw [isUnder_iff] at *
  exact hbc.trans hab

theorem isUnder_antisymm {a b : Locator} (hab : a.isUnder b) (hba : b.isUnder a) : a = b := by
  rw [isUnder_iff] at *
  exact hba.eq_of_length (Nat.le_antisymm hba.length_le hab.length_le)

theorem append_isUnder (top rest : Locator) : isUnder (top ++ rest) top := by
  simp [isUnder_iff]

theorem append_isUnder_append (top locator other : Locator) :
    isUnder (top ++ locator) (top ++ other) = isUnder locator other := by
  rw [Bool.eq_iff_iff, isUnder_iff, isUnder_iff, List.prefix_append_right_inj]

theorem exists_eq_append_of_isUnder {locator top : Locator} (h : locator.isUnder top) :
    ∃ rest, locator = top ++ rest := by
  rw [isUnder_iff] at h
  obtain ⟨rest, hrest⟩ := h
  exact ⟨rest, hrest.symm⟩

theorem below?_append (top rest : Locator) : below? (top ++ rest) top = some rest := by
  unfold below?
  rw [if_pos (append_isUnder top rest), List.drop_left]

theorem below?_eq_none {locator top : Locator} (h : ¬ locator.isUnder top) :
    locator.below? top = none := by
  unfold below?
  rw [if_neg h]

theorem moved_append (source target rest : Locator) :
    moved (source ++ rest) source target = target ++ rest := by
  unfold moved
  rw [if_pos (append_isUnder source rest), List.drop_left]

theorem moved_of_not_isUnder {locator source : Locator} (h : ¬ locator.isUnder source)
    (target : Locator) : locator.moved source target = locator := by
  unfold moved
  rw [if_neg h]

theorem isRelatedTo_iff {a b : Locator} : a.isRelatedTo b ↔ a.isUnder b ∨ b.isUnder a := by
  simp [isRelatedTo]

-- Two places above one place lie on one way.
theorem isRelatedTo_of_isUnder {place first second : Locator} (hfirst : place.isUnder first)
    (hsecond : place.isUnder second) : first.isRelatedTo second := by
  rw [isUnder_iff] at hfirst hsecond
  rw [isRelatedTo_iff, isUnder_iff, isUnder_iff]
  exact (List.prefix_or_prefix_of_prefix hfirst hsecond).symm

theorem not_isRelatedTo_append {place other : Locator} (h : ¬ other.isRelatedTo place)
    (rest : Locator) : ¬ isRelatedTo (other ++ rest) place := by
  have hunder := append_isUnder other rest
  rw [isRelatedTo_iff, not_or]
  constructor
  . exact fun hplace => h (isRelatedTo_of_isUnder hunder hplace)
  . exact fun hplace => h (isRelatedTo_iff.2 (.inr (isUnder_trans hplace hunder)))

theorem not_isUnder_concat (above : Locator) (name : Token) :
    ¬ above.isUnder (above ++ [name]) := by
  intro hunder
  have hlength := (isUnder_iff.1 hunder).length_le
  rw [List.length_append, List.length_singleton] at hlength
  omega

theorem concat_isUnder_iff (above : Locator) (name : Token) (place : Locator) :
    isUnder (above ++ [name]) place ∧ above ++ [name] ≠ place ↔ above.isUnder place := by
  rw [isUnder_iff, isUnder_iff, List.prefix_concat_iff]
  constructor
  . rintro ⟨heq | habove, hne⟩
    . exact absurd heq.symm hne
    . exact habove
  . intro habove
    refine ⟨.inr habove, fun heq => not_isUnder_concat above name ?_⟩
    rw [heq]
    exact isUnder_iff.2 habove

def text (locator : Locator) : String :=
  "/".intercalate locator

def debugText (locator : Locator) : String :=
  "Locator(" ++ locator.text ++ ")"

def order (a b : Locator) : Ordering :=
  if a < b then .lt else if a = b then .eq else .gt

end Locator

end SceneTree
