import SceneTree.Locator

/-!
This module contains sets of locators. A set covers its locators and all places under them. It is
kept minimal: its locators ascend and none is under another. Since a locator stands directly before
those under it, the operations only look next to the place where a locator belongs.
-/

namespace SceneTree

/--
The covered part of a tree, as an ascending list of unrelated locators.
-/
structure LocatorSet where
  locators : List Locator
deriving DecidableEq

namespace LocatorSet

def empty : LocatorSet := ⟨[]⟩

instance : Inhabited LocatorSet := ⟨empty⟩

def universal : LocatorSet := ⟨[[]]⟩

def isEmpty (set : LocatorSet) : Bool :=
  set.locators.isEmpty

def size (set : LocatorSet) : Nat :=
  set.locators.length

def isUniversal (set : LocatorSet) : Bool :=
  match set.locators with
  | [] :: _ => true
  | _ => false

def before (set : LocatorSet) (locator : Locator) : List Locator :=
  set.locators.takeWhile (· < locator)

def fromOn (set : LocatorSet) (locator : Locator) : List Locator :=
  set.locators.dropWhile (· < locator)

/--
Whether a locator or one above it is in the set. Of the smaller locators only the greatest can be
above it.
-/
def covers (set : LocatorSet) (locator : Locator) : Bool :=
  (set.fromOn locator).head? == some locator ||
    (set.before locator).getLast?.any (locator.isUnder ·)

/--
Cover a locator: nothing changes if that is so, otherwise it takes the place of those under it.
-/
def insert (set : LocatorSet) (locator : Locator) : LocatorSet :=
  if set.covers locator then set
  else ⟨set.before locator ++ locator :: (set.fromOn locator).dropWhile (·.isUnder locator)⟩

def insertAll (set : LocatorSet) (locators : List Locator) : LocatorSet :=
  locators.foldl insert set

def ofList (locators : List Locator) : LocatorSet :=
  empty.insertAll locators

def union (set other : LocatorSet) : LocatorSet :=
  if set.isUniversal then set else set.insertAll other.locators

def meets (set : LocatorSet) (locator : Locator) : Bool :=
  set.locators.any (·.isRelatedTo locator)

def meetsSet (set other : LocatorSet) : Bool :=
  other.locators.any set.meets

def within (set : LocatorSet) (locator : Locator) : LocatorSet :=
  ofList (set.locators.filterMap fun element =>
    if locator.isUnder element then some locator
    else if element.isUnder locator then some element
    else none)

def moved (set : LocatorSet) (source target : Locator) : LocatorSet :=
  ofList (set.locators.map (·.moved source target))

def text (set : LocatorSet) : String :=
  "\x7b" ++ ", ".intercalate (set.locators.map ("/" ++ ·.text)) ++ "\x7d"

def debugText (set : LocatorSet) : String :=
  "LocatorSet" ++ set.text

end LocatorSet

end SceneTree
