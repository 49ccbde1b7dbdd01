import SceneTree.Time

/-!
This module contains the times at which a value has to be sampled, and their union.
-/

namespace SceneTree

inductive SampleTimes where
  /-- The value does not vary. -/
  | static
  /-- The value varies and is known from these times. -/
  | samples (times : List Time)
  /-- The value varies in a way that no finite list of times captures. -/
  | unbounded
deriving DecidableEq, Inhabited

namespace SampleTimes

/--
Of neighbours that agree, keep the first.
-/
def dedup {α : Type} (same : α → α → Bool) : List α → List α
  | [] => []
  | a :: rest => go a rest
where
  go (kept : α) : List α → List α
    | [] => [kept]
    | b :: rest => if same kept b then go kept rest else kept :: go b rest

def isVarying : SampleTimes → Bool
  | static => false
  | _ => true

/--
The times of both. A value that no list captures stays so, and one that does not vary adds nothing.
-/
def merge : SampleTimes → SampleTimes → SampleTimes
  | unbounded, _ => unbounded
  | _, unbounded => unbounded
  | static, other => other
  | other, static => other
  | samples a, samples b => samples (dedup Time.sameAs ((a ++ b).mergeSort Time.rankLE))

end SampleTimes

end SceneTree
