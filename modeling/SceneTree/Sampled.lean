import SceneTree.SampleTimes
import SceneTree.Value

/-!
This module contains sampled sources, which have a value at every time: constants, values that are
held between the times at which they were given, and combinations of two sampled sources.
-/

namespace SceneTree

/--
A value over time, with the times that are needed to know it over an interval. There may be no answer
for an interval that ends before it starts.
-/
structure Sampled where
  valueAt : Time → Value
  timesIn? (first last : Time) : Option SampleTimes

structure TimeSamples where
  entries : List (Time × Value)
  nonempty : entries ≠ []

namespace SampleTimes

theorem dedup_ne_nil {α : Type} (same : α → α → Bool) {as : List α} (h : as ≠ []) :
    dedup same as ≠ [] := by
  cases as with
  | nil => exact absurd rfl h
  | cons a rest => exact go_ne_nil a rest
where
  go_ne_nil (a : α) (rest : List α) : dedup.go same a rest ≠ [] := by
    induction rest generalizing a with
    | nil => simp [dedup.go]
    | cons b rest ih =>
      unfold dedup.go
      split
      . exact ih a
      . simp

end SampleTimes

namespace TimeSamples

/--
Order samples by time. Of samples at one time the first counts, where a negative zero comes before a
positive one.
-/
def ofList? (samples : List (Time × Value)) : Option TimeSamples :=
  let sorted := samples.mergeSort fun a b => a.1.rankLE b.1
  if h : sorted = [] then none
  else some ⟨SampleTimes.dedup (fun a b => a.1.sameAs b.1) sorted, SampleTimes.dedup_ne_nil _ h⟩

def holdsAt (samples : TimeSamples) (p : Time → Bool) (i : Nat) : Bool :=
  (samples.entries[i]?).any (p ·.1)

/--
The place behind the samples of a range that satisfy a condition, if these lead. The range is halved
until one sample is left. If samples that satisfy the condition stand behind others, the answer
depends on which of them the halving meets.
-/
def partitionFrom (samples : TimeSamples) (p : Time → Bool) (first size : Nat) : Nat :=
  if size ≤ 1 then
    if samples.holdsAt p first then first + 1 else first
  else
    let middle := first + size / 2
    let later := if samples.holdsAt p middle then middle else first
    samples.partitionFrom p later (size - size / 2)
termination_by size

def partitionPoint (samples : TimeSamples) (p : Time → Bool) : Nat :=
  samples.partitionFrom p 0 samples.entries.length

theorem lt_length_of_holdsAt {samples : TimeSamples} {p : Time → Bool} {i : Nat}
    (h : samples.holdsAt p i) : i < samples.entries.length := by
  obtain ⟨entry, hentry, _⟩ := (Option.any_eq_true _ _).1 h
  exact (List.getElem?_eq_some_iff.1 hentry).1

theorem partitionFrom_le (samples : TimeSamples) (p : Time → Bool) {first size : Nat}
    (h : first + size ≤ samples.entries.length) :
    samples.partitionFrom p first size ≤ samples.entries.length := by
  fun_induction partitionFrom samples p first size with
  | case1 first size hsize hholds => exact lt_length_of_holdsAt hholds
  | case2 first size hsize hholds => omega
  | case3 first size hsize middle later ih =>
    apply ih
    dsimp only [later, middle]
    split <;> omega

theorem partitionPoint_le (samples : TimeSamples) (p : Time → Bool) :
    samples.partitionPoint p ≤ samples.entries.length :=
  samples.partitionFrom_le p (Nat.le_of_eq (Nat.zero_add _))

def index (samples : TimeSamples) (t : Time) : Nat :=
  samples.partitionPoint (·.atOrBefore t) - 1

theorem index_lt (samples : TimeSamples) (t : Time) :
    samples.index t < samples.entries.length := by
  have h := samples.partitionPoint_le (·.atOrBefore t)
  have hpos := List.length_pos_iff.2 samples.nonempty
  unfold index
  omega

def valueAt (samples : TimeSamples) (t : Time) : Value :=
  have := samples.index_lt t
  samples.entries[samples.index t].2

/--
The part of the samples that an interval needs: those in it, and the closest one on each side.
-/
def window (samples : TimeSamples) (first last : Time) : Nat × Nat :=
  (samples.partitionPoint (·.before first) - 1,
    min (samples.partitionPoint (·.atOrBefore last) + 1) samples.entries.length)

/--
The samples from one place up to another. The places must be in this order and inside of the list.
-/
def slice? (samples : TimeSamples) (start stop : Nat) : Option (List (Time × Value)) :=
  if start ≤ stop ∧ stop ≤ samples.entries.length then some ((samples.entries.take stop).drop start)
  else none

def timesIn? (samples : TimeSamples) (first last : Time) : Option SampleTimes :=
  if samples.entries.length < 2 then some .static
  else
    let (start, stop) := samples.window first last
    (samples.slice? start stop).map fun part => .samples (part.map (·.1))

end TimeSamples

namespace Sampled

def constant (value : Value) : Sampled where
  valueAt _ := value
  timesIn? _ _ := some .static

def held (samples : TimeSamples) : Sampled where
  valueAt := samples.valueAt
  timesIn? := samples.timesIn?

def mergedTimes? (sources : List Sampled) (first last : Time) : Option SampleTimes := do
  let times ← sources.mapM (·.timesIn? first last)
  return times.foldl SampleTimes.merge .static

/--
The combination of an outer and an inner source at every time. The value of the current frame, which
is the one asked for most, is found once.
-/
def combined (combine : Value → Value → Value) (outer inner : Sampled) : Sampled :=
  let current := combine (outer.valueAt Time.zero) (inner.valueAt Time.zero)
  { valueAt := fun t =>
      if t.sameAs Time.zero then current else combine (outer.valueAt t) (inner.valueAt t)
    timesIn? := mergedTimes? [outer, inner] }

end Sampled

namespace Value

/--
The transform that a value stands for. What is no matrix leaves everything in place.
-/
def transform (value : Value) : Matrix :=
  value.toMatrix?.getD Matrix.identity

def mulTransformsBy (mul : Matrix → Matrix → Matrix) (outer inner : Value) : Value :=
  matrix (mul outer.transform inner.transform)

def mulTransforms : Value → Value → Value :=
  mulTransformsBy Matrix.mul

end Value

end SceneTree
