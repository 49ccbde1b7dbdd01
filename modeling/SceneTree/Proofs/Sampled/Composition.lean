import SceneTree.Proofs.Sampled.Times

/-!
This module contains how sampled sources are put together, and what is read off the whole of one. The
value that a combination has remembered for the current frame is the one that it would find anew, at
every depth.
-/

namespace SceneTree.Sampled

inductive Composition where
  | constant (value : Value)
  | held (samples : TimeSamples)
  | combined (combine : Value → Value → Value) (outer inner : Composition)

namespace Composition

def source : Composition → Sampled
  | constant value => .constant value
  | held samples => .held samples
  | combined combine outer inner => .combined combine outer.source inner.source

def valueAt : Composition → Time → Value
  | constant value, _ => value
  | held samples, t => samples.valueAt t
  | combined combine outer inner, t => combine (outer.valueAt t) (inner.valueAt t)

def parts : Composition → List TimeSamples
  | constant _ => []
  | held samples => [samples]
  | combined _ outer inner => outer.parts ++ inner.parts

theorem built (c : Composition) : c.source.Built := by
  induction c with
  | constant value => exact .constant value
  | held samples => exact .held samples
  | combined combine outer inner houter hinner => exact .combined combine houter hinner

theorem source_valueAt (c : Composition) (t : Time) : c.source.valueAt t = c.valueAt t := by
  induction c with
  | constant value => rfl
  | held samples => rfl
  | combined combine outer inner houter hinner =>
    calc (combined combine outer inner).source.valueAt t
      _ = combine (outer.source.valueAt t) (inner.source.valueAt t) :=
        combined_valueAt outer.built inner.built t
      _ = (combined combine outer inner).valueAt t := by
        rw [houter, hinner]
        rfl

theorem combined_valueAt_eq_combine_and_anew (combine : Value → Value → Value)
    (outer inner : Composition) (t : Time) :
    (Sampled.combined combine outer.source inner.source).valueAt t
        = combine (outer.source.valueAt t) (inner.source.valueAt t) ∧
      (Sampled.combined combine outer.source inner.source).valueAt t
        = combine (outer.valueAt t) (inner.valueAt t) :=
  ⟨combined_valueAt outer.built inner.built t,
    (Composition.combined combine outer inner).source_valueAt t⟩

-- A combination has an answer for an interval if all of the samples below it do.
theorem timesIn?_isSome_iff (c : Composition) (first last : Time) :
    (c.source.timesIn? first last).isSome
      ↔
    ∀ samples ∈ c.parts, (samples.timesIn? first last).isSome := by
  induction c with
  | constant value => exact iff_of_true rfl (by simp [parts])
  | held samples => simp [parts, source, Sampled.held]
  | combined combine outer inner houter hinner =>
    have hboth : ((combined combine outer inner).source.timesIn? first last).isSome ↔
        (outer.source.timesIn? first last).isSome ∧ (inner.source.timesIn? first last).isSome := by
      rw [source, combined_timesIn?]
      cases outer.source.timesIn? first last <;> simp
    rw [hboth, houter, hinner]
    simp only [parts, List.mem_append, or_imp, forall_and]

end Composition

end SceneTree.Sampled
