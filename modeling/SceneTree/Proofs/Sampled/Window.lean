import SceneTree.Proofs.Sampled.Composition

/-!
This module contains for which intervals a source can name its times. The places that an interval cuts
out of a list of samples never lie behind its end. They are in order if the interval is, and else if at
most two samples lie behind its end and before its start.
-/

namespace SceneTree

namespace Time

-- A time that the order puts at or before a number is one, or a NaN in front of all numbers.
theorem isNaN_eq_false_of_rankLE_of_front {a b : Time} (hle : a.rankLE b)
    (hb : b.isNaN = false) (hfront : a.isNaN → a.isNegative = false) : a.isNaN = false := by
  cases ha : a.isNaN with
  | false => rfl
  | true =>
    have hsign := hfront ha
    unfold rankLE rank at hle
    unfold isNaN at ha hb
    simp only [hsign, Bool.false_eq_true, if_false, decide_eq_true_eq, decide_eq_false_iff_not] at *
    split at hle <;> omega

-- Either the interval is in order or what is up to its end is before its start.
theorem before_imp_or_atOrBefore_imp (first last : Time) :
    (∀ t : Time, t.before first → t.atOrBefore last) ∨
      ∀ t : Time, t.atOrBefore last → t.before first := by
  by_cases hle : last.before first
  . exact .inr (by grind)
  . by_cases hlast : last.isNaN
    . exact .inr (by grind)
    . exact .inl (by grind)

end Time

namespace TimeSamples

theorem window_stop_le (samples : TimeSamples) (first last : Time) :
    (samples.window first last).2 ≤ samples.entries.length :=
  Nat.min_le_right _ _

theorem window_start_le_stop_iff (samples : TimeSamples) (first last : Time) :
    (samples.window first last).1 ≤ (samples.window first last).2
      ↔
    samples.partitionPoint (·.before first) ≤ samples.partitionPoint (·.atOrBefore last) + 2 := by
  have hcount := samples.partitionPoint_le (·.before first)
  unfold window
  dsimp only
  omega

theorem timesIn?_isSome_iff (samples : TimeSamples) (first last : Time) :
    (samples.timesIn? first last).isSome
      ↔
    (samples.window first last).1 ≤ (samples.window first last).2 := by
  have hstop := samples.window_stop_le first last
  unfold timesIn?
  split
  . next hsingle =>
    have hcount := samples.partitionPoint_le (·.before first)
    refine iff_of_true rfl ((samples.window_start_le_stop_iff first last).2 ?_)
    omega
  . unfold slice?
    dsimp only
    split
    . next hplaces => exact iff_of_true rfl hplaces.1
    . next hplaces => exact iff_of_false Bool.false_ne_true fun hle => hplaces ⟨hle, hstop⟩

theorem window_start_le_stop (samples : TimeSamples) {first last : Time}
    (hle : first.atOrBefore last) :
    (samples.window first last).1 ≤ (samples.window first last).2 := by
  have hbefore := samples.partitionPoint_before_le hle
  rw [window_start_le_stop_iff]
  omega

/--
The samples are in the order of their times, and none of these is a NaN in front of the numbers.
-/
structure InOrder (samples : TimeSamples) : Prop where
  ranked : samples.entries.Pairwise fun a b => a.1.rankLE b.1
  front : ∀ entry ∈ samples.entries, entry.1.isNaN → entry.1.isNegative = false

theorem inOrder_of_ofList? {entries : List (Time × Value)} {samples : TimeSamples}
    (hfront : ∀ entry ∈ entries, entry.1.isNaN → entry.1.isNegative = false)
    (h : ofList? entries = some samples) : samples.InOrder := by
  have hentries := entries_of_ofList? h
  constructor
  . rw [hentries]
    exact (SampleTimes.mergeSort_rankLE_pairwise (·.1) entries).sublist SampleTimes.dedup_sublist
  . intro entry hentry
    rw [hentries] at hentry
    exact hfront entry (SampleTimes.mem_of_mem_ordered hentry)

-- If no element that satisfies a condition stands behind one that does not, those that do lead.
theorem length_takeWhile_eq_countP {α : Type} {p : α → Bool} {as : List α}
    (h : as.Pairwise fun a b => p b → p a) : (as.takeWhile p).length = as.countP p := by
  induction as with
  | nil => rfl
  | cons a rest ih =>
    obtain ⟨hfirst, hrest⟩ := List.pairwise_cons.1 h
    cases hp : p a with
    | true => simp [hp, ih hrest]
    | false =>
      have hnone : rest.countP p = 0 := List.countP_eq_zero.2 (by grind)
      simp [hp, hnone]

section InOrder

variable {samples : TimeSamples} (h : samples.InOrder)

include h

theorem InOrder.partitionPoint_eq_countP {p : Time → Bool}
    (hmono : ∀ a b : Time, a.isNaN = false → a.position ≤ b.position → p b → p a)
    (hnumber : ∀ t, p t → t.isNaN = false) :
    samples.partitionPoint p = samples.entries.countP fun entry => p entry.1 := by
  have hleads : samples.entries.Pairwise fun a b => p b.1 → p a.1 := by
    refine h.ranked.imp_of_mem ?_
    intro a b ha hb hle hp
    have ha := Time.isNaN_eq_false_of_rankLE_of_front hle (hnumber b.1 hp) (h.front a ha)
    exact hmono a.1 b.1 ha (Time.position_le_of_rankLE hle) hp
  exact (partitionPoint_eq_length_takeWhile hleads).trans (length_takeWhile_eq_countP hleads)

theorem InOrder.partitionPoint_before (t : Time) :
    samples.partitionPoint (·.before t) = samples.entries.countP (·.1.before t) :=
  h.partitionPoint_eq_countP (by grind) (by grind)

theorem InOrder.partitionPoint_atOrBefore (t : Time) :
    samples.partitionPoint (·.atOrBefore t) = samples.entries.countP (·.1.atOrBefore t) :=
  h.partitionPoint_eq_countP (by grind) (by grind)

end InOrder

def countCrossed (samples : TimeSamples) (first last : Time) : Nat :=
  samples.entries.countP fun entry => entry.1.before first && !entry.1.atOrBefore last

theorem InOrder.window_start_le_stop_iff_countCrossed_le {samples : TimeSamples}
    (h : samples.InOrder) (first last : Time) :
    (samples.window first last).1 ≤ (samples.window first last).2
      ↔
    samples.countCrossed first last ≤ 2 := by
  rw [window_start_le_stop_iff]
  rcases Time.before_imp_or_atOrBefore_imp first last with hwithin | hbeyond
  . have hnone : samples.countCrossed first last = 0 := List.countP_eq_zero.2 (by grind)
    have hle := samples.partitionPoint_mono hwithin
    exact iff_of_true (by omega) (by omega)
  . have hwithin : samples.entries.countP (fun entry =>
        entry.1.before first && entry.1.atOrBefore last)
        = samples.entries.countP (·.1.atOrBefore last) :=
      List.countP_congr (by grind)
    have hsplit := List.countP_eq_countP_filter_add samples.entries (·.1.before first)
      (·.1.atOrBefore last)
    rw [List.countP_filter, List.countP_filter, hwithin] at hsplit
    rw [h.partitionPoint_before, h.partitionPoint_atOrBefore, hsplit]
    unfold countCrossed
    omega

end TimeSamples

namespace Sampled

theorem Composition.timesIn?_isSome_iff_countCrossed_le (c : Composition) (first last : Time) :
    (∀ samples ∈ c.parts, (samples.window first last).2 ≤ samples.entries.length) ∧
    ((c.source.timesIn? first last).isSome ↔
      ∀ samples ∈ c.parts, (samples.window first last).1 ≤ (samples.window first last).2) ∧
    (first.atOrBefore last → (c.source.timesIn? first last).isSome) ∧
    ((∀ samples ∈ c.parts, samples.InOrder) →
      ((c.source.timesIn? first last).isSome ↔
        ∀ samples ∈ c.parts, samples.countCrossed first last ≤ 2)) := by
  have hplaces : (c.source.timesIn? first last).isSome ↔
      ∀ samples ∈ c.parts, (samples.window first last).1 ≤ (samples.window first last).2 := by
    simp only [c.timesIn?_isSome_iff, TimeSamples.timesIn?_isSome_iff]
  refine ⟨fun samples _ => samples.window_stop_le first last, hplaces, ?_, ?_⟩
  . exact fun hle => hplaces.2 fun samples _ => samples.window_start_le_stop hle
  . intro horder
    rw [hplaces]
    exact forall₂_congr fun samples hmem =>
      (horder samples hmem).window_start_le_stop_iff_countCrossed_le first last

def fiveSamples : TimeSamples where
  entries := [(⟨0xc0000000⟩, .int 0), (⟨0xbf800000⟩, .int 1), (⟨0x3f000000⟩, .int 2),
    (⟨0x40000000⟩, .int 3), (⟨0x40400000⟩, .int 4)]
  nonempty := List.cons_ne_nil _ _

theorem ofList?_fiveSamples : TimeSamples.ofList? fiveSamples.entries = some fiveSamples := by
  have hsorted : (fiveSamples.entries.mergeSort fun a b => a.1.rankLE b.1) = fiveSamples.entries :=
    List.mergeSort_of_pairwise (by decide)
  simp only [TimeSamples.ofList?, hsorted]
  rfl

-- An interval from 0 to 2.5, and one from 2.5 to -0.5 that crosses two of the samples.
theorem Composition.timesIn?_isSome_iff_countCrossed_le_fiveSamples :
    let c := combined Value.mulTransforms (constant (.int 5)) (held fiveSamples)
    let first : Time := ⟨0x40200000⟩
    let last : Time := ⟨0xbf000000⟩
    (∀ samples ∈ c.parts, samples.InOrder) ∧ Time.zero.atOrBefore first ∧
      (c.source.timesIn? .zero first).isSome ∧
      (∀ samples ∈ c.parts, samples.countCrossed first last = 2) ∧
      (c.source.timesIn? first last).isSome := by
  intro c first last
  have horder : ∀ samples ∈ c.parts, samples.InOrder := by
    intro samples hmem
    cases List.mem_singleton.1 hmem
    exact TimeSamples.inOrder_of_ofList? (by decide) ofList?_fiveSamples
  have hcrossed : ∀ samples ∈ c.parts, samples.countCrossed first last = 2 := by
    intro samples hmem
    cases List.mem_singleton.1 hmem
    decide
  have hle : Time.zero.atOrBefore first := rfl
  refine ⟨horder, hle, ?_, hcrossed, ?_⟩
  . exact (c.timesIn?_isSome_iff_countCrossed_le .zero first).2.2.1 hle
  . refine ((c.timesIn?_isSome_iff_countCrossed_le first last).2.2.2 horder).2 ?_
    exact fun samples hmem => Nat.le_of_eq (hcrossed samples hmem)

-- An interval from 5 to -5 crosses all of the samples: it would be cut from place 4 up to place 1.
theorem timesIn?_fiveSamples_eq_none :
    let first : Time := ⟨0x40a00000⟩
    let last : Time := ⟨0xc0a00000⟩
    TimeSamples.ofList? fiveSamples.entries = some fiveSamples ∧
      fiveSamples.window first last = (4, 1) ∧
      (held fiveSamples).timesIn? first last = none ∧
      (combined Value.mulTransforms (constant (.int 5)) (held fiveSamples)).timesIn? first last
        = none := by
  intro first last
  have hplaces : fiveSamples.window first last = (4, 1) := by decide +kernel
  have hnone : (held fiveSamples).timesIn? first last = none := by
    have hsome := fiveSamples.timesIn?_isSome_iff first last
    rw [hplaces] at hsome
    exact Option.not_isSome_iff_eq_none.1 (mt hsome.1 (by decide))
  refine ⟨ofList?_fiveSamples, hplaces, hnone, ?_⟩
  rw [combined_timesIn?, hnone]
  rfl

end Sampled

end SceneTree
