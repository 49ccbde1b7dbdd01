import SceneTree.Proofs.Sampled.Partition
import SceneTree.Proofs.Sampled.Zero

/-!
This module contains what the times that a source names for an interval tell about the source: at
every time of the interval its value is the one at the latest of them.
-/

namespace SceneTree

namespace SampleTimes

/--
The time of a list whose value is in force at a time: the greatest one at or before it, or the first
of the list if there is none.
-/
inductive InForce (times : List Time) (t : Time) : Time → Prop where
  | latest {s : Time} (mem : s ∈ times) (le : s.atOrBefore t)
      (greatest : ∀ other ∈ times, other.atOrBefore t → other.atOrBefore s) : InForce times t s
  | first {s : Time} (head : times.head? = some s)
      (behind : ∀ other ∈ times, ¬other.atOrBefore t) : InForce times t s

/--
A list of times does not tell two times apart: the same ones of it are at or before both, or all of
it is behind the second one and not before the first one.
-/
inductive Alike (times : List Time) (u v : Time) : Prop where
  | between (h : ∀ a ∈ times, a.atOrBefore u = a.atOrBefore v)
  | ahead (h : ∀ a ∈ times, u.atOrBefore a ∧ v.before a)

theorem Alike.of_sameAs {as bs : List Time} {u v : Time} (hmem : ∀ a ∈ as, ∃ b ∈ bs, b.sameAs a)
    (h : Alike bs u v) : Alike as u v := by
  cases h with
  | between h =>
    refine .between fun a ha => ?_
    obtain ⟨b, hb, hsame⟩ := hmem a ha
    have := h b hb
    grind
  | ahead h =>
    refine .ahead fun a ha => ?_
    obtain ⟨b, hb, hsame⟩ := hmem a ha
    have := h b hb
    grind

section Ascending

variable {times : List Time} (hascending : times.Pairwise fun a b => a.before b)

include hascending

theorem eq_or_before_of_head? {s a : Time} (hhead : times.head? = some s) (ha : a ∈ times) :
    a = s ∨ s.before a := by
  obtain ⟨rest, heq⟩ := List.head?_eq_some_iff.1 hhead
  subst heq
  exact (List.mem_cons.1 ha).imp_right (List.rel_of_pairwise_cons hascending)

-- The times at or before a given one lead the list, so the last of these is in force.
theorem inForce_getElem (t : Time)
    (hindex : (times.takeWhile (·.atOrBefore t)).length - 1 < times.length) :
    InForce times t times[(times.takeWhile (·.atOrBefore t)).length - 1] := by
  have hlt {i : Nat} (hi : i < times.length) :=
    lt_length_takeWhile_iff (p := (·.atOrBefore t)) (hascending.imp (by grind)) hi
  generalize hcount : (times.takeWhile (·.atOrBefore t)).length = count at hlt hindex
  cases count with
  | zero =>
    refine .first (List.head?_eq_getElem?.trans (List.getElem?_eq_getElem hindex)) ?_
    intro other hother hle
    obtain ⟨i, hi, heq⟩ := List.mem_iff_getElem.1 hother
    exact Nat.not_lt_zero i ((hlt hi).2 (heq ▸ hle))
  | succ count =>
    refine .latest (List.getElem_mem hindex) ((hlt hindex).1 (Nat.lt_succ_self count)) ?_
    intro other hother hother_le
    obtain ⟨i, hi, heq⟩ := List.mem_iff_getElem.1 hother
    subst heq
    have hi_le : i ≤ count := Nat.le_of_lt_succ ((hlt hi).2 hother_le)
    rcases Nat.eq_or_lt_of_le hi_le with heq | hi_lt
    . subst heq
      grind
    . have := List.pairwise_iff_getElem.1 hascending i count hi hindex hi_lt
      grind

theorem exists_inForce (hne : times ≠ []) (t : Time) : ∃ s, InForce times t s := by
  have hcount : (times.takeWhile (·.atOrBefore t)).length ≤ times.length :=
    (List.takeWhile_prefix _).length_le
  have hpos := List.length_pos_iff.2 hne
  exact ⟨_, inForce_getElem hascending t (by omega)⟩

theorem InForce.alike (hnumber : ∀ a ∈ times, a.isNaN = false) {t s : Time} (ht : t.isNaN = false)
    (h : InForce times t s) : Alike times s t := by
  cases h with
  | latest mem le greatest =>
    refine .between fun a ha => ?_
    have := greatest a ha
    grind
  | first head behind =>
    refine .ahead fun a ha => ?_
    have hsa := eq_or_before_of_head? hascending head ha
    have hbehind := behind a ha
    have hnumber := hnumber a ha
    grind

end Ascending

end SampleTimes

namespace TimeSamples

structure Ascending (samples : TimeSamples) : Prop where
  numbers : ∀ entry ∈ samples.entries, entry.1.isNaN = false
  ascending : samples.entries.Pairwise fun a b => a.1.before b.1

theorem ascending_of_ofList? {entries : List (Time × Value)} {samples : TimeSamples}
    (hnumber : ∀ entry ∈ entries, entry.1.isNaN = false) (h : ofList? entries = some samples) :
    samples.Ascending := by
  have hentries := entries_of_ofList? h
  constructor
  . intro entry hentry
    rw [hentries] at hentry
    exact hnumber entry (SampleTimes.mem_of_mem_ordered hentry)
  . rw [hentries]
    exact SampleTimes.ordered_pairwise _ hnumber

def windowTimes (samples : TimeSamples) (first last : Time) : List Time :=
  let (start, stop) := samples.window first last
  ((samples.entries.take stop).drop start).map (·.1)

theorem timesIn?_eq (samples : TimeSamples) {first last : Time} (hle : first.atOrBefore last) :
    samples.timesIn? first last
      =
    some (if samples.entries.length < 2 then .static
      else .samples (samples.windowTimes first last)) := by
  have hbefore := samples.partitionPoint_before_le hle
  have hcount := samples.partitionPoint_le (·.before first)
  unfold timesIn?
  split
  . rfl
  . have hplaces : (samples.window first last).1 ≤ (samples.window first last).2 ∧
        (samples.window first last).2 ≤ samples.entries.length := by
      unfold window
      dsimp only
      omega
    unfold slice?
    dsimp only
    rw [if_pos hplaces]
    rfl

theorem windowTimes_sublist (samples : TimeSamples) (first last : Time) :
    (samples.windowTimes first last).Sublist (samples.entries.map (·.1)) :=
  ((List.drop_sublist _ _).trans (List.take_sublist _ _)).map _

theorem mem_windowTimes {samples : TimeSamples} {first last : Time} {i : Nat}
    (hi : i < samples.entries.length) (hstart : samples.partitionPoint (·.before first) - 1 ≤ i)
    (hstop : i ≤ samples.partitionPoint (·.atOrBefore last)) :
    samples.entries[i].1 ∈ samples.windowTimes first last := by
  unfold windowTimes window
  dsimp only
  apply List.mem_map_of_mem
  refine List.mem_iff_getElem?.2 ⟨i - (samples.partitionPoint (·.before first) - 1), ?_⟩
  rw [List.getElem?_drop, Nat.add_sub_cancel' hstart, List.getElem?_take_of_lt (by omega),
    List.getElem?_eq_getElem hi]

-- The first sample of the window is the one before the interval, or the first of all.
theorem windowTimes_ne_nil (samples : TimeSamples) {first last : Time}
    (hle : first.atOrBefore last) : samples.windowTimes first last ≠ [] := by
  have hcount := samples.partitionPoint_le (·.before first)
  have hpos := List.length_pos_iff.2 samples.nonempty
  have hbefore := samples.partitionPoint_before_le hle
  have hstart : samples.partitionPoint (·.before first) - 1 < samples.entries.length := by omega
  exact List.ne_nil_of_mem (mem_windowTimes hstart (Nat.le_refl _) (by omega))

theorem valueAt_congr (samples : TimeSamples) {u v : Time} (h : samples.index u = samples.index v) :
    samples.valueAt u = samples.valueAt v := by
  unfold valueAt
  simp only [h]

namespace Ascending

variable {samples : TimeSamples} (h : samples.Ascending)

include h

theorem leads (t : Time) :
    samples.entries.Pairwise fun a b => b.1.atOrBefore t → a.1.atOrBefore t :=
  h.ascending.imp (by grind)

theorem lt_partitionPoint_iff (t : Time) {i : Nat} (hi : i < samples.entries.length) :
    i < samples.partitionPoint (·.atOrBefore t) ↔ samples.entries[i].1.atOrBefore t :=
  TimeSamples.lt_partitionPoint_iff (h.leads t) hi

-- A time of the interval counts all samples that are before the window and none that is behind it.
theorem index_eq_of_between {first last u v : Time} (hfirst : first.atOrBefore v)
    (hlast : v.atOrBefore last)
    (hbetween : ∀ a ∈ samples.windowTimes first last, a.atOrBefore u = a.atOrBefore v) :
    samples.index u = samples.index v := by
  have hbefore := samples.partitionPoint_before_le hfirst
  have hafter := samples.partitionPoint_atOrBefore_le hlast
  have hu := samples.partitionPoint_le (·.atOrBefore u)
  have hv := samples.partitionPoint_le (·.atOrBefore v)
  have hiff {i : Nat} (hi : i < samples.entries.length)
      (hstart : samples.partitionPoint (·.before first) - 1 ≤ i)
      (hstop : i ≤ samples.partitionPoint (·.atOrBefore last)) :
      i < samples.partitionPoint (·.atOrBefore u) ↔ i < samples.partitionPoint (·.atOrBefore v) := by
    rw [h.lt_partitionPoint_iff u hi, h.lt_partitionPoint_iff v hi,
      hbetween _ (mem_windowTimes hi hstart hstop)]
  have hle : samples.partitionPoint (·.atOrBefore u) ≤ samples.partitionPoint (·.atOrBefore v) := by
    refine Nat.le_of_not_lt fun hlt => ?_
    have := hiff (i := samples.partitionPoint (·.atOrBefore v)) (by omega) (by omega) hafter
    omega
  unfold index
  by_cases hzero : samples.partitionPoint (·.atOrBefore v) = 0
  . omega
  . have := hiff (i := samples.partitionPoint (·.atOrBefore v) - 1) (by omega) (by omega) (by omega)
    omega

-- The first sample of the window is behind a time of the interval only if it is the first of all.
theorem index_eq_of_ahead {first last u v : Time} (hfirst : first.atOrBefore v)
    (hlast : v.atOrBefore last)
    (hahead : ∀ a ∈ samples.windowTimes first last, u.atOrBefore a ∧ v.before a) :
    samples.index u = samples.index v := by
  have hbefore := samples.partitionPoint_before_le hfirst
  have hafter := samples.partitionPoint_atOrBefore_le hlast
  have hu := samples.partitionPoint_le (·.atOrBefore u)
  have hv := samples.partitionPoint_le (·.atOrBefore v)
  have hpos := List.length_pos_iff.2 samples.nonempty
  have hnone : samples.partitionPoint (·.atOrBefore v) = 0 := by
    have hstart : samples.partitionPoint (·.before first) - 1 < samples.entries.length := by omega
    obtain ⟨_, hlt⟩ := hahead _ (mem_windowTimes hstart (Nat.le_refl _) (by omega))
    have := mt (h.lt_partitionPoint_iff v hstart).1 (by grind)
    omega
  have hone : samples.partitionPoint (·.atOrBefore u) ≤ 1 := by
    refine Nat.le_of_not_lt fun hmore => ?_
    have hsecond : 1 < samples.entries.length := by omega
    obtain ⟨hle, _⟩ := hahead _ (mem_windowTimes hpos (by omega) (Nat.zero_le _))
    have hlt := List.pairwise_iff_getElem.1 h.ascending 0 1 hpos hsecond Nat.one_pos
    have hsecond_le := (h.lt_partitionPoint_iff u hsecond).1 hmore
    grind
  unfold index
  omega

end Ascending

end TimeSamples

namespace Sampled

inductive Timed : Sampled → Prop where
  | constant (value : Value) : Timed (constant value)
  | held {entries : List (Time × Value)} {samples : TimeSamples}
      (numbers : ∀ entry ∈ entries, entry.1.isNaN = false)
      (ofList : TimeSamples.ofList? entries = some samples) : Timed (held samples)
  | combined (combine : Value → Value → Value) {outer inner : Sampled} (outerTimed : Timed outer)
      (innerTimed : Timed inner) : Timed (combined combine outer inner)

theorem Timed.built {s : Sampled} (h : s.Timed) : s.Built := by
  induction h with
  | constant value => exact .constant value
  | held _ _ => exact .held _
  | combined combine _ _ houter hinner => exact .combined combine houter hinner

-- What was found once for the current frame is what would be found at any zero.
theorem combined_valueAt {combine : Value → Value → Value} {outer inner : Sampled}
    (houter : outer.Built) (hinner : inner.Built) (t : Time) :
    (combined combine outer inner).valueAt t
      =
    combine (outer.valueAt t) (inner.valueAt t) := by
  dsimp only [combined]
  split
  . next hzero => rw [houter.valueAt_congr hzero, hinner.valueAt_congr hzero]
  . rfl

theorem combined_timesIn? (combine : Value → Value → Value) (outer inner : Sampled)
    (first last : Time) :
    (combined combine outer inner).timesIn? first last
      =
    (outer.timesIn? first last).bind fun times =>
      (inner.timesIn? first last).map times.merge := by
  dsimp only [combined, mergedTimes?]
  cases houter : outer.timesIn? first last with
  | none => simp [houter]
  | some times =>
    cases hinner : inner.timesIn? first last with
    | none => simp [houter, hinner]
    | some others => simp [houter, hinner, SampleTimes.static_merge]

/--
The times that a source names for an interval. If it has no answer, no list captures its value.
-/
def timesIn (s : Sampled) (first last : Time) : SampleTimes :=
  (s.timesIn? first last).getD .unbounded

theorem combined_timesIn (combine : Value → Value → Value) (outer inner : Sampled)
    (first last : Time) :
    (combined combine outer inner).timesIn first last
      =
    (outer.timesIn first last).merge (inner.timesIn first last) := by
  unfold timesIn
  rw [combined_timesIn?]
  cases outer.timesIn? first last with
  | none => rfl
  | some times =>
    cases inner.timesIn? first last with
    | none => exact (SampleTimes.merge_unbounded times).symm
    | some others => rfl

/--
The value at a time of an interval is the one at each time that the given times do not tell from it.
-/
def DecidedBy (s : Sampled) (first last : Time) (times : List Time) : Prop :=
  ∀ u v, first.atOrBefore v → v.atOrBefore last → SampleTimes.Alike times u v →
    s.valueAt u = s.valueAt v

structure KnownAt (s : Sampled) (first last : Time) (times : List Time) : Prop where
  nonempty : times ≠ []
  numbers : ∀ a ∈ times, a.isNaN = false
  ascending : times.Pairwise fun a b => a.before b
  decided : s.DecidedBy first last times

def Known (s : Sampled) (first last : Time) : SampleTimes → Prop
  | .static => ∀ u v, s.valueAt u = s.valueAt v
  | .samples times => s.KnownAt first last times
  | .unbounded => False

theorem DecidedBy.of_sameAs {s : Sampled} {first last : Time} {as bs : List Time}
    (hmem : ∀ a ∈ as, ∃ b ∈ bs, b.sameAs a) (h : s.DecidedBy first last as) :
    s.DecidedBy first last bs :=
  fun u v hfirst hlast halike => h u v hfirst hlast (halike.of_sameAs hmem)

theorem DecidedBy.of_static {s : Sampled} {first last : Time} (h : ∀ u v, s.valueAt u = s.valueAt v)
    (times : List Time) : s.DecidedBy first last times :=
  fun u v _ _ _ => h u v

section Combined

variable {combine : Value → Value → Value} {outer inner : Sampled} (houter : outer.Built)
  (hinner : inner.Built) {first last : Time}

include houter hinner

theorem DecidedBy.combined {times : List Time} (hdecidedOuter : outer.DecidedBy first last times)
    (hdecidedInner : inner.DecidedBy first last times) :
    (Sampled.combined combine outer inner).DecidedBy first last times := by
  intro u v hfirst hlast halike
  rw [combined_valueAt houter hinner, combined_valueAt houter hinner,
    hdecidedOuter u v hfirst hlast halike, hdecidedInner u v hfirst hlast halike]

theorem KnownAt.combined {as bs : List Time} (hknownOuter : outer.KnownAt first last as)
    (hknownInner : inner.KnownAt first last bs) :
    (Sampled.combined combine outer inner).KnownAt first last
      (SampleTimes.ordered id (as ++ bs)) := by
  have hnumber : ∀ a ∈ as ++ bs, a.isNaN = false := by
    intro a ha
    exact (List.mem_append.1 ha).elim (hknownOuter.numbers a) (hknownInner.numbers a)
  have hmem {a : Time} (ha : a ∈ as ++ bs) := SampleTimes.exists_mem_ordered id hnumber ha
  constructor
  . obtain ⟨a, ha⟩ := List.exists_mem_of_ne_nil as hknownOuter.nonempty
    obtain ⟨b, hb, _⟩ := hmem (List.mem_append_left bs ha)
    exact List.ne_nil_of_mem hb
  . exact fun a ha => hnumber a (SampleTimes.mem_of_mem_ordered ha)
  . exact SampleTimes.ordered_pairwise id hnumber
  . apply DecidedBy.combined houter hinner
    . exact hknownOuter.decided.of_sameAs fun a ha => hmem (List.mem_append_left bs ha)
    . exact hknownInner.decided.of_sameAs fun a ha => hmem (List.mem_append_right as ha)

theorem Known.combined {outerTimes innerTimes : SampleTimes}
    (hknownOuter : outer.Known first last outerTimes)
    (hknownInner : inner.Known first last innerTimes) :
    (Sampled.combined combine outer inner).Known first last (outerTimes.merge innerTimes) := by
  cases outerTimes with
  | static =>
    cases innerTimes with
    | static =>
      intro u v
      rw [combined_valueAt houter hinner, combined_valueAt houter hinner, hknownOuter u v,
        hknownInner u v]
    | samples times =>
      exact { hknownInner with
        decided := .combined houter hinner (.of_static hknownOuter times) hknownInner.decided }
    | unbounded => exact hknownInner.elim
  | samples times =>
    cases innerTimes with
    | static =>
      exact { hknownOuter with
        decided := .combined houter hinner hknownOuter.decided (.of_static hknownInner times) }
    | samples others =>
      rw [SampleTimes.merge_samples]
      exact KnownAt.combined houter hinner hknownOuter hknownInner
    | unbounded => exact hknownInner.elim
  | unbounded => exact hknownOuter.elim

end Combined

theorem known_held {samples : TimeSamples} (h : samples.Ascending) {first last : Time}
    (hle : first.atOrBefore last) :
    (held samples).Known first last ((held samples).timesIn first last) := by
  change (held samples).Known first last ((samples.timesIn? first last).getD .unbounded)
  rw [samples.timesIn?_eq hle, Option.getD_some]
  split
  . next hsingle =>
    intro u v
    have hu := samples.index_lt u
    have hv := samples.index_lt v
    exact samples.valueAt_congr (by omega)
  . constructor
    . exact samples.windowTimes_ne_nil hle
    . intro a ha
      have ha := (samples.windowTimes_sublist first last).subset ha
      obtain ⟨entry, hentry, heq⟩ := List.mem_map.1 ha
      exact heq ▸ h.numbers entry hentry
    . exact (List.pairwise_map.2 h.ascending).sublist (samples.windowTimes_sublist first last)
    . intro u v hfirst hlast halike
      apply samples.valueAt_congr
      cases halike with
      | between hbetween => exact h.index_eq_of_between hfirst hlast hbetween
      | ahead hahead => exact h.index_eq_of_ahead hfirst hlast hahead

theorem Timed.known {s : Sampled} (h : s.Timed) {first last : Time}
    (hle : first.atOrBefore last) : s.Known first last (s.timesIn first last) := by
  induction h with
  | constant value => exact fun _ _ => rfl
  | held numbers ofList => exact known_held (TimeSamples.ascending_of_ofList? numbers ofList) hle
  | combined combine outerTimed innerTimed houter hinner =>
    rw [combined_timesIn]
    exact houter.combined outerTimed.built innerTimed.built hinner

theorem Timed.timesIn_suffice {s : Sampled} (h : s.Timed) {first last : Time}
    (hle : first.atOrBefore last) :
    match s.timesIn first last with
    | .static => ∀ u v, s.valueAt u = s.valueAt v
    | .samples times => times ≠ [] ∧ (times.Pairwise fun a b => a.before b) ∧
      ∀ t, first.atOrBefore t → t.atOrBefore last →
        (∃ a, SampleTimes.InForce times t a) ∧
          ∀ a, SampleTimes.InForce times t a → s.valueAt t = s.valueAt a
    | .unbounded => False := by
  have hknown := h.known hle
  cases htimes : s.timesIn first last with
  | static =>
    rw [htimes] at hknown
    exact hknown
  | samples times =>
    rw [htimes] at hknown
    refine ⟨hknown.nonempty, hknown.ascending, fun t hfirst hlast => ?_⟩
    refine ⟨SampleTimes.exists_inForce hknown.ascending hknown.nonempty t, fun a ha => ?_⟩
    have ht : t.isNaN = false := (Time.atOrBefore_iff.1 hfirst).2.1
    exact (hknown.decided a t hfirst hlast (ha.alike hknown.ascending hknown.numbers ht)).symm
  | unbounded =>
    rw [htimes] at hknown
    exact hknown

-- Samples at the start of an interval and in the middle of it, above samples there and at its end.
theorem timesIn_suffice_merged :
    let middle : Time := ⟨0x3f800000⟩
    let last : Time := ⟨0x40000000⟩
    let outer : TimeSamples := ⟨[(.zero, .int 1), (middle, .int 2)], by simp⟩
    let inner : TimeSamples := ⟨[(middle, .int 3), (last, .int 4)], by simp⟩
    let s := combined Value.mulTransforms (held outer) (held inner)
    let times := [.zero, middle, last]
    TimeSamples.ofList? outer.entries = some outer ∧
      TimeSamples.ofList? inner.entries = some inner ∧
      s.Timed ∧ Time.zero.atOrBefore last ∧ s.timesIn .zero last = .samples times ∧
      ∀ t, Time.zero.atOrBefore t → t.atOrBefore last →
        (∃ a, SampleTimes.InForce times t a) ∧
          ∀ a, SampleTimes.InForce times t a → s.valueAt t = s.valueAt a := by
  intro middle last outer inner s times
  have houter : TimeSamples.ofList? outer.entries = some outer := by
    have hsorted : (outer.entries.mergeSort fun a b => a.1.rankLE b.1) = outer.entries :=
      List.mergeSort_of_pairwise (by decide)
    simp only [TimeSamples.ofList?, hsorted]
    rfl
  have hinner : TimeSamples.ofList? inner.entries = some inner := by
    have hsorted : (inner.entries.mergeSort fun a b => a.1.rankLE b.1) = inner.entries :=
      List.mergeSort_of_pairwise (by decide)
    simp only [TimeSamples.ofList?, hsorted]
    rfl
  have hle : Time.zero.atOrBefore last := by decide
  have htimes : s.timesIn .zero last = .samples times := by
    have houterTimes : (held outer).timesIn .zero last = .samples [.zero, middle] := by
      decide +kernel
    have hinnerTimes : (held inner).timesIn .zero last = .samples [middle, last] := by
      decide +kernel
    rw [combined_timesIn, houterTimes, hinnerTimes, SampleTimes.merge_samples]
    unfold SampleTimes.ordered
    rw [List.mergeSort_of_pairwise (by decide)]
    rfl
  have htimed : s.Timed := .combined _ (.held (by decide) houter) (.held (by decide) hinner)
  have hsuffice := htimed.timesIn_suffice hle
  rw [htimes] at hsuffice
  exact ⟨houter, hinner, htimed, hle, htimes, hsuffice.2.2⟩

end Sampled

end SceneTree
