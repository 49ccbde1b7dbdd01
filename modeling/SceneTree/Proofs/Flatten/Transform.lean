import Mathlib.Data.List.Basic
import Mathlib.Data.List.TakeWhile
import SceneTree.Proofs.Flatten.Cache
import SceneTree.Proofs.Flatten.Inherited
import SceneTree.Proofs.Path.Chain
import SceneTree.Proofs.Sampled.Zero

/-!
This module contains the closed form of flattened transforms: the product of the transforms on the
way from the root, or from the deepest prim that sets its transform without regard to its parent,
multiplied from above. It is the same for any product of matrices.
-/

namespace SceneTree

namespace Scene

/-! ## Products along a chain -/

def ownMatrix? (scene : Scene) (path : Path) : Option Sampled :=
  ((scene.prim? path).bind (·.at? ["xform", "matrix"])).bind Source.sampled?

def resetsAt (scene : Scene) (path : Path) : Bool :=
  ((scene.prim? path).bind (·.at? ["xform", "resetXformStack"])).bind
    (·.typed? Value.toBool? Time.zero) == some true

/--
The part of the chain that bears on the transform at a path: from the deepest reset on.
-/
def links (scene : Scene) (path : Path) : List Path :=
  match path.deepest? scene.resetsAt with
  | none => path.chain
  | some top => path.chain.dropWhile (· ≠ top)

def transforms (scene : Scene) (path : Path) : List (Path × Sampled) :=
  (scene.links path).filterMap fun link => (scene.ownMatrix? link).map fun s => (link, s)

/--
What the transform from a prim to the world is made of: where its product starts, and what this is
multiplied by, from above. The product starts with the first transform itself if that is the one of
the reset, or of the root where there is no reset, and with the identity otherwise.
-/
def factors (scene : Scene) (path : Path) : Sampled × List Sampled :=
  match scene.transforms path with
  | [] => (.constant (.matrix .identity), [])
  | first :: rest =>
    if path.deepest? scene.resetsAt = some first.1 ∨
        path.deepest? scene.resetsAt = none ∧ first.1 = .root then
      (first.2, rest.map (·.2))
    else (.constant (.matrix .identity), (first :: rest).map (·.2))

def worldValue (mul : Matrix → Matrix → Matrix) (scene : Scene) (path : Path) (t : Time) : Value :=
  let (start, inner) := scene.factors path
  inner.foldl (fun outer s => outer.mulTransformsBy mul (s.valueAt t)) (start.valueAt t)

theorem links_of_resetsAt {scene : Scene} {path : Path} (h : scene.resetsAt path) :
    scene.links path = [path] := by
  unfold links
  rw [Path.deepest?_eq, if_pos h]
  dsimp only
  cases hparent : path.parent? with
  | none =>
    rw [Path.chain_of_parent?_eq_none hparent]
    simp
  | some parent =>
    rw [Path.chain_of_parent? hparent, List.dropWhile_append_of_pos]
    . simp
    . intro link hlink
      simpa using Path.ne_of_mem_chain hparent hlink

theorem links_of_root {scene : Scene} {path : Path} (h : path.parent? = none) :
    scene.links path = [path] := by
  by_cases hresets : scene.resetsAt path
  . exact links_of_resetsAt hresets
  . unfold links
    rw [Path.deepest?_eq, if_neg hresets, h]
    exact Path.chain_of_parent?_eq_none h

theorem links_of_parent? {scene : Scene} {path parent : Path} (h : path.parent? = some parent)
    (hresets : ¬ scene.resetsAt path) : scene.links path = scene.links parent ++ [path] := by
  unfold links
  rw [Path.deepest?_eq, if_neg hresets, h, Path.chain_of_parent? h, Option.bind_some]
  cases hdeepest : parent.deepest? scene.resetsAt with
  | none => rfl
  | some top =>
    have hmem := Path.mem_chain_of_deepest? hdeepest
    dsimp only
    rw [List.dropWhile_append, if_neg]
    intro hempty
    rw [List.isEmpty_iff, List.dropWhile_eq_nil_iff] at hempty
    simpa using hempty top hmem

theorem transforms_of_links {scene : Scene} {path : Path} {above : List Path}
    (h : scene.links path = above ++ [path]) :
    scene.transforms path
      =
    (above.filterMap fun link => (scene.ownMatrix? link).map fun s => (link, s)) ++
      ((scene.ownMatrix? path).map fun s => (path, s)).toList := by
  unfold transforms
  rw [h, List.filterMap_append]
  cases hown : scene.ownMatrix? path <;> simp [hown]

theorem factors_of_links {scene : Scene} {path : Path} (h : scene.links path = [path])
    (hfirst : path.deepest? scene.resetsAt = some path ∨
      path.deepest? scene.resetsAt = none ∧ path = .root) :
    scene.factors path = ((scene.ownMatrix? path).getD (.constant (.matrix .identity)), []) := by
  have htransforms := transforms_of_links (h.trans (List.nil_append [path]).symm)
  unfold factors
  rw [htransforms]
  cases scene.ownMatrix? path with
  | none => rfl
  | some s => exact if_pos hfirst

theorem factors_of_resetsAt {scene : Scene} {path : Path} (h : scene.resetsAt path) :
    scene.factors path = ((scene.ownMatrix? path).getD (.constant (.matrix .identity)), []) := by
  apply factors_of_links (links_of_resetsAt h)
  rw [Path.deepest?_eq, if_pos h]
  exact .inl rfl

theorem factors_of_root (scene : Scene) {path : Path} (h : path.parent? = none) :
    scene.factors path = ((scene.ownMatrix? path).getD (.constant (.matrix .identity)), []) := by
  by_cases hresets : scene.resetsAt path
  . exact factors_of_resetsAt hresets
  . apply factors_of_links (links_of_root h)
    rw [Path.deepest?_eq, if_neg hresets, h]
    exact .inr ⟨rfl, (Path.parent?_eq_none_iff path).1 h⟩

theorem factors_of_parent? {scene : Scene} {path parent : Path} (h : path.parent? = some parent)
    (hresets : ¬ scene.resetsAt path) :
    scene.factors path
      =
    ((scene.factors parent).1, (scene.factors parent).2 ++ (scene.ownMatrix? path).toList) := by
  have hdeepest : path.deepest? scene.resetsAt = parent.deepest? scene.resetsAt := by
    rw [Path.deepest?_eq, if_neg hresets, h, Option.bind_some]
  have htransforms : scene.transforms path
      = scene.transforms parent ++ ((scene.ownMatrix? path).map fun s => (path, s)).toList :=
    transforms_of_links (links_of_parent? h hresets)
  unfold factors
  rw [htransforms, hdeepest]
  cases scene.ownMatrix? path with
  | none => simp
  | some s =>
    rw [Option.map_some, Option.toList_some, Option.toList_some]
    cases scene.transforms parent with
    | nil =>
      -- The prim is the first with a transform, but neither the reset nor the root.
      have hfirst : ¬ (parent.deepest? scene.resetsAt = some path ∨
          parent.deepest? scene.resetsAt = none ∧ path = .root) := by
        rintro (htop | ⟨_, hroot⟩)
        . exact Path.ne_of_mem_chain h (Path.mem_chain_of_deepest? htop) rfl
        . rw [← Path.parent?_eq_none_iff, h] at hroot
          cases hroot
      exact if_neg hfirst
    | cons first rest =>
      dsimp only [List.cons_append]
      split <;> simp

theorem worldValue_of_factors {scene : Scene} {path : Path} {start : Sampled}
    (h : scene.factors path = (start, [])) (mul : Matrix → Matrix → Matrix) (t : Time) :
    scene.worldValue mul path t = start.valueAt t := by
  unfold worldValue
  rw [h]
  rfl

theorem worldValue_of_parent? {scene : Scene} {path parent : Path}
    (h : path.parent? = some parent) (hresets : ¬ scene.resetsAt path) {s : Sampled}
    (hown : scene.ownMatrix? path = some s) (mul : Matrix → Matrix → Matrix) (t : Time) :
    scene.worldValue mul path t
      =
    (scene.worldValue mul parent t).mulTransformsBy mul (s.valueAt t) := by
  unfold worldValue
  rw [factors_of_parent? h hresets, hown]
  exact List.foldl_concat _ _ _ _

theorem worldValue_of_ownMatrix?_eq_none {scene : Scene} {path parent : Path}
    (h : path.parent? = some parent) (hresets : ¬ scene.resetsAt path)
    (hown : scene.ownMatrix? path = none) (mul : Matrix → Matrix → Matrix) (t : Time) :
    scene.worldValue mul path t = scene.worldValue mul parent t := by
  unfold worldValue
  rw [factors_of_parent? h hresets, hown, Option.toList_none, List.append_nil]

theorem worldValue_congr {scene : Scene} {t u : Time}
    (h : ∀ link s, scene.ownMatrix? link = some s → s.valueAt t = s.valueAt u)
    (mul : Matrix → Matrix → Matrix) (path : Path) :
    scene.worldValue mul path t = scene.worldValue mul path u := by
  have hstart : ∀ link, ((scene.ownMatrix? link).getD (.constant (.matrix .identity))).valueAt t
      = ((scene.ownMatrix? link).getD (.constant (.matrix .identity))).valueAt u := by
    intro link
    cases hown : scene.ownMatrix? link with
    | none => rfl
    | some s => exact h link s hown
  induction path using Path.induction with
  | h path ih =>
    by_cases hresets : scene.resetsAt path
    . have hfactors := factors_of_resetsAt hresets
      rw [worldValue_of_factors hfactors, worldValue_of_factors hfactors, hstart]
    . cases hparent : path.parent? with
      | none =>
        have hfactors := scene.factors_of_root hparent
        rw [worldValue_of_factors hfactors, worldValue_of_factors hfactors, hstart]
      | some parent =>
        have habove := ih parent hparent
        cases hown : scene.ownMatrix? path with
        | none =>
          rw [worldValue_of_ownMatrix?_eq_none hparent hresets hown,
            worldValue_of_ownMatrix?_eq_none hparent hresets hown, habove]
        | some s =>
          rw [worldValue_of_parent? hparent hresets hown,
            worldValue_of_parent? hparent hresets hown, habove, h path s hown]

/--
The time at which the sources of a flattened transform are read. If anything is multiplied, the zero
with a sign is the current frame, for which the product was found before.
-/
def readAt (scene : Scene) (path : Path) (t : Time) : Time :=
  if t = .negativeZero ∧ (scene.factors path).2 ≠ [] then .zero else t

theorem readAt_of_ne (scene : Scene) (path : Path) {t : Time} (h : t ≠ .negativeZero) :
    scene.readAt path t = t :=
  if_neg fun hzero => h hzero.1

theorem readAt_of_sameAs {scene : Scene} {path : Path} (hfactors : (scene.factors path).2 ≠ [])
    {t : Time} (h : t.sameAs .zero) : scene.readAt path t = .zero := by
  rcases (Time.sameAs_zero_iff t).1 h with heq | heq
  . rw [heq, readAt_of_ne scene path (by decide)]
  . exact if_pos ⟨heq, hfactors⟩

end Scene

/-! ## The rule for transforms -/

namespace Schema

theorem matrix?_eq (data : Option Container) :
    matrix? data = (data.bind (·.child "matrix")).bind Source.sampled? :=
  child?_leaf_bind data "matrix"

theorem resets_eq (data : Option Container) :
    resets data
      =
    ((data.bind (·.child "resetXformStack")).bind (·.typed? Value.toBool? Time.zero)
      == some true) := by
  have hread : (xform.field? data "resetXformStack").bind (·.typed? Value.toBool? Time.zero)
      = (data.bind (·.child "resetXformStack")).bind (·.typed? Value.toBool? Time.zero) := by
    unfold Source.typed?
    rw [← Option.bind_assoc, ← Option.bind_assoc]
    exact congrArg (Option.bind · _) (child?_leaf_bind data "resetXformStack")
  unfold resets
  rw [hread]
  rcases (data.bind (·.child "resetXformStack")).bind (·.typed? Value.toBool? Time.zero)
    with _ | _ | _
  all_goals rfl

end Schema

namespace FlattenRule

def completeMatrix (mul : Matrix → Matrix → Matrix) (own inherited : Option Container) : Sampled :=
  match Schema.resets own, Schema.matrix? own, Schema.matrix? inherited with
  | true, inner, _ => inner.getD (.constant (.matrix .identity))
  | false, none, outer => outer.getD (.constant (.matrix .identity))
  | false, some inner, none => inner
  | false, some inner, some outer => .combined (Value.mulTransformsBy mul) outer inner

theorem matrix?_flattenXform (mul : Matrix → Matrix → Matrix) (own inherited : Option Container) :
    Schema.matrix? (some (flattenXform mul own inherited))
      =
    some (completeMatrix mul own inherited) := by
  unfold flattenXform completeMatrix
  cases Schema.resets own with
  | true =>
    cases hown : Schema.matrix? own with
    | none => rfl
    | some inner =>
      cases own with
      | none => cases hown
      | some container => exact hown
  | false =>
    cases Schema.matrix? own with
    | none =>
      cases hinherited : Schema.matrix? inherited with
      | none => rfl
      | some outer =>
        cases inherited with
        | none => cases hinherited
        | some container => exact hinherited
    | some inner =>
      cases Schema.matrix? inherited <;> rfl

end FlattenRule

namespace Scene

theorem ownMatrix?_eq (scene : Scene) (path : Path) :
    scene.ownMatrix? path = Schema.matrix? ((scene.prim? path).bind (·.container? "xform")) := by
  unfold ownMatrix?
  rw [Schema.matrix?_eq]
  simp only [Container.at?_pair, Option.bind_assoc]

theorem resetsAt_eq (scene : Scene) (path : Path) :
    scene.resetsAt path = Schema.resets ((scene.prim? path).bind (·.container? "xform")) := by
  unfold resetsAt
  rw [Schema.resets_eq]
  simp only [Container.at?_pair, Option.bind_assoc]

-- The induction is on the path: the transform of the parent is what the prim's own is applied to.
-- A combination answers for both zeros with what it found at the one without a sign.
theorem matrix?_inherited (mul : Matrix → Matrix → Matrix) (scene : Scene) (path : Path) :
    ∃ s, Schema.matrix? (scene.inherited ("xform", .xformBy mul) path) = some s ∧
      ∀ t, s.valueAt t = scene.worldValue mul path (scene.readAt path t) := by
  induction path using Path.induction with
  | h path ih =>
    rw [inherited_eq]
    refine ⟨_, FlattenRule.matrix?_flattenXform mul _ _, ?_⟩
    intro t
    unfold FlattenRule.completeMatrix
    rw [← ownMatrix?_eq, ← resetsAt_eq]
    by_cases hresets : scene.resetsAt path
    . have hfactors := factors_of_resetsAt hresets
      rw [hresets, worldValue_of_factors hfactors, readAt, hfactors, if_neg (by simp)]
    . have hreads : scene.resetsAt path = false := by simpa using hresets
      rw [hreads]
      cases hparent : path.parent? with
      | none =>
        have hfactors := scene.factors_of_root hparent
        rw [worldValue_of_factors hfactors, readAt, hfactors, if_neg (by simp)]
        cases scene.ownMatrix? path <;> rfl
      | some parent =>
        obtain ⟨outer, houter, hvalue⟩ := ih parent hparent
        have hfactors := factors_of_parent? hparent hresets
        rw [Option.bind_some, houter]
        cases hown : scene.ownMatrix? path with
        | none =>
          have hsame : scene.factors path = scene.factors parent := by
            rw [hfactors, hown, Option.toList_none, List.append_nil]
          unfold worldValue readAt at *
          rw [hsame]
          exact hvalue t
        | some inner =>
          have hne : (scene.factors path).2 ≠ [] := by simp [hfactors, hown]
          rw [worldValue_of_parent? hparent hresets hown]
          dsimp only [Sampled.combined]
          split
          . next hsame =>
            rw [readAt_of_sameAs hne hsame, hvalue, readAt_of_ne scene parent (by decide)]
          . next hdiffers =>
            have ht : t ≠ .negativeZero := by
              intro heq
              exact hdiffers (heq ▸ rfl)
            rw [readAt_of_ne scene path ht, hvalue, readAt_of_ne scene parent ht]

theorem flattened_matrix (mul : Matrix → Matrix → Matrix) (scene : Scene) (path : Path) :
    ∃ s, ((scene.flattened (.standardBy mul) path).at? ["xform", "matrix"]).bind Source.sampled?
        = some s ∧
      ∀ t, s.valueAt t = scene.worldValue mul path (scene.readAt path t) := by
  obtain ⟨s, hmatrix, hvalue⟩ := scene.matrix?_inherited mul path
  refine ⟨s, ?_, hvalue⟩
  have hrule : ("xform", .xformBy mul) ∈ FlattenRules.standardBy mul := List.mem_cons_self
  have hnames : (Dict.keys (FlattenRules.standardBy mul)).Nodup := by
    change ["xform", "visibility"].Nodup
    decide
  rw [Schema.matrix?_eq] at hmatrix
  rw [scene.flattened_at?_of_mem hnames hrule]
  simpa only [Container.at?_singleton] using hmatrix

open FlattenCache (AllAnnounced sceneAfter)

theorem valueAt_flattened_eq_worldValue (mul : Matrix → Matrix → Matrix) (scene : Scene)
    (calls : List FlattenCache.Call) (hannounced : AllAnnounced (.standardBy mul) scene calls)
    (path : Path) (hcontains : (sceneAfter scene calls).contains path) :
    let current := sceneAfter scene calls
    ∃ s, ((((FlattenCache.new scene (.standardBy mul)).run calls).prim? path).1.bind
          (·.at? ["xform", "matrix"])).bind Source.sampled? = some s ∧
      (∀ t, t ≠ .negativeZero ∨ (current.factors path).2 = [] →
        s.valueAt t = current.worldValue mul path t) ∧
      ((current.factors path).2 ≠ [] →
        s.valueAt .negativeZero = current.worldValue mul path .zero) ∧
      ((∀ link s, current.ownMatrix? link = some s → s.valueAt .negativeZero = s.valueAt .zero) →
        ∀ t, s.valueAt t = current.worldValue mul path t) := by
  intro current
  obtain ⟨hscene, hrules, hvalid⟩ :=
    (FlattenCache.new_valid scene (.standardBy mul)).run
      (fun _ hrule set _ => FlattenRules.isEmpty_spread_standardBy hrule set) hannounced
  have hlookup : (((FlattenCache.new scene (.standardBy mul)).run calls).prim? path).1
      = some (current.flattened (.standardBy mul) path) := by
    rw [(hvalid.prim? path).1, hscene, hrules]
    exact if_pos hcontains
  obtain ⟨s, hmatrix, hvalue⟩ := current.flattened_matrix mul path
  rw [hlookup]
  refine ⟨s, hmatrix, ?_, ?_, ?_⟩
  . rintro t (ht | hfactors)
    . rw [hvalue, readAt_of_ne current path ht]
    . rw [hvalue, readAt, if_neg fun hzero => hzero.2 hfactors]
  . intro hfactors
    rw [hvalue, readAt_of_sameAs hfactors rfl]
  . intro hzero t
    rw [hvalue, readAt]
    split
    . next hnegative => rw [hnegative.1, worldValue_congr hzero]
    . rfl

-- Held samples that reset the transform, changed after a prim far below them was looked up.
theorem valueAt_flattened_eq_worldValue_reset :
    let outer : Path := ⟨["a"], by decide⟩
    let inner : Path := ⟨["a", "b", "c"], by decide⟩
    let samples : TimeSamples := ⟨[(Time.zero, .matrix .identity), (⟨0x3f800000⟩, .int 1)], by simp⟩
    let top := FlattenRule.completeXform (.held samples)
    let own := Container.ofEntries [("matrix", some (.value (.matrix .identity)))]
    let scene : Scene := ⟨[
      (outer, .empty), (inner, Container.ofEntries [("xform", some own.source)])]⟩
    let calls : List FlattenCache.Call := [.lookup inner,
      .update outer (Container.ofEntries [("xform", some top.source)]) ⟨[["xform"]]⟩]
    let current := sceneAfter scene calls
    AllAnnounced (.standardBy Matrix.mul) scene calls ∧ current.contains inner ∧
      (current.factors inner).2 ≠ [] ∧
      (∀ link s, current.ownMatrix? link = some s → s.valueAt .negativeZero = s.valueAt .zero) ∧
      ∃ s, ((((FlattenCache.new scene (.standardBy Matrix.mul)).run calls).prim? inner).1.bind
            (·.at? ["xform", "matrix"])).bind Source.sampled? = some s ∧
        s.valueAt .negativeZero = current.worldValue Matrix.mul inner .zero ∧
        ∀ t, s.valueAt t = current.worldValue Matrix.mul inner t := by
  intro outer inner samples top own scene calls current
  have hannounced : AllAnnounced (.standardBy Matrix.mul) scene calls := by
    refine ⟨trivial, ?_, trivial⟩
    intro rule hrule hdiffers
    simp only [FlattenRules.standardBy, List.mem_cons, List.not_mem_nil, or_false] at hrule
    rcases hrule with hrule | hrule
    . subst hrule
      rfl
    . subst hrule
      exact absurd rfl hdiffers
  have hcontains : current.contains inner := by decide
  have hfactors : (current.factors inner).2 ≠ [] := by
    rw [← List.length_pos_iff]
    decide +kernel
  have hzero : ∀ link s, current.ownMatrix? link = some s →
      s.valueAt .negativeZero = s.valueAt .zero := by
    intro link s hown
    have hbuilt : s.Built := by
      unfold ownMatrix? prim? at hown
      simp only [current, calls, scene, sceneAfter, FlattenCache.Call.sceneAfter, List.foldl_cons,
        List.foldl_nil, insert, Dict.get?_insert, Dict.get?_cons, Dict.get?_nil] at hown
      split at hown
      . cases hown
        exact .held samples
      . split at hown
        . cases hown
          exact .constant _
        . cases hown
    exact hbuilt.valueAt_congr rfl
  obtain ⟨s, hread, _, hnegative, hvalue⟩ :=
    valueAt_flattened_eq_worldValue Matrix.mul scene calls hannounced inner hcontains
  exact ⟨hannounced, hcontains, hfactors, hzero, s, hread, hnegative hfactors, hvalue hzero⟩

-- A transform changes and the change is not announced, and a source tells the zeros apart.
theorem valueAt_flattened_ne_worldValue :
    let outer : Path := ⟨["a"], by decide⟩
    let inner : Path := ⟨["a", "b"], by decide⟩
    let moved := Value.matrix (.translation 1 0 0)
    let prim (s : Sampled) := Container.ofEntries
      [("xform", some (Source.ofEntries [("matrix", some (.sampled s))]))]
    let scene : Scene := ⟨[(outer, prim (.constant (.matrix .identity))), (inner, .empty)]⟩
    let calls : List FlattenCache.Call :=
      [.lookup inner, .update outer (prim (.constant moved)) .empty]
    let signed : Sampled := {
      valueAt := fun t => if t = .negativeZero then moved else .matrix .identity
      timesIn? := fun _ _ => some .unbounded }
    let other : Scene := ⟨[(outer, prim signed)]⟩
    (∃ s, ((((FlattenCache.new scene .standard).run calls).prim? inner).1.bind
            (·.at? ["xform", "matrix"])).bind Source.sampled? = some s ∧
        s.valueAt .zero ≠ (sceneAfter scene calls).worldValue Matrix.mul inner .zero) ∧
      ∃ s, ((((FlattenCache.new other .standard).prim? outer).1).bind
            (·.at? ["xform", "matrix"])).bind Source.sampled? = some s ∧
        s.valueAt .negativeZero ≠ other.worldValue Matrix.mul outer .negativeZero := by
  intro outer inner moved prim scene calls signed other
  constructor
  . obtain ⟨s, hmatrix, hvalue⟩ := scene.flattened_matrix Matrix.mul inner
    have hcontains : scene.contains inner := by decide
    have hne : outer ≠ inner := by decide
    have hkept : (((FlattenCache.new scene .standard).run calls).prim? inner).1
        = some (scene.flattened .standard inner) :=
      (FlattenCache.new_valid scene .standard).prim?_update_empty hcontains hne
        (prim (.constant moved))
    rw [hkept]
    refine ⟨s, hmatrix, ?_⟩
    rw [hvalue, readAt_of_ne scene inner (by decide)]
    intro heq
    have hx := congrArg (·.transform.c₃.x) heq
    revert hx
    decide +kernel
  . obtain ⟨s, hmatrix, hvalue⟩ := other.flattened_matrix Matrix.mul outer
    rw [FlattenCache.new_prim?, if_pos (by decide)]
    refine ⟨s, hmatrix, ?_⟩
    rw [hvalue]
    intro heq
    have hx := congrArg (·.transform.c₃.x) heq
    revert hx
    decide +kernel

end Scene

end SceneTree
