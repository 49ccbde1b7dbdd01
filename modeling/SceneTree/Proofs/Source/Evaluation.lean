import SceneTree.Proofs.Edit.Faithful

/-!
This module contains the evaluation of trees: looking names up in the value of a tree comes to the
value of what the tree holds in that place. Places without a value, blocks and missing children, are
left out of the dictionaries above them.
-/

namespace SceneTree

def Value.lookup? : Value → List String → Option Value
  | value, [] => some value
  | value, name :: rest =>
    (value.toDictionary?.bind (Dict.get? · name)).bind (·.lookup? rest)

namespace Source

theorem isSome_toValue (t : Time) (source : Source) :
    (source.toValue t).isSome = !source.isBlock := by
  cases source <;> simp [toValue, isBlock]

theorem childValue_eq (t : Time) (child : Option Source) :
    childValue t child = child.bind (·.toValue t) := by
  cases child <;> simp [childValue]

def childValues (t : Time) (c : Container) : Dict String Value :=
  c.names.filterMap fun name => ((c.child name).bind (·.toValue t)).map fun value => (name, value)

theorem keys_childValues (t : Time) (c : Container) :
    Dict.keys (childValues t c) = c.names.filter fun name => (c.child name).any (!·.isBlock) := by
  unfold childValues
  rw [Dict.keys_filterMap_keys]
  congr 1
  funext name
  cases c.child name with
  | none => rfl
  | some inner => exact inner.isSome_toValue t

theorem toValue_container (t : Time) {c : Container} (h : c.names.Nodup) :
    c.source.toValue t = some (.dictionary (childValues t c)) := by
  have hkeys : (Dict.keys (childValues t c)).Nodup := by
    rw [keys_childValues]
    exact h.filter _
  unfold Container.source toValue
  simp only [childValue_eq]
  exact congrArg (fun entries => some (Value.dictionary entries)) (Dict.ofList_of_nodup hkeys)

theorem get?_childValues (t : Time) {c : Container} (h : c.ListsChildren) (name : Token) :
    Dict.get? (childValues t c) name = (c.child name).bind (·.toValue t) := by
  unfold childValues
  rw [Dict.get?_filterMap_keys]
  split
  . rfl
  . next hname =>
    rw [h.mem_iff, Option.not_isSome_iff_eq_none] at hname
    rw [hname]
    rfl

theorem toValue_bind_lookup?_cons (t : Time) {c : Container} (h : c.ListsChildren) (name : Token)
    (rest : Locator) :
    (c.source.toValue t).bind (·.lookup? (name :: rest))
      =
    (c.child name).bind fun inner => (inner.toValue t).bind (·.lookup? rest) := by
  rw [toValue_container t h.nodup, Option.bind_some, ← Option.bind_assoc, ← get?_childValues t h]
  rfl

theorem Faithful.toValue_bind_lookup? {source inner : Source} (h : source.Faithful) (t : Time)
    {place : Locator} (hinner : source.at? place = some inner) :
    (source.toValue t).bind (·.lookup? place) = inner.toValue t := by
  induction place generalizing source with
  | nil =>
    rw [at?_nil] at hinner
    cases hinner
    exact Option.bind_fun_some _
  | cons name rest ih =>
    rw [at?_cons] at hinner
    obtain ⟨c, hc, hinner⟩ := Option.bind_eq_some_iff.1 hinner
    obtain ⟨child, hchild, hinner⟩ := Option.bind_eq_some_iff.1 hinner
    rw [container?_eq_some_iff.1 hc] at h ⊢
    obtain ⟨hlists, hbelow⟩ := (faithful_container_iff c).1 h
    rw [toValue_bind_lookup?_cons t hlists, hchild]
    exact ih (hbelow name child hchild) hinner

theorem toValue_bind_lookup?_cons_of_leaf (t : Time) {source : Source}
    (hcontainer : source.container? = none) (hsampled : source.sampled? = none) (name : Token)
    (rest : Locator) : (source.toValue t).bind (·.lookup? (name :: rest)) = none := by
  cases source with
  | container names child => cases hcontainer
  | sampled s => cases hsampled
  | vector elements => simp [toValue, Value.lookup?, Value.toDictionary?]
  | block => simp [toValue]

theorem Faithful.toValue_bind_lookup?_eq_none {source : Source} (h : source.Faithful) (t : Time)
    {place : Locator} (hnone : source.at? place = none)
    (hsampled : ∀ above name below, place = above ++ name :: below →
      ∀ s, source.at? above ≠ some (sampled s)) :
    (source.toValue t).bind (·.lookup? place) = none := by
  induction place generalizing source with
  | nil =>
    rw [at?_nil] at hnone
    cases hnone
  | cons name rest ih =>
    cases hcontainer : source.container? with
    | none =>
      have hleaf : source.sampled? = none := by
        cases source with
        | sampled s => exact absurd (at?_nil _) (hsampled [] name rest rfl s)
        | _ => rfl
      exact toValue_bind_lookup?_cons_of_leaf t hcontainer hleaf name rest
    | some c =>
      rw [container?_eq_some_iff.1 hcontainer] at h hnone hsampled ⊢
      obtain ⟨hlists, hbelow⟩ := (faithful_container_iff c).1 h
      have hread : ∀ place, c.source.at? (name :: place) = (c.child name).bind (·.at? place) :=
        c.at?_cons name
      rw [toValue_bind_lookup?_cons t hlists]
      cases hchild : c.child name with
      | none => rfl
      | some inner =>
        simp only [hchild, Option.bind_some] at hread
        apply ih (hbelow name inner hchild) (hread rest ▸ hnone)
        rintro above next below rfl s
        rw [← hread above]
        exact hsampled (name :: above) next below rfl s

theorem toValue_bind_lookup?_eq_and_keys_eq {source : Source} (h : source.Faithful) (t : Time) :
    (∀ place inner, source.at? place = some inner → inner.isBlock = false →
      ∃ value, inner.toValue t = some value ∧
        (source.toValue t).bind (·.lookup? place) = some value)
      ∧
    (∀ place, (source.at? place = some block ∨ source.at? place = none ∧
        ∀ above name below, place = above ++ name :: below →
          ∀ s, source.at? above ≠ some (sampled s)) →
      (source.toValue t).bind (·.lookup? place) = none)
      ∧
    ∀ c : Container, source.Holds c.source →
      ∃ entries, c.source.toValue t = some (.dictionary entries) ∧
        Dict.keys entries = c.names.filter fun name => (c.child name).any (!·.isBlock) := by
  refine ⟨?_, ?_, ?_⟩
  . intro place inner hinner hblock
    have hsome := inner.isSome_toValue t
    rw [hblock] at hsome
    obtain ⟨value, hvalue⟩ := Option.isSome_iff_exists.1 hsome
    exact ⟨value, hvalue, (h.toValue_bind_lookup? t hinner).trans hvalue⟩
  . rintro place (hblock | ⟨hnone, hsampled⟩)
    . rw [h.toValue_bind_lookup? t hblock, toValue]
    . exact h.toValue_bind_lookup?_eq_none t hnone hsampled
  . intro c hc
    exact ⟨childValues t c, toValue_container t (h c hc).nodup, keys_childValues t c⟩

-- A value that is itself a dictionary: the lookup goes on in it, where the tree has ended.
theorem toValue_bind_lookup?_eq_and_keys_eq_held :
    let held := Source.value (.dictionary [("z", .int 2)])
    let inner := Source.ofEntries [("x", some block), ("y", some (.vector [block, held]))]
    let tree := Source.ofEntries [("a", some inner), ("b", some held), ("c", some block)]
    let found := fun place => (tree.toValue .zero).bind (·.lookup? place)
    tree.Faithful ∧
      (∃ value, (Source.vector [block, held]).toValue .zero = some value ∧
        found ["a", "y"] = some value) ∧
      found ["a", "x"] = none ∧ found ["a", "y", "1"] = none ∧ found ["b", "z"] = some (.int 2) ∧
      ∃ entries, tree.toValue .zero = some (.dictionary entries) ∧
        Dict.keys entries = ["a", "b"] := by
  intro held inner tree found
  have hheld : held.Faithful := faithful_sampled _
  have hvector : (Source.vector [block, held]).Faithful := by
    apply faithful_vector
    simpa using ⟨faithful_block, hheld⟩
  have hinner : inner.Faithful := by
    apply faithful_ofEntries
    simpa using ⟨faithful_block, hvector⟩
  have htree : tree.Faithful := by
    apply faithful_ofEntries
    simpa using ⟨hinner, hheld, faithful_block⟩
  obtain ⟨hfound, hmissing, hkeys⟩ := toValue_bind_lookup?_eq_and_keys_eq htree .zero
  have hvectors : ∀ above name below, ["a", "y", "1"] = above ++ name :: below →
      ∀ s, tree.at? above ≠ some (sampled s) := by
    intro above name below heq s
    have habove : above = [] ∨ above = ["a"] ∨ above = ["a", "y"] := by
      rcases above with _ | ⟨_, _ | ⟨_, _ | ⟨_, _⟩⟩⟩ <;> simp_all
    rcases habove with rfl | rfl | rfl
    . exact fun hsampled => nomatch (Option.some.inj hsampled : tree = sampled s)
    . exact fun hsampled => nomatch (Option.some.inj hsampled : inner = sampled s)
    . exact fun hsampled => nomatch (Option.some.inj hsampled : vector _ = sampled s)
  refine ⟨htree, hfound ["a", "y"] _ rfl rfl, hmissing _ (.inl rfl),
    hmissing _ (.inr ⟨rfl, hvectors⟩), rfl, hkeys _ (.whole _)⟩

end Source

end SceneTree
