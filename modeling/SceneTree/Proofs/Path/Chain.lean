import SceneTree.Path

/-!
This module contains the chain of a path: the paths from the root down to it, and the deepest of
them that satisfies a condition.
-/

namespace SceneTree.Path

def chain (path : Path) : List Path :=
  path.ancestors.reverse ++ [path]

def deepest? (p : Path → Bool) (path : Path) : Option Path :=
  path.chain.reverse.find? p

theorem chain_of_parent?_eq_none {path : Path} (h : path.parent? = none) : path.chain = [path] := by
  unfold chain
  rw [ancestors]
  split
  . rfl
  . next heq =>
    rw [h] at heq
    cases heq

theorem chain_of_parent? {path parent : Path} (h : path.parent? = some parent) :
    path.chain = parent.chain ++ [path] := by
  unfold chain
  rw [ancestors]
  split
  . next heq =>
    rw [h] at heq
    cases heq
  . next heq =>
    rw [h] at heq
    cases heq
    rw [List.reverse_cons]

theorem depth_le_of_mem_chain {path link : Path} (h : link ∈ path.chain) :
    link.depth ≤ path.depth := by
  induction path using Path.induction with
  | h path ih =>
    cases hparent : path.parent? with
    | none =>
      rw [chain_of_parent?_eq_none hparent, List.mem_singleton] at h
      exact Nat.le_of_eq (congrArg depth h)
    | some parent =>
      rw [chain_of_parent? hparent] at h
      rcases List.mem_append.1 h with h | h
      . have habove := ih parent hparent h
        have hlt := depth_lt_of_parent? hparent
        omega
      . exact Nat.le_of_eq (congrArg depth (List.mem_singleton.1 h))

theorem ne_of_mem_chain {path parent link : Path} (h : path.parent? = some parent)
    (hmem : link ∈ parent.chain) : link ≠ path := by
  have hle := depth_le_of_mem_chain hmem
  have hlt := depth_lt_of_parent? h
  intro heq
  subst heq
  omega

theorem parent?_eq_none_iff (path : Path) : path.parent? = none ↔ path = root := by
  obtain ⟨names, hnames⟩ := path
  simp [parent?, root]

theorem deepest?_eq (p : Path → Bool) (path : Path) :
    path.deepest? p = if p path then some path else path.parent?.bind (deepest? p) := by
  unfold deepest?
  cases hparent : path.parent? with
  | none =>
    rw [chain_of_parent?_eq_none hparent]
    cases hp : p path <;> simp [hp]
  | some parent =>
    rw [chain_of_parent? hparent, List.reverse_concat, List.find?_cons]
    cases hp : p path <;> simp

theorem mem_chain_of_deepest? {p : Path → Bool} {path link : Path}
    (h : path.deepest? p = some link) : link ∈ path.chain :=
  List.mem_reverse.1 (List.mem_of_find?_eq_some h)

theorem of_deepest? {p : Path → Bool} {path top : Path} (h : path.deepest? p = some top) : p top :=
  List.find?_some h

theorem isSome_deepest?_iff (p : Path → Bool) (path : Path) :
    (path.deepest? p).isSome ↔ ∃ link ∈ path.chain, p link := by
  unfold deepest?
  simp

end SceneTree.Path
