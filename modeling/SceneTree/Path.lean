/-!
This module contains scene paths: lists of names, written `/` for the root and `/a/b` below it.
-/

namespace SceneTree

inductive PathError where
  | notAbsolute (text : String)
  | emptyElement (text : String)
  | invalidName (name : String)
deriving DecidableEq

namespace PathError

def message : PathError → String
  | notAbsolute text => s!"scene path `{text}` must start with `/`"
  | emptyElement text => s!"scene path `{text}` contains an empty element"
  | invalidName name => s!"child name `{name}` must be a single non-empty element"

end PathError

namespace Path

def IsName (name : String) : Prop :=
  name ≠ "" ∧ '/' ∉ name.toList

instance (name : String) : Decidable (IsName name) :=
  inferInstanceAs (Decidable (_ ∧ _))

end Path

structure Path where
  names : List String
  isName : ∀ name ∈ names, Path.IsName name
deriving DecidableEq

namespace Path

def root : Path := ⟨[], by simp⟩

instance : Inhabited Path := ⟨root⟩

def pieces : List Char → List (List Char)
  | [] => [[]]
  | c :: rest =>
    if c = '/' then [] :: pieces rest
    else match pieces rest with
      | [] => [[c]]
      | piece :: more => (c :: piece) :: more

theorem not_mem_of_mem_pieces {cs piece : List Char} (h : piece ∈ pieces cs) : '/' ∉ piece := by
  induction cs generalizing piece with
  | nil => simp_all [pieces]
  | cons c rest ih =>
    by_cases hc : c = '/'
    . simp only [pieces, hc, if_true, List.mem_cons] at h
      rcases h with h | h
      . simp [h]
      . exact ih h
    . simp only [pieces, hc, if_false] at h
      split at h
      . simp only [List.mem_singleton] at h
        simp [h, Ne.symm hc]
      . next first more heq =>
        simp only [List.mem_cons] at h
        rcases h with h | h
        . simp [h, Ne.symm hc, ih (heq ▸ List.mem_cons_self)]
        . exact ih (heq ▸ List.mem_cons_of_mem _ h)

/--
Read a path: the root is a lone separator, any other path a separator before each of its names.
-/
def ofText (text : String) : Except PathError Path :=
  match text.toList with
  | '/' :: [] => .ok root
  | '/' :: rest =>
    if h : [] ∈ pieces rest then .error (.emptyElement text)
    else .ok {
      names := (pieces rest).map String.ofList
      isName := by
        intro name hname
        obtain ⟨piece, hpiece, rfl⟩ := List.mem_map.1 hname
        have hne : piece ≠ [] := fun he => h (he ▸ hpiece)
        exact ⟨by simpa using hne, by simpa using not_mem_of_mem_pieces hpiece⟩ }
  | _ => .error (.notAbsolute text)

def text (path : Path) : String :=
  match path.names with
  | [] => "/"
  | names => String.join (names.map ("/" ++ ·))

instance : ToString Path := ⟨text⟩

def isRoot (path : Path) : Bool :=
  path.names.isEmpty

def name (path : Path) : String :=
  path.names.getLastD ""

def depth (path : Path) : Nat :=
  path.names.length

def parent? (path : Path) : Option Path :=
  if path.names.isEmpty then none
  else some ⟨path.names.dropLast, fun name h => path.isName name (List.dropLast_subset _ h)⟩

theorem depth_lt_of_parent? {path parent : Path} (h : path.parent? = some parent) :
    parent.depth < path.depth := by
  unfold parent? at h
  split at h
  . simp at h
  . next hne =>
    simp only [Option.some.injEq] at h
    subst h
    have : path.names.length ≠ 0 := by simpa using hne
    simp only [depth, List.length_dropLast]
    omega

theorem induction {motive : Path → Prop}
    (h : ∀ path, (∀ parent, path.parent? = some parent → motive parent) → motive path)
    (path : Path) : motive path :=
  h path fun parent hparent =>
    have := depth_lt_of_parent? hparent
    induction h parent
termination_by path.depth

def ancestors (path : Path) : List Path :=
  match h : path.parent? with
  | none => []
  | some parent =>
    have := depth_lt_of_parent? h
    parent :: ancestors parent
termination_by path.depth

def child (path : Path) (name : String) : Except PathError Path :=
  if h : IsName name then
    .ok ⟨path.names ++ [name], by
      intro n hn
      rcases List.mem_append.1 hn with hn | hn
      . exact path.isName n hn
      . exact List.mem_singleton.1 hn ▸ h⟩
  else .error (.invalidName name)

def isUnder (path top : Path) : Bool :=
  top.names.isPrefixOf path.names

theorem isUnder_refl (path : Path) : path.isUnder path := by
  simp [isUnder]

theorem isUnder_of_parent? {path parent top : Path} (h : path.parent? = some parent)
    (hunder : parent.isUnder top) : path.isUnder top := by
  unfold parent? at h
  split at h
  . simp at h
  . simp only [Option.some.injEq] at h
    subst h
    unfold isUnder at *
    rw [List.isPrefixOf_iff_prefix] at *
    exact hunder.trans (List.dropLast_prefix _)

def order (a b : Path) : Ordering :=
  compare a.text b.text

end Path

end SceneTree
