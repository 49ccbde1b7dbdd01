import Mathlib.Data.List.Induction
import SceneTree.Path

/-!
This module contains the texts of paths. A text is read as a path exactly if it is the text of that
path, so paths are told by their texts.
-/

namespace SceneTree.Path

theorem pieces_ne_nil (cs : List Char) : pieces cs ≠ [] := by
  cases cs with
  | nil => exact List.cons_ne_nil _ _
  | cons c rest =>
    unfold pieces
    split
    . exact List.cons_ne_nil _ _
    . split <;> exact List.cons_ne_nil _ _

theorem pieces_eq_singleton {cs : List Char} (h : '/' ∉ cs) : pieces cs = [cs] := by
  induction cs with
  | nil => rfl
  | cons c rest ih =>
    have hc : c ≠ '/' := fun heq => h (heq ▸ List.mem_cons_self)
    rw [pieces, if_neg hc, ih fun hmem => h (List.mem_cons_of_mem _ hmem)]

theorem pieces_separator (cs : List Char) : pieces ('/' :: cs) = [] :: pieces cs := by
  rw [pieces, if_pos rfl]

theorem pieces_append_cons (cs ds : List Char) :
    pieces (cs ++ '/' :: ds) = pieces cs ++ pieces ds := by
  induction cs with
  | nil => exact pieces_separator ds
  | cons c rest ih =>
    rw [List.cons_append, pieces, pieces, ih]
    split
    . rfl
    . obtain ⟨piece, more, heq⟩ := List.exists_cons_of_ne_nil (pieces_ne_nil rest)
      rw [heq]
      rfl

def joined (names : List String) : List Char :=
  names.flatMap fun name => '/' :: name.toList

theorem joined_concat (names : List String) (name : String) :
    joined (names ++ [name]) = joined names ++ '/' :: name.toList := by
  simp [joined]

theorem pieces_joined {names : List String} (h : ∀ name ∈ names, IsName name) :
    pieces (joined names) = [] :: names.map String.toList := by
  induction names using List.reverseRecOn with
  | nil => rfl
  | append_singleton names name ih =>
    have hname := h name (List.mem_append_right _ (List.mem_singleton_self name))
    have hnames : ∀ n ∈ names, IsName n := fun n hn => h n (List.mem_append_left _ hn)
    rw [joined_concat, pieces_append_cons, ih hnames, pieces_eq_singleton hname.2]
    simp

theorem joined_pieces (cs : List Char) : joined ((pieces cs).map String.ofList) = '/' :: cs := by
  induction cs with
  | nil => rfl
  | cons c rest ih =>
    unfold pieces
    split
    . next hc =>
      rw [List.map_cons, hc, ← ih]
      rfl
    . obtain ⟨piece, more, heq⟩ := List.exists_cons_of_ne_nil (pieces_ne_nil rest)
      rw [heq] at ih ⊢
      simp only [joined, List.map_cons, List.flatMap_cons, String.toList_ofList, List.cons_append,
        List.cons.injEq, true_and] at ih ⊢
      exact ih

theorem toList_text {path : Path} (h : path.names ≠ []) : path.text.toList = joined path.names := by
  obtain ⟨name, more, heq⟩ := List.exists_cons_of_ne_nil h
  unfold text
  rw [heq]
  simp [joined, String.toList_join, List.flatMap_map]

theorem text_root : root.text = "/" :=
  rfl

theorem eq_of_names_eq {path other : Path} (h : path.names = other.names) : path = other := by
  cases path
  cases other
  cases h
  rfl

theorem eq_root_iff (path : Path) : path = root ↔ path.names = [] :=
  ⟨fun h => h ▸ rfl, fun h => eq_of_names_eq h⟩

theorem ofText_text (path : Path) : ofText path.text = .ok path := by
  by_cases hroot : path.names = []
  . rw [(eq_root_iff path).2 hroot]
    rfl
  . have htext := toList_text hroot
    have hpieces := pieces_joined path.isName
    have hempty : [] ∉ path.names.map String.toList := by
      intro hmem
      obtain ⟨name, hname, heq⟩ := List.mem_map.1 hmem
      exact (path.isName name hname).1 (String.toList_eq_nil_iff.1 heq)
    rw [← htext] at hpieces
    unfold ofText
    split
    . next heq =>
      rw [heq, pieces_separator, List.cons.injEq] at hpieces
      exact absurd (hpieces.2 ▸ List.mem_singleton_self []) hempty
    . next rest _ heq =>
      rw [heq, pieces_separator, List.cons.injEq] at hpieces
      rw [dif_neg (by rwa [hpieces.2])]
      refine congrArg Except.ok (eq_of_names_eq ?_)
      simp [hpieces.2]
    . next hrelative =>
      obtain ⟨name, more, heq⟩ := List.exists_cons_of_ne_nil hroot
      rw [heq] at htext
      exact (hrelative _ htext).elim

theorem text_of_ofText {text : String} {path : Path} (h : ofText text = .ok path) :
    path.text = text := by
  unfold ofText at h
  split at h
  . next heq =>
    cases h
    exact String.toList_inj.1 heq.symm
  . next rest _ heq =>
    split at h
    . cases h
    . cases h
      rw [← String.toList_inj, heq, toList_text (by simp [pieces_ne_nil])]
      exact joined_pieces rest
  . cases h

theorem ofText_eq_ok_iff {text : String} {path : Path} :
    ofText text = .ok path ↔ path.text = text :=
  ⟨text_of_ofText, fun h => h ▸ ofText_text path⟩

theorem text_injective {path other : Path} (h : path.text = other.text) : path = other :=
  Except.ok.inj ((ofText_text path).symm.trans (h ▸ ofText_text other))

theorem text_eq_separator_iff (path : Path) : path.text = "/" ↔ path.names = [] := by
  constructor
  . intro h
    rw [@text_injective path root h]
    rfl
  . intro h
    rw [(eq_root_iff path).2 h]
    rfl

def IsText (text : String) : Prop :=
  text = "/" ∨
    ∃ names, names ≠ [] ∧ (∀ name ∈ names, IsName name) ∧ text = String.join (names.map ("/" ++ ·))

theorem exists_ofText_iff (text : String) : (∃ path, ofText text = .ok path) ↔ IsText text := by
  simp only [ofText_eq_ok_iff]
  constructor
  . rintro ⟨path, rfl⟩
    cases hnames : path.names with
    | nil => exact .inl ((text_eq_separator_iff path).2 hnames)
    | cons name more =>
      refine .inr ⟨path.names, by simp [hnames], path.isName, ?_⟩
      rw [Path.text, hnames]
  . rintro (rfl | ⟨names, hne, hnames, rfl⟩)
    . exact ⟨root, rfl⟩
    . obtain ⟨name, more, rfl⟩ := List.exists_cons_of_ne_nil hne
      exact ⟨⟨name :: more, hnames⟩, rfl⟩

theorem error_of_ofText {text : String} {error : PathError} (h : ofText text = .error error) :
    error = if text.toList.head? = some '/' then .emptyElement text else .notAbsolute text := by
  unfold ofText at h
  split at h
  . cases h
  . next rest _ heq =>
    split at h
    . cases h
      rw [heq]
      rfl
    . cases h
  . next hrelative =>
    cases h
    refine (if_neg fun hhead => ?_).symm
    obtain ⟨rest, heq⟩ := List.head?_eq_some_iff.1 hhead
    exact hrelative rest heq

theorem ofText_eq_error_iff {text : String} {error : PathError} :
    ofText text = .error error
      ↔
    ¬ IsText text ∧
      error = if text.toList.head? = some '/' then .emptyElement text else .notAbsolute text := by
  rw [← exists_ofText_iff]
  cases h : ofText text with
  | ok path => simp
  | error found => simp [error_of_ofText h, eq_comm]

theorem map_names_ofText_iff {text : String} {names : List String} :
    (ofText text).map Path.names = .ok names
      ↔
    ∃ path : Path, path.names = names ∧ path.text = text := by
  simp only [← ofText_eq_ok_iff]
  cases ofText text with
  | ok path => simp [Except.map]
  | error error => simp [Except.map]

theorem existsUnique_ofText_iff (names : List String) :
    (∃! text, (ofText text).map Path.names = .ok names) ↔ ∀ name ∈ names, IsName name := by
  simp only [map_names_ofText_iff]
  constructor
  . rintro ⟨_, ⟨path, rfl, -⟩, -⟩
    exact path.isName
  . intro h
    refine ⟨_, ⟨⟨names, h⟩, rfl, rfl⟩, ?_⟩
    rintro _ ⟨path, hnames, rfl⟩
    rw [@eq_of_names_eq path ⟨names, h⟩ hnames]

end SceneTree.Path
