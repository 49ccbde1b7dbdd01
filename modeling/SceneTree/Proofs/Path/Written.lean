import Mathlib.Data.List.Count
import Mathlib.Logic.Function.Iterate
import SceneTree.Proofs.Path.Chain
import SceneTree.Proofs.Path.Text

/-!
This module contains the operations on paths as searches in their texts. They agree with the ones on
lists of names: an element begins at a separator and nowhere else.
-/

namespace SceneTree.Path

namespace Written

def name (text : String) : String :=
  String.ofList ((pieces text.toList).getLastD [])

def lastSeparator? : List Char → Option Nat
  | [] => none
  | c :: rest =>
    match lastSeparator? rest with
    | some place => some (place + 1)
    | none => if c = '/' then some 0 else none

def parent? (text : String) : Option String :=
  if text = "/" then none
  else match lastSeparator? text.toList with
    | none | some 0 => some "/"
    | some place => some (String.ofList (text.toList.take place))

def child (text name : String) : Except PathError String :=
  if name = "" ∨ '/' ∈ name.toList then .error (.invalidName name)
  else if text = "/" then .ok ("/" ++ name)
  else .ok (text ++ "/" ++ name)

/--
What follows the text above has to be empty or to begin with a separator, so that `/ab` is not
under `/a`.
-/
def isUnder (text top : String) : Bool :=
  top = "/" ||
    match text.toList.dropPrefix? top.toList with
    | none => false
    | some rest => rest.isEmpty || rest.head? = some '/'

def depth (text : String) : Nat :=
  if text = "/" then 0 else text.toList.count '/'

theorem lastSeparator?_eq_none {cs : List Char} (h : '/' ∉ cs) : lastSeparator? cs = none := by
  induction cs with
  | nil => rfl
  | cons c rest ih =>
    have hc : c ≠ '/' := fun heq => h (heq ▸ List.mem_cons_self)
    rw [lastSeparator?, ih fun hmem => h (List.mem_cons_of_mem _ hmem)]
    exact if_neg hc

theorem lastSeparator?_append {ds : List Char} (cs : List Char) (h : '/' ∉ ds) :
    lastSeparator? (cs ++ '/' :: ds) = some cs.length := by
  induction cs with
  | nil => rw [List.nil_append, lastSeparator?, lastSeparator?_eq_none h]; rfl
  | cons c rest ih => rw [List.cons_append, lastSeparator?, ih]; rfl

end Written

theorem names_parent? (path : Path) :
    path.parent?.map names = if path.names = [] then none else some path.names.dropLast := by
  unfold parent?
  simp only [List.isEmpty_iff]
  split <;> rfl

theorem names_eq_of_parent? {path parent : Path} (h : path.parent? = some parent) :
    path.names = parent.names ++ [path.name] := by
  have hnames := names_parent? path
  rw [h] at hnames
  unfold name
  rcases List.eq_nil_or_concat path.names with hnil | ⟨front, last, heq⟩
  . rw [if_pos hnil] at hnames
    cases hnames
  . rw [heq, List.concat_eq_append] at hnames ⊢
    simpa using hnames.symm

theorem ne_root_of_parent? {path parent : Path} (h : path.parent? = some parent) : path ≠ root := by
  rintro rfl
  cases h

theorem depth_eq_of_parent? {path parent : Path} (h : path.parent? = some parent) :
    path.depth = parent.depth + 1 := by
  unfold depth
  rw [names_eq_of_parent? h, List.length_append]
  rfl

theorem separator_notMem_name (path : Path) : '/' ∉ path.name.toList := by
  cases h : path.parent? with
  | none =>
    rw [(parent?_eq_none_iff path).1 h]
    exact List.not_mem_nil
  | some parent =>
    refine (path.isName _ ?_).2
    rw [names_eq_of_parent? h]
    exact List.mem_append_right _ (List.mem_singleton_self _)

theorem joined_eq_nil_iff (names : List String) : joined names = [] ↔ names = [] := by
  cases names <;> simp [joined]

theorem count_joined {names : List String} (h : ∀ name ∈ names, IsName name) :
    (joined names).count '/' = names.length := by
  induction names with
  | nil => rfl
  | cons name more ih =>
    have hname : name.toList.count '/' = 0 := List.count_eq_zero_of_not_mem (h name (by simp)).2
    have hmore := ih fun n hn => h n (List.mem_cons_of_mem _ hn)
    unfold joined at hmore ⊢
    rw [List.flatMap_cons, List.count_append, hmore, List.count_cons_self, hname, List.length_cons]
    omega

/--
Names whose characters continue those of other names, and break at a separator there, continue the
other names.
-/
theorem joined_append_iff {names tops : List String} (hnames : ∀ name ∈ names, IsName name)
    (htops : ∀ name ∈ tops, IsName name) :
    (∃ rest, joined names = joined tops ++ rest ∧ (rest = [] ∨ rest.head? = some '/'))
      ↔
    tops <+: names := by
  constructor
  . rintro ⟨rest, heq, hrest⟩
    -- What follows is empty or begins a piece of its own, so the pieces of the left side begin with
    -- those of the right side, and these are the names.
    have hpieces : ∃ more, names.map String.toList = tops.map String.toList ++ more := by
      have hjoined := pieces_joined hnames
      rw [heq] at hjoined
      rcases hrest with rfl | hhead
      . rw [List.append_nil, pieces_joined htops, List.cons.injEq] at hjoined
        exact ⟨[], by rw [List.append_nil, hjoined.2]⟩
      . obtain ⟨chars, rfl⟩ := List.head?_eq_some_iff.1 hhead
        rw [pieces_append_cons, pieces_joined htops, List.cons_append, List.cons.injEq] at hjoined
        exact ⟨pieces chars, hjoined.2.symm⟩
    obtain ⟨more, hmore⟩ := hpieces
    obtain ⟨front, back, rfl, hfront, -⟩ := List.map_eq_append_iff.1 hmore
    rw [← (List.map_inj_right fun _ _ => String.toList_inj.1).1 hfront]
    exact List.prefix_append front back
  . rintro ⟨more, rfl⟩
    refine ⟨joined more, List.flatMap_append, ?_⟩
    cases more with
    | nil => exact .inl rfl
    | cons name more => exact .inr rfl

theorem text_ne_separator {path parent : Path} (h : path.parent? = some parent) :
    path.text ≠ "/" :=
  mt (text_eq_separator_iff path).1 (mt (eq_root_iff path).2 (ne_root_of_parent? h))

theorem toList_text_of_parent? {path parent : Path} (h : path.parent? = some parent) :
    path.text.toList = joined parent.names ++ '/' :: path.name.toList := by
  rw [toList_text (mt (eq_root_iff path).2 (ne_root_of_parent? h)), names_eq_of_parent? h,
    joined_concat]

theorem written_name (path : Path) : Written.name path.text = path.name := by
  cases h : path.parent? with
  | none =>
    rw [(parent?_eq_none_iff path).1 h]
    rfl
  | some parent =>
    unfold Written.name
    rw [toList_text_of_parent? h, pieces_append_cons,
      pieces_eq_singleton (separator_notMem_name path), List.getLastD_concat, String.ofList_toList]

theorem written_parent? (path : Path) : Written.parent? path.text = path.parent?.map text := by
  cases h : path.parent? with
  | none =>
    rw [(parent?_eq_none_iff path).1 h]
    rfl
  | some parent =>
    have hplace := Written.lastSeparator?_append (joined parent.names) (separator_notMem_name path)
    unfold Written.parent?
    rw [if_neg (text_ne_separator h), toList_text_of_parent? h, hplace]
    cases hlength : (joined parent.names).length with
    | zero =>
      have hroot := (joined_eq_nil_iff parent.names).1 (List.length_eq_zero_iff.1 hlength)
      exact congrArg some ((text_eq_separator_iff parent).2 hroot).symm
    | succ before =>
      have hne : parent.names ≠ [] := by
        intro hroot
        rw [hroot] at hlength
        cases hlength
      refine congrArg some ?_
      rw [← hlength, List.take_left, ← toList_text hne, String.ofList_toList]

theorem written_child (path : Path) (name : String) :
    Written.child path.text name = (path.child name).map text := by
  unfold Written.child child
  by_cases hname : IsName name
  . rw [if_neg (not_or.2 hname), dif_pos hname]
    by_cases hroot : path.names = []
    . rw [if_pos ((text_eq_separator_iff path).2 hroot), (eq_root_iff path).2 hroot]
      simp [Except.map, text, root, String.join]
    . rw [if_neg (mt (text_eq_separator_iff path).1 hroot)]
      refine congrArg Except.ok (String.toList_inj.1 ?_)
      rw [toList_text (List.append_ne_nil_of_left_ne_nil hroot _), joined_concat,
        ← toList_text hroot]
      simp
  . rw [if_pos (not_and_or.1 hname |>.imp not_not.1 not_not.1), dif_neg hname]
    rfl

theorem written_depth (path : Path) : Written.depth path.text = path.depth := by
  unfold Written.depth depth
  by_cases hroot : path.names = []
  . rw [if_pos ((text_eq_separator_iff path).2 hroot), hroot]
    rfl
  . rw [if_neg (mt (text_eq_separator_iff path).1 hroot), toList_text hroot,
      count_joined path.isName]

theorem isUnder_iff (path top : Path) : path.isUnder top ↔ top.names <+: path.names :=
  List.isPrefixOf_iff_prefix

theorem written_isUnder_iff {path top : Path} (h : top.names ≠ []) :
    Written.isUnder path.text top.text
      ↔
    ∃ rest, path.text.toList = joined top.names ++ rest ∧ (rest = [] ∨ rest.head? = some '/') := by
  have hdrop (rest : List Char) :
      path.text.toList.dropPrefix? top.text.toList = some rest
        ↔
      path.text.toList = joined top.names ++ rest := by
    simp [List.dropPrefix?_eq_some_iff, toList_text h]
  unfold Written.isUnder
  rw [decide_eq_false (mt (text_eq_separator_iff top).1 h), Bool.false_or]
  split
  . next hnone =>
    refine iff_of_false Bool.false_ne_true ?_
    rintro ⟨rest, heq, -⟩
    rw [(hdrop rest).2 heq] at hnone
    cases hnone
  . next rest hsome =>
    have heq := (hdrop rest).1 hsome
    rw [Bool.or_eq_true, List.isEmpty_iff, decide_eq_true_iff]
    refine ⟨fun hrest => ⟨rest, heq, hrest⟩, ?_⟩
    rintro ⟨other, hother, hrest⟩
    rwa [List.append_cancel_left (heq.symm.trans hother)]

theorem written_isUnder (path top : Path) :
    Written.isUnder path.text top.text = path.isUnder top := by
  by_cases htop : top.names = []
  . rw [(eq_root_iff top).2 htop]
    rfl
  . rw [Bool.eq_iff_iff, written_isUnder_iff htop, isUnder_iff]
    by_cases hpath : path.names = []
    . rw [(eq_root_iff path).2 hpath]
      refine iff_of_false ?_ (mt List.prefix_nil.1 htop)
      rintro ⟨rest, heq, -⟩
      obtain ⟨name, more, htops⟩ := List.exists_cons_of_ne_nil htop
      rw [htops] at heq
      have hempty : name = "" := by simp_all [joined, text_root]
      exact (top.isName name (htops ▸ List.mem_cons_self)).1 hempty
    . rw [toList_text hpath]
      exact joined_append_iff path.isName top.isName

theorem iterate_parent?_eq_root_iff (path : Path) (steps : Nat) :
    (·.bind parent?)^[steps] (some path) = some root ↔ steps = path.depth := by
  induction steps generalizing path with
  | zero =>
    rw [Function.iterate_zero_apply, Option.some.injEq, eq_root_iff, ← List.length_eq_zero_iff]
    exact eq_comm
  | succ steps ih =>
    rw [Function.iterate_succ_apply, Option.bind_some]
    cases h : path.parent? with
    | none =>
      rw [Function.iterate_fixed rfl, (parent?_eq_none_iff path).1 h]
      exact iff_of_false (fun heq => nomatch heq) (Nat.succ_ne_zero steps)
    | some parent => rw [ih, depth_eq_of_parent? h, Nat.add_right_cancel_iff]

theorem iterate_written_parent? (path : Path) (steps : Nat) :
    (·.bind Written.parent?)^[steps] (some path.text)
      =
    ((·.bind parent?)^[steps] (some path)).map text := by
  have hstep : Function.Semiconj (Option.map text) (·.bind parent?) (·.bind Written.parent?) := by
    intro above
    cases above with
    | none => rfl
    | some path => exact (written_parent? path).symm
  exact (hstep.iterate_right steps (some path)).symm

theorem iterate_written_parent?_eq_separator_iff (path : Path) (steps : Nat) :
    (·.bind Written.parent?)^[steps] (some path.text) = some "/" ↔ steps = path.depth := by
  rw [iterate_written_parent?, ← iterate_parent?_eq_root_iff, ← text_root, Option.map_eq_some_iff]
  constructor
  . rintro ⟨above, heq, htext⟩
    rw [heq, text_injective htext]
  . exact fun heq => ⟨root, heq, rfl⟩

theorem written_child_bind_ofText (path : Path) (name : String) :
    (Written.child path.text name).bind ofText = path.child name := by
  rw [written_child]
  cases path.child name with
  | error error => rfl
  | ok child => exact ofText_text child

theorem written_parent?_map_ofText (path : Path) :
    (Written.parent? path.text).map ofText = path.parent?.map .ok := by
  rw [written_parent?, Option.map_map]
  exact congrArg (Option.map · path.parent?) (funext ofText_text)

theorem names_child (path : Path) (name : String) :
    (path.child name).map names =
      if IsName name then .ok (path.names ++ [name]) else .error (.invalidName name) := by
  unfold child
  split <;> rfl

/--
Texts read as paths are exactly lists of names. Searches in the text of a path make of it what its
names say, and what they make is read again.
-/
theorem written_operations_eq_on_names :
    (∀ text, (∃ path, ofText text = .ok path) ↔ IsText text)
      ∧
    (∀ text error, ofText text = .error error ↔ ¬ IsText text ∧
      error = if text.toList.head? = some '/' then .emptyElement text else .notAbsolute text)
      ∧
    (∀ names, (∃! text, (ofText text).map Path.names = .ok names) ↔ ∀ name ∈ names, IsName name)
      ∧
    ∀ path : Path,
      ofText path.text = .ok path
        ∧
      (∀ name, (Written.child path.text name).bind ofText = path.child name ∧
        (path.child name).map names =
          if IsName name then .ok (path.names ++ [name]) else .error (.invalidName name))
        ∧
      ((Written.parent? path.text).map ofText = path.parent?.map .ok ∧
        path.parent?.map names = if path.names = [] then none else some path.names.dropLast)
        ∧
      (Written.name path.text = path.name ∧ path.name = path.names.getLastD "")
        ∧
      (Written.depth path.text = path.depth ∧ path.depth = path.names.length)
        ∧
      (∀ top : Path, Written.isUnder path.text top.text = path.isUnder top ∧
        (path.isUnder top ↔ top.names <+: path.names))
        ∧
      ∀ steps,
        ((·.bind Written.parent?)^[steps] (some path.text) = some "/" ↔ steps = path.depth) ∧
          ((·.bind parent?)^[steps] (some path) = some root ↔ steps = path.depth) :=
  ⟨exists_ofText_iff, fun _ _ => ofText_eq_error_iff, existsUnique_ofText_iff, fun path =>
    ⟨ofText_text path,
      fun name => ⟨written_child_bind_ofText path name, names_child path name⟩,
      ⟨written_parent?_map_ofText path, names_parent? path⟩,
      ⟨written_name path, rfl⟩,
      ⟨written_depth path, rfl⟩,
      fun top => ⟨written_isUnder path top, isUnder_iff path top⟩,
      fun steps => ⟨iterate_written_parent?_eq_separator_iff path steps,
        iterate_parent?_eq_root_iff path steps⟩⟩⟩

theorem written_operations_eq_on_names_world :
    (∀ name ∈ ["World", "A"], IsName name) ∧
      (∃! text, (ofText text).map Path.names = .ok ["World", "A"]) ∧
      (Written.parent? "/World/A").map ofText = some (.ok ⟨["World"], by decide⟩) ∧
      Written.isUnder "/World/A" "/World" = true ∧
      Written.isUnder "/WorldB" "/World" = false := by
  have hnames : ∀ name ∈ ["World", "A"], IsName name := by decide
  let world : Path := ⟨["World"], by decide⟩
  obtain ⟨-, -, hunique, hpaths⟩ := written_operations_eq_on_names
  obtain ⟨-, -, ⟨hparent, -⟩, -, -, hunder, -⟩ := hpaths ⟨["World", "A"], hnames⟩
  obtain ⟨-, -, -, -, -, hbeside, -⟩ := hpaths ⟨["WorldB"], by decide⟩
  exact ⟨hnames, (hunique _).2 hnames, hparent, (hunder world).1, (hbeside world).1⟩

end SceneTree.Path
