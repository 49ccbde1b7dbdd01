/-!
This module contains dictionaries that remember the order in which their keys first appeared.
-/

namespace SceneTree

abbrev Dict (κ α : Type) := List (κ × α)

namespace Dict

variable {κ α β : Type} [DecidableEq κ]

def get? : Dict κ α → κ → Option α
  | [], _ => none
  | (k, a) :: rest, key => if k = key then some a else get? rest key

def keys (dict : Dict κ α) : List κ :=
  dict.map (·.1)

def contains (dict : Dict κ α) (key : κ) : Bool :=
  (get? dict key).isSome

def insert : Dict κ α → κ → α → Dict κ α
  | [], key, a => [(key, a)]
  | (k, b) :: rest, key, a => if k = key then (k, a) :: rest else (k, b) :: insert rest key a

def modify : Dict κ α → κ → (Option α → α) → Dict κ α
  | [], key, f => [(key, f none)]
  | (k, b) :: rest, key, f =>
    if k = key then (k, f (some b)) :: rest else (k, b) :: modify rest key f

def erase (dict : Dict κ α) (key : κ) : Dict κ α :=
  dict.filter fun entry => entry.1 ≠ key

def insertAll (dict : Dict κ α) (entries : List (κ × α)) : Dict κ α :=
  entries.foldl (fun dict entry => insert dict entry.1 entry.2) dict

def ofList (entries : List (κ × α)) : Dict κ α :=
  insertAll [] entries

@[simp]
theorem get?_nil (key : κ) : get? ([] : Dict κ α) key = none := rfl

theorem get?_cons (k key : κ) (a : α) (rest : Dict κ α) :
    get? ((k, a) :: rest) key = if k = key then some a else get? rest key := rfl

theorem get?_append (dict other : Dict κ α) (key : κ) :
    get? (dict ++ other) key = (get? dict key).or (get? other key) := by
  induction dict with
  | nil => rfl
  | cons entry rest ih =>
    obtain ⟨k, a⟩ := entry
    rw [List.cons_append, get?_cons, get?_cons, ih]
    split <;> rfl

theorem get?_eq_none_of_not_mem {dict : Dict κ α} {key : κ} (h : key ∉ keys dict) :
    get? dict key = none := by
  induction dict with
  | nil => rfl
  | cons entry rest ih =>
    obtain ⟨k, a⟩ := entry
    simp only [keys, List.map_cons, List.mem_cons, not_or] at h ih
    rw [get?_cons, if_neg (Ne.symm h.1), ih h.2]

theorem contains_iff (dict : Dict κ α) (key : κ) : contains dict key ↔ key ∈ keys dict := by
  unfold contains
  induction dict with
  | nil => simp [keys]
  | cons entry rest ih =>
    obtain ⟨k, a⟩ := entry
    rw [get?_cons]
    by_cases heq : k = key
    . simp [keys, heq]
    . unfold keys at ih ⊢
      rw [if_neg heq, ih, List.map_cons, List.mem_cons]
      simp [Ne.symm heq]

theorem get?_insert (dict : Dict κ α) (key other : κ) (a : α) :
    get? (insert dict key a) other = if key = other then some a else get? dict other := by
  induction dict with
  | nil => simp [insert, get?]
  | cons entry rest ih =>
    obtain ⟨k, b⟩ := entry
    by_cases hk : k = key
    . subst hk
      by_cases ho : k = other <;> simp [insert, get?, ho]
    . by_cases ho : k = other
      . subst ho
        simp [insert, get?, hk, Ne.symm hk]
      . simp [insert, get?, hk, ho, ih]

theorem insert_of_not_mem {dict : Dict κ α} {key : κ} (h : key ∉ keys dict) (a : α) :
    insert dict key a = dict ++ [(key, a)] := by
  induction dict with
  | nil => rfl
  | cons entry rest ih =>
    obtain ⟨k, b⟩ := entry
    simp only [keys, List.map_cons, List.mem_cons, not_or] at h ih
    unfold insert
    rw [if_neg (Ne.symm h.1), ih h.2, List.cons_append]

theorem insert_insert (dict : Dict κ α) (key : κ) (a b : α) :
    insert (insert dict key a) key b = insert dict key b := by
  induction dict with
  | nil => simp [insert]
  | cons entry rest ih =>
    obtain ⟨k, c⟩ := entry
    by_cases hk : k = key <;> simp [insert, hk, ih]

theorem insert_ne_nil (dict : Dict κ α) (key : κ) (a : α) : insert dict key a ≠ [] := by
  cases dict with
  | nil => simp [insert]
  | cons entry rest =>
    unfold insert
    split <;> simp

theorem keys_insert (dict : Dict κ α) (key : κ) (a : α) :
    keys (insert dict key a) = if key ∈ keys dict then keys dict else keys dict ++ [key] := by
  induction dict with
  | nil => simp [insert, keys]
  | cons entry rest ih =>
    obtain ⟨k, b⟩ := entry
    by_cases hk : k = key
    . simp [insert, keys, hk]
    . by_cases hr : key ∈ keys rest
      . simp only [keys] at ih hr
        simp [insert, keys, hk, ih, hr]
      . simp only [keys] at ih hr
        simp [insert, keys, hk, Ne.symm hk, ih, hr]

theorem get?_map (dict : Dict κ α) (f : α → β) (key : κ) :
    get? (dict.map fun entry => (entry.1, f entry.2)) key = (get? dict key).map f := by
  induction dict with
  | nil => rfl
  | cons entry rest ih =>
    obtain ⟨k, a⟩ := entry
    rw [List.map_cons, get?_cons, get?_cons, ih]
    split <;> rfl

theorem get?_insertAll (dict : Dict κ α) (entries : List (κ × α)) (key : κ) :
    get? (insertAll dict entries) key = (get? entries.reverse key).or (get? dict key) := by
  induction entries generalizing dict with
  | nil => rfl
  | cons entry rest ih =>
    have hinsert : get? (insert dict entry.1 entry.2) key
        = (get? [entry] key).or (get? dict key) := by
      rw [get?_insert, get?_cons]
      split <;> rfl
    rw [List.reverse_cons, get?_append, Option.or_assoc, ← hinsert]
    exact ih (insert dict entry.1 entry.2)

-- A key that is known stays where it is, and another one is new for the rest as well.
theorem keys_insertAll (dict : Dict κ α) (entries : List (κ × α)) :
    keys (insertAll dict entries)
      =
    keys dict ++ ((keys entries).filter (· ∉ keys dict)).eraseDups := by
  induction entries generalizing dict with
  | nil => simp [insertAll, keys]
  | cons entry rest ih =>
    have hrest : insertAll dict (entry :: rest) = insertAll (insert dict entry.1 entry.2) rest := rfl
    have hkeys : keys (entry :: rest) = entry.1 :: keys rest := rfl
    rw [hrest, ih, keys_insert, hkeys]
    by_cases hkey : entry.1 ∈ keys dict
    . rw [if_pos hkey, List.filter_cons_of_neg (by simpa using hkey)]
    . have hnew : (fun key => decide (key ∉ keys dict ++ [entry.1]))
          = fun key => !(key == entry.1) && decide (key ∉ keys dict) := by
        funext key
        by_cases heq : key = entry.1 <;> simp [heq]
      rw [if_neg hkey, List.filter_cons_of_pos (by simpa using hkey), List.eraseDups_cons,
        List.filter_filter, hnew, List.append_assoc]
      rfl

theorem get?_ofList_eq_reverse (entries : List (κ × α)) (key : κ) :
    get? (ofList entries) key = get? entries.reverse key :=
  (get?_insertAll [] entries key).trans Option.or_none

theorem keys_ofList (entries : List (κ × α)) :
    keys (ofList entries) = (keys entries).eraseDups := by
  have hkeys := keys_insertAll [] entries
  rw [List.filter_eq_self.2 (by simp [keys])] at hkeys
  exact hkeys

theorem modify_eq_insert (dict : Dict κ α) (key : κ) (f : Option α → α) :
    modify dict key f = insert dict key (f (get? dict key)) := by
  induction dict with
  | nil => rfl
  | cons entry rest ih =>
    obtain ⟨k, b⟩ := entry
    by_cases hk : k = key <;> simp [modify, insert, get?, hk, ih]

theorem get?_modify (dict : Dict κ α) (key other : κ) (f : Option α → α) :
    get? (modify dict key f) other
      =
    if key = other then some (f (get? dict key)) else get? dict other := by
  rw [modify_eq_insert, get?_insert]

theorem get?_filter (dict : Dict κ α) (p : κ → Bool) (key : κ) :
    get? (dict.filter fun entry => p entry.1) key = if p key then get? dict key else none := by
  induction dict with
  | nil => simp
  | cons entry rest ih =>
    obtain ⟨k, b⟩ := entry
    by_cases hp : p k
    . by_cases hk : k = key
      . subst hk
        simp [get?, hp]
      . simp [get?, hp, hk, ih]
    . by_cases hk : k = key
      . subst hk
        simp [hp, ih]
      . simp [get?, hp, hk, ih]

theorem get?_erase (dict : Dict κ α) (key other : κ) :
    get? (erase dict key) other = if key = other then none else get? dict other := by
  unfold erase
  rw [get?_filter dict (fun k => k ≠ key)]
  by_cases h : key = other
  . simp [h]
  . simp [h, Ne.symm h]

theorem mem_of_get?_eq_some {dict : Dict κ α} {key : κ} {a : α} (h : get? dict key = some a) :
    (key, a) ∈ dict := by
  induction dict with
  | nil => simp at h
  | cons entry rest ih =>
    obtain ⟨k, b⟩ := entry
    unfold get? at h
    split at h
    . next hk =>
      simp_all
    . exact List.mem_cons_of_mem _ (ih h)

theorem mem_keys_of_get?_eq_some {dict : Dict κ α} {key : κ} {a : α}
    (h : get? dict key = some a) : key ∈ keys dict :=
  (contains_iff dict key).1 (Option.isSome_of_eq_some h)

theorem get?_eq_some_of_mem {dict : Dict κ α} (h : (keys dict).Nodup) {key : κ} {a : α}
    (hmem : (key, a) ∈ dict) : get? dict key = some a := by
  induction dict with
  | nil => simp at hmem
  | cons entry rest ih =>
    obtain ⟨k, b⟩ := entry
    unfold keys at h
    rw [List.map_cons, List.nodup_cons] at h
    rw [get?_cons]
    rcases List.mem_cons.1 hmem with hfirst | hrest
    . cases hfirst
      exact if_pos rfl
    . have hkey : key ∈ rest.map (·.1) := List.mem_map_of_mem hrest
      have hne : k ≠ key := fun heq => h.1 (heq ▸ hkey)
      rw [if_neg hne, ih h.2 hrest]

theorem ofList_of_nodup {entries : List (κ × α)} (h : (keys entries).Nodup) :
    ofList entries = entries := by
  have hfold : ∀ (dict : Dict κ α) (rest : List (κ × α)), (keys (dict ++ rest)).Nodup →
      rest.foldl (fun dict entry => insert dict entry.1 entry.2) dict = dict ++ rest := by
    intro dict rest hnodup
    induction rest generalizing dict with
    | nil => simp
    | cons entry rest ih =>
      have hkey : entry.1 ∉ keys dict := by
        unfold keys at hnodup ⊢
        rw [List.map_append, List.nodup_append] at hnodup
        exact fun hmem => hnodup.2.2 _ hmem _ List.mem_cons_self rfl
      rw [List.append_cons] at hnodup ⊢
      rw [List.foldl_cons, insert_of_not_mem hkey, ih _ hnodup]
  exact hfold [] entries h

theorem get?_ofList {entries : List (κ × α)} (h : (keys entries).Nodup) (key : κ) :
    get? (ofList entries) key = get? entries key := by
  rw [ofList_of_nodup h]

omit [DecidableEq κ] in
theorem keys_filterMap_sublist (entries : List (κ × α)) (f : α → Option β) :
    List.Sublist (keys (entries.filterMap fun entry => (f entry.2).map fun b => (entry.1, b)))
      (keys entries) := by
  induction entries with
  | nil => exact List.Sublist.refl _
  | cons entry rest ih =>
    unfold keys at *
    rw [List.filterMap_cons]
    cases f entry.2 with
    | none => exact ih.cons _
    | some b => exact ih.cons_cons _

theorem get?_filterMap {entries : List (κ × α)} (f : α → Option β) (h : (keys entries).Nodup)
    (key : κ) :
    get? (entries.filterMap fun entry => (f entry.2).map fun b => (entry.1, b)) key
      =
    (get? entries key).bind f := by
  induction entries with
  | nil => rfl
  | cons entry rest ih =>
    obtain ⟨k, a⟩ := entry
    unfold keys at h
    rw [List.map_cons, List.nodup_cons] at h
    rw [List.filterMap_cons, get?_cons]
    by_cases heq : k = key
    . have hrest : get? rest key = none := get?_eq_none_of_not_mem (heq ▸ h.1)
      cases hf : f a with
      | none => simp [ih h.2, heq, hrest, hf]
      | some b => simp [get?_cons, heq, hf]
    . cases hf : f a with
      | none => simp [ih h.2, heq]
      | some b => simp [get?_cons, ih h.2, heq]

theorem get?_filterMap_keys (f : κ → Option β) (ks : List κ) (key : κ) :
    get? (ks.filterMap fun k => (f k).map fun b => (k, b)) key
      =
    if key ∈ ks then f key else none := by
  induction ks with
  | nil => rfl
  | cons k rest ih =>
    rw [List.filterMap_cons]
    by_cases heq : k = key
    . subst heq
      cases hf : f k with
      | none => simp [ih, hf]
      | some b => simp [get?_cons]
    . cases hf : f k with
      | none => simp [ih, Ne.symm heq]
      | some b => simp [get?_cons, ih, heq, Ne.symm heq]

omit [DecidableEq κ] in
theorem keys_filterMap_keys (f : κ → Option β) (ks : List κ) :
    keys (ks.filterMap fun k => (f k).map fun b => (k, b)) = ks.filter fun k => (f k).isSome := by
  induction ks with
  | nil => rfl
  | cons k rest ih =>
    unfold keys at ih ⊢
    rw [List.filterMap_cons, List.filter_cons, ← ih]
    cases f k <;> rfl

theorem eq_or_mem_of_mem_insert {dict : Dict κ α} {key : κ} {a : α} {entry : κ × α}
    (h : entry ∈ insert dict key a) : entry = (key, a) ∨ entry ∈ dict := by
  induction dict with
  | nil => simpa [insert] using h
  | cons first rest ih =>
    obtain ⟨k, b⟩ := first
    unfold insert at h
    split at h
    . next hk =>
      subst hk
      rcases List.mem_cons.1 h with h | h
      . exact .inl h
      . exact .inr (List.mem_cons_of_mem _ h)
    . rcases List.mem_cons.1 h with h | h
      . exact .inr (h ▸ List.mem_cons_self)
      . rcases ih h with h | h
        . exact .inl h
        . exact .inr (List.mem_cons_of_mem _ h)

theorem nodup_keys_insert {dict : Dict κ α} (h : (keys dict).Nodup) (key : κ) (a : α) :
    (keys (insert dict key a)).Nodup := by
  rw [keys_insert]
  split
  . exact h
  . next hkey =>
    rw [List.nodup_append]
    simpa using ⟨h, fun other hother heq => hkey (heq ▸ hother)⟩

theorem nodup_keys_ofList (entries : List (κ × α)) : (keys (ofList entries)).Nodup :=
  List.foldlRecOn (motive := fun dict => (keys dict).Nodup) entries _ List.nodup_nil
    fun _ h entry _ => nodup_keys_insert h entry.1 entry.2

theorem mem_of_mem_ofList {entries : List (κ × α)} {entry : κ × α} (h : entry ∈ ofList entries) :
    entry ∈ entries := by
  revert h
  apply List.foldlRecOn (motive := fun dict => entry ∈ dict → entry ∈ entries)
  . simp
  . intro dict ih written hwritten hmem
    rcases eq_or_mem_of_mem_insert hmem with heq | hmem
    . exact heq ▸ hwritten
    . exact ih hmem

end Dict

end SceneTree
