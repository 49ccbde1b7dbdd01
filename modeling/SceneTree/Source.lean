import SceneTree.Locator
import SceneTree.Sampled

/-!
This module contains sources, the lazily evaluated trees of scene data, and the ways to address and
to evaluate them. A container finds its children when they are asked for, so a tree may be computed
from other trees without being copied.
-/

namespace SceneTree

/--
A tree of scene data. A block stands for a place that was emptied on purpose. A vector is given by
its elements, all of which are present: one that is asked by index and may lack an element within
its length is not among these trees.
-/
inductive Source where
  | container (names : List Token) (child : Token → Option Source)
  | sampled (s : Sampled)
  | vector (elements : List Source)
  | block

instance : Inhabited Source := ⟨.block⟩

@[induction_eliminator]
theorem Source.induction {motive : Source → Prop}
    (container : ∀ names child, (∀ name inner, child name = some inner → motive inner) →
      motive (container names child))
    (sampled : ∀ s, motive (sampled s))
    (vector : ∀ elements, (∀ element ∈ elements, motive element) → motive (vector elements))
    (block : motive block) (source : Source) : motive source := by
  apply @Source.rec motive (fun child => ∀ inner, child = some inner → motive inner)
    (fun elements => ∀ element ∈ elements, motive element)
  . exact fun names child h => container names child h
  . exact sampled
  . exact vector
  . exact block
  . simp
  . simp
  . simp
  . intro first rest hfirst hrest
    exact List.forall_mem_cons.2 ⟨hfirst, hrest⟩

/--
The names of the children of a tree, in order, and the children. A listed name may lack its child.
-/
structure Container where
  names : List Token
  child : Token → Option Source

namespace Container

def source (c : Container) : Source :=
  .container c.names c.child

instance : Coe Container Source := ⟨source⟩

def empty : Container where
  names := []
  child _ := none

instance : Inhabited Container := ⟨empty⟩

/--
A container that holds the given children. Names without a child are left out, and a repeated name
keeps its first place and its last child.
-/
def ofEntries (entries : List (Token × Option Source)) : Container :=
  let present := Dict.ofList (entries.filterMap fun entry => entry.2.map fun s => (entry.1, s))
  ⟨Dict.keys present, Dict.get? present⟩

theorem ofEntries_child {entries : List (Token × Option Source)} (h : (Dict.keys entries).Nodup)
    (name : Token) : (ofEntries entries).child name = (Dict.get? entries name).join := by
  unfold ofEntries
  dsimp only
  rw [Dict.get?_ofList, Dict.get?_filterMap (fun source => source) h]
  . cases Dict.get? entries name <;> rfl
  . exact (Dict.keys_filterMap_sublist entries fun source => source).nodup h

end Container

namespace Source

def value (v : Value) : Source :=
  sampled (.constant v)

def ofEntries (entries : List (Token × Option Source)) : Source :=
  (Container.ofEntries entries).source

def container? : Source → Option Container
  | container names child => some ⟨names, child⟩
  | _ => none

theorem container?_eq_some_iff {source : Source} {c : Container} :
    source.container? = some c ↔ source = c.source := by
  cases source with
  | container names child =>
    simp only [container?, Option.some.injEq, Container.source, container.injEq]
    constructor
    . intro h
      exact h ▸ ⟨rfl, rfl⟩
    . rintro ⟨hnames, hchild⟩
      rw [hnames, hchild]
  | _ => simp [container?, Container.source]

def sampled? : Source → Option Sampled
  | sampled s => some s
  | _ => none

def vector? : Source → Option (List Source)
  | vector elements => some elements
  | _ => none

def isBlock : Source → Bool
  | block => true
  | _ => false

def kind : Source → String
  | container .. => "container"
  | sampled _ => "sampled"
  | vector _ => "vector"
  | block => "block"

def at? : Source → Locator → Option Source
  | source, [] => some source
  | container _ child, name :: rest =>
    match child name with
    | some source => source.at? rest
    | none => none
  | _, _ :: _ => none

def typed? {α : Type} (read : Value → Option α) (source : Source) (t : Time) : Option α :=
  source.sampled?.bind fun s => read (s.valueAt t)

@[simp]
theorem at?_nil (source : Source) : source.at? [] = some source := by
  unfold at?
  rfl

theorem at?_cons (source : Source) (name : Token) (rest : Locator) :
    source.at? (name :: rest)
      =
    source.container?.bind fun c => (c.child name).bind (·.at? rest) := by
  cases source with
  | container names child =>
    simp only [at?, container?, Option.bind_some]
    cases child name <;> rfl
  | sampled s => rfl
  | vector elements => rfl
  | block => rfl

theorem at?_append (source : Source) (above below : Locator) :
    source.at? (above ++ below) = (source.at? above).bind (·.at? below) := by
  induction above generalizing source with
  | nil => simp
  | cons name rest ih =>
    simp only [List.cons_append, at?_cons, Option.bind_assoc, ih]

mutual

/--
The value of a tree at a time: containers become dictionaries and vectors arrays. Blocks and missing
children are left out.
-/
def toValue (t : Time) : Source → Option Value
  | sampled s => some (s.valueAt t)
  | container names child =>
    some (.dictionary (Dict.ofList (names.filterMap fun name =>
      (childValue t (child name)).map fun v => (name, v))))
  | vector elements => some (.array (elementValues t elements))
  | block => none

def childValue (t : Time) : Option Source → Option Value
  | none => none
  | some source => toValue t source

def elementValues (t : Time) : List Source → List Value
  | [] => []
  | element :: rest =>
    match toValue t element with
    | none => elementValues t rest
    | some v => v :: elementValues t rest

end

end Source

namespace Container

def at? (c : Container) (locator : Locator) : Option Source :=
  c.source.at? locator

theorem at?_cons (c : Container) (name : Token) (rest : Locator) :
    c.at? (name :: rest) = (c.child name).bind (·.at? rest) := by
  unfold at? source
  rw [Source.at?_cons]
  rfl

theorem at?_singleton (c : Container) (name : Token) : c.at? [name] = c.child name := by
  rw [at?_cons]
  cases c.child name with
  | none => rfl
  | some source => exact Source.at?_nil source

theorem at?_append (c : Container) (above below : Locator) :
    c.at? (above ++ below) = (c.at? above).bind (·.at? below) :=
  Source.at?_append c.source above below

theorem at?_concat (c : Container) (above : Locator) (name : Token) :
    c.at? (above ++ [name])
      =
    ((c.at? above).bind Source.container?).bind (·.child name) := by
  rw [at?_append, Option.bind_assoc]
  congr 1
  funext source
  rw [Source.at?_cons]
  congr 1
  funext inner
  cases inner.child name with
  | none => rfl
  | some below => exact Source.at?_nil below

def container? (c : Container) (name : Token) : Option Container :=
  (c.child name).bind Source.container?

theorem container?_eq_at? (c : Container) (name : Token) :
    c.container? name = (c.at? [name]).bind Source.container? := by
  rw [at?_singleton]
  rfl

theorem at?_pair (c : Container) (first second : Token) :
    c.at? [first, second] = (c.container? first).bind (·.child second) := by
  rw [container?_eq_at?]
  exact c.at?_concat [first] second

def sampled? (c : Container) (name : Token) : Option Sampled :=
  (c.child name).bind Source.sampled?

def vector? (c : Container) (name : Token) : Option (List Source) :=
  (c.child name).bind Source.vector?

end Container

end SceneTree
