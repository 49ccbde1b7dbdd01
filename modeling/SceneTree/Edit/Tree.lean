import SceneTree.Source

/-!
This module contains edit trees: what is to be kept, replaced and deleted at the places of a tree of
scene data, and the edited tree, which asks the edits first and the edited tree where they are
silent.
-/

namespace SceneTree

inductive Edit where
  /-- The place stays, apart from edits below it. -/
  | keep
  | replace (source : Source)
  | delete

namespace Edit

/--
The edit that writes a source to a place. To write a block, or nothing, is to delete.
-/
def write : Option Source → Edit
  | none => delete
  | some .block => delete
  | some source => replace source

def opened : Edit → Edit
  | keep => keep
  | replace (.container names child) => replace (.container names child)
  | _ => replace Container.empty

def isReplace : Edit → Bool
  | replace _ => true
  | _ => false

end Edit

/--
Edits at a place and at places below it, in the order in which they were first recorded.
-/
inductive EditTree where
  | node (edit : Edit) (children : List (Token × EditTree))

namespace EditTree

def blank : EditTree := node .keep []

instance : Inhabited EditTree := ⟨blank⟩

def edit : EditTree → Edit
  | node edit _ => edit

def children : EditTree → Dict Token EditTree
  | node _ children => children

/--
Record an edit at a place. Edits below it are dropped, and the places above it become containers
where they were not to be kept as they are.
-/
def record (value : Edit) : Locator → EditTree → EditTree
  | [], _ => node value []
  | name :: rest, node edit children =>
    node edit.opened
      (Dict.modify children name fun child => record value rest (child.getD blank))

mutual

def replacesBelow : EditTree → Bool
  | node _ children => anyReplaces children

def anyReplaces : List (Token × EditTree) → Bool
  | [] => false
  | (_, node edit children) :: rest =>
    edit.isReplace || replacesBelow (node edit children) || anyReplaces rest

end

/--
The names that the edits of its children leave of a container. Deletions alone add no name.
-/
def editedNames (children : List (Token × EditTree)) (names : List Token) : List Token :=
  children.foldl step (names.eraseDups)
where
  step (names : List Token) : Token × EditTree → List Token
    | (name, node edit children) =>
      let add := if name ∈ names then names else names ++ [name]
      match edit with
      | .delete => names.filter (· ≠ name)
      | .replace _ => add
      | .keep => if replacesBelow (node edit children) then add else names

mutual

def apply : EditTree → Option Source → Option Source
  | node .delete _, _ => none
  | node (.replace source) [], _ => some source
  | node (.replace source) (first :: rest), _ =>
    let base := source.container?
    some (.container (editedNames (first :: rest) (base.elim [] (·.names)))
      (applyChild (first :: rest) base))
  | node .keep children, below =>
    match below with
    | some (.container names child) =>
      some (.container (editedNames children names) (applyChild children (some ⟨names, child⟩)))
    | below =>
      if anyReplaces children then
        some (.container (editedNames children []) (applyChild children none))
      else below

def applyChild : List (Token × EditTree) → Option Container → Token → Option Source
  | [], base, name => base.bind (·.child name)
  | (key, tree) :: rest, base, name =>
    if key = name then apply tree (base.bind (·.child name)) else applyChild rest base name

end

def layer (children : List (Token × EditTree)) (base : Option Container) : Container :=
  ⟨editedNames children (base.elim [] (·.names)), applyChild children base⟩

end EditTree

end SceneTree
