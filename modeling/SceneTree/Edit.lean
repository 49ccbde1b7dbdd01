import SceneTree.Edit.Tree

/-!
This module contains editors, which collect edits of a container without changing it.
-/

namespace SceneTree

structure Editor where
  base : Option Container
  edits : EditTree
  isEdited : Bool

namespace Editor

def new (base : Option Container) : Editor where
  base := base
  edits := .blank
  isEdited := false

instance : Inhabited Editor := ⟨new none⟩

def accepts (locator : Locator) (edit : Edit) : Bool :=
  match locator, edit with
  | [], .replace (.container ..) => true
  | [], _ => false
  | _ :: _, _ => true

/--
Write a source to a place, or delete what is there. Earlier edits below it are dropped. An edit that
is not possible changes nothing.
-/
def set (editor : Editor) (locator : Locator) (value : Option Source) : Editor :=
  let edit := Edit.write value
  if accepts locator edit then
    { editor with edits := editor.edits.record edit locator, isEdited := true }
  else editor

/--
The edited container: the container itself if there are no edits, and an empty one if there is
neither.
-/
def finish (editor : Editor) : Container :=
  if editor.isEdited then
    let base := match editor.edits.edit with
      | .replace (.container names child) => some ⟨names, child⟩
      | _ => editor.base
    EditTree.layer editor.edits.children base
  else editor.base.getD .empty

end Editor

end SceneTree
