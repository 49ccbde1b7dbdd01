import Mathlib.Data.List.Forall2
import Mathlib.Data.List.TakeWhile
import SceneTree.Scene.Files

/-!
This module contains what loading makes of a scene. The prims of a description are taken over up to
the first that is wrong, and files are loaded up to the first that fails, so a scene comes to the
prims that were defined before, put in one after the other. Each of them holds what is described of
it, and nothing else.
-/

namespace SceneTree

namespace XformDescription

/--
The matrix of a described transform: the one that is given, or the identity, with the translation
after it. There is none if neither is given.
-/
def transform? (xform : XformDescription) : Option Matrix :=
  let given := xform.matrix.bind Matrix.ofList?
  match xform.translate with
  | none => given
  | some (x, y, z) => some ((Matrix.translation x y z).mul (given.getD .identity))

theorem container_of_length_ne (path : Path) {xform : XformDescription} {elements : List Float}
    (hmatrix : xform.matrix = some elements) (hlength : elements.length ≠ 16) :
    xform.container path = .error (.badMatrix path elements.length) := by
  have hnone : Matrix.ofList? elements = none := by
    rwa [← Option.not_isSome_iff_eq_none, Matrix.ofList?_isSome_iff]
  unfold container
  rw [hmatrix]
  dsimp only
  rw [hnone]
  rfl

def contents (xform : XformDescription) : Container :=
  .ofEntries [("matrix", xform.transform?.map fun m => .value (.matrix m)),
    ("resetXformStack", xform.resetXformStack.map fun b => .value (.bool b))]

theorem container_eq (path : Path) {xform : XformDescription}
    (hlength : ∀ elements ∈ xform.matrix, elements.length = 16) :
    xform.container path = .ok xform.contents := by
  unfold container contents transform?
  cases hmatrix : xform.matrix with
  | none => rfl
  | some elements =>
    have hsome := (Matrix.ofList?_isSome_iff elements).2 (hlength elements hmatrix)
    obtain ⟨matrix, hread⟩ := Option.isSome_iff_exists.1 hsome
    dsimp only [Option.bind_some]
    rw [hread]
    rfl

end XformDescription

namespace PrimDescription

def flaw? (path : Path) (prim : PrimDescription) : Option DescriptionError :=
  match prim.xform.bind (·.matrix) with
  | none => none
  | some elements =>
    if elements.length = 16 then none else some (.badMatrix path elements.length)

theorem container_of_flaw {path : Path} {prim : PrimDescription} {error : DescriptionError}
    (h : prim.flaw? path = some error) : prim.container path = .error error := by
  unfold flaw? at h
  split at h
  . cases h
  . next elements hmatrix =>
    split at h
    . cases h
    . next hlength =>
      obtain ⟨xform, hxform, helements⟩ := Option.bind_eq_some_iff.1 hmatrix
      cases h
      unfold container
      rw [hxform]
      dsimp only
      rw [XformDescription.container_of_length_ne path helements hlength]
      rfl

def attributeContents (prim : PrimDescription) : Container :=
  .ofEntries (prim.attributes.map fun (name, v) => (name, some (.value v)))

def contents (prim : PrimDescription) : Container :=
  .ofEntries [("xform", prim.xform.map fun xform => xform.contents.source),
    ("visibility", prim.visibility.map fun b => .ofEntries
      [("visibility", some (.value (.bool b)))]),
    ("attributes", if prim.attributes.isEmpty then none else some prim.attributeContents.source)]

theorem container_eq {path : Path} {prim : PrimDescription} (h : prim.flaw? path = none) :
    prim.container path = .ok prim.contents := by
  unfold container
  cases hxform : prim.xform with
  | none =>
    unfold contents
    rw [hxform]
    rfl
  | some xform =>
    have hlength : ∀ elements ∈ xform.matrix, elements.length = 16 := by
      intro elements hmatrix
      unfold flaw? at h
      rw [hxform, Option.bind_some, hmatrix] at h
      simpa using h
    unfold contents
    rw [hxform]
    dsimp only
    rw [xform.container_eq path hlength]
    rfl

/--
The value that is described for a field of one of the containers of a prim. Of values for one
attribute the last one counts.
-/
def leaf? (prim : PrimDescription) (name field : Token) : Option Value :=
  match name, field with
  | "xform", "matrix" => (prim.xform.bind (·.transform?)).map .matrix
  | "xform", "resetXformStack" => (prim.xform.bind (·.resetXformStack)).map .bool
  | "visibility", "visibility" => prim.visibility.map .bool
  | "attributes", name => Dict.get? prim.attributes.reverse name
  | _, _ => none

/--
Whether a container holds what is described of a prim: a container for each part that is described,
with the described fields in it, each of them with its value at all times, and nothing else.
-/
structure HeldBy (prim : PrimDescription) (container : Container) : Prop where
  names : container.names
    = (if prim.xform.isSome then ["xform"] else []) ++
      (if prim.visibility.isSome then ["visibility"] else []) ++
      (if prim.attributes.isEmpty then [] else ["attributes"])
  xformNames : (container.container? "xform").map (·.names)
    = prim.xform.map fun xform =>
      (if xform.transform?.isSome then ["matrix"] else []) ++
      (if xform.resetXformStack.isSome then ["resetXformStack"] else [])
  visibilityNames : (container.container? "visibility").map (·.names)
    = prim.visibility.map fun _ => ["visibility"]
  attributeNames : (container.container? "attributes").map (·.names)
    = if prim.attributes.isEmpty then none else some (Dict.keys prim.attributes).eraseDups
  leaf : ∀ name field, container.at? [name, field] = (prim.leaf? name field).map .value

section Contents

variable (prim : PrimDescription)

theorem contents_child (name : Token) :
    prim.contents.child name
      =
    (Dict.get? [("xform", prim.xform.map fun xform => xform.contents.source),
      ("visibility", prim.visibility.map fun b => .ofEntries
        [("visibility", some (.value (.bool b)))]),
      ("attributes", if prim.attributes.isEmpty then none
        else some prim.attributeContents.source)] name).join :=
  Container.ofEntries_child (by simp [Dict.keys]) name

theorem contents_container?_xform :
    prim.contents.container? "xform" = prim.xform.map (·.contents) := by
  unfold Container.container?
  rw [contents_child]
  cases prim.xform <;> rfl

theorem contents_container?_visibility :
    prim.contents.container? "visibility"
      =
    prim.visibility.map fun b => .ofEntries [("visibility", some (.value (.bool b)))] := by
  unfold Container.container?
  rw [contents_child]
  cases prim.visibility <;> rfl

theorem contents_container?_attributes :
    prim.contents.container? "attributes"
      =
    if prim.attributes.isEmpty then none else some prim.attributeContents := by
  unfold Container.container?
  rw [contents_child]
  cases prim.attributes.isEmpty <;> rfl

theorem attributeContents_eq :
    prim.attributeContents
      =
    { names := (Dict.keys prim.attributes).eraseDups
      child := fun name => (Dict.get? prim.attributes.reverse name).map .value } := by
  have hpresent : (prim.attributes.map fun (name, v) => (name, some (Source.value v))).filterMap
      (fun entry => entry.2.map fun s => (entry.1, s))
      = prim.attributes.map fun entry => (entry.1, Source.value entry.2) := by
    rw [List.filterMap_map]
    exact congrFun List.filterMap_eq_map prim.attributes
  have hkeys : Dict.keys (prim.attributes.map fun entry => (entry.1, Source.value entry.2))
      = Dict.keys prim.attributes := by
    simp [Dict.keys]
  unfold attributeContents Container.ofEntries
  dsimp only
  rw [hpresent, Dict.keys_ofList, hkeys]
  congr 1
  funext name
  rw [Dict.get?_ofList_eq_reverse, ← List.map_reverse, Dict.get?_map]

theorem contents_xform_child (field : Token) :
    (prim.contents.container? "xform").bind (·.child field)
      =
    prim.xform.bind fun xform =>
      (Dict.get? [("matrix", xform.transform?.map fun m => Source.value (.matrix m)),
        ("resetXformStack", xform.resetXformStack.map fun b => .value (.bool b))] field).join := by
  rw [contents_container?_xform]
  cases prim.xform with
  | none => rfl
  | some xform => exact Container.ofEntries_child (by simp [Dict.keys]) field

theorem contents_child_child_eq_none {name field : Token} (hattribute : name ≠ "attributes")
    (hmatrix : name = "xform" → field ≠ "matrix")
    (hreset : name = "xform" → field ≠ "resetXformStack")
    (hvisibility : name = "visibility" → field ≠ "visibility") :
    (prim.contents.container? name).bind (·.child field) = none := by
  by_cases hx : name = "xform"
  . rw [hx, contents_xform_child]
    simp [Dict.get?_cons, Ne.symm (hmatrix hx), Ne.symm (hreset hx)]
  . by_cases hv : name = "visibility"
    . rw [hv, contents_container?_visibility]
      cases prim.visibility with
      | none => rfl
      | some b =>
        dsimp only [Option.map_some, Option.bind_some]
        rw [Container.ofEntries_child (by simp [Dict.keys])]
        simp [Dict.get?_cons, Ne.symm (hvisibility hv)]
    . unfold Container.container?
      rw [contents_child]
      simp [Dict.get?_cons, Ne.symm hx, Ne.symm hv, Ne.symm hattribute]

theorem heldBy_contents : prim.HeldBy prim.contents where
  names := by
    unfold contents
    cases prim.xform <;> cases prim.visibility <;> cases prim.attributes <;> rfl
  xformNames := by
    rw [contents_container?_xform]
    cases prim.xform with
    | none => rfl
    | some xform =>
      dsimp only [Option.map_some, XformDescription.contents]
      cases xform.transform? <;> cases xform.resetXformStack <;> rfl
  visibilityNames := by
    rw [contents_container?_visibility]
    cases prim.visibility <;> rfl
  attributeNames := by
    rw [contents_container?_attributes, attributeContents_eq]
    cases prim.attributes.isEmpty <;> rfl
  leaf := by
    intro name field
    rw [Container.at?_pair]
    unfold leaf?
    split
    . rw [contents_xform_child]
      cases prim.xform with
      | none => rfl
      | some xform =>
        dsimp only [Option.bind_some]
        cases xform.transform? <;> rfl
    . rw [contents_xform_child]
      cases prim.xform with
      | none => rfl
      | some xform =>
        dsimp only [Option.bind_some]
        cases xform.resetXformStack <;> rfl
    . rw [contents_container?_visibility]
      cases prim.visibility <;> rfl
    . rw [contents_container?_attributes, attributeContents_eq]
      cases prim.attributes with
      | nil => rfl
      | cons entry rest => rfl
    . next hattribute hmatrix hreset hvisibility =>
      exact prim.contents_child_child_eq_none hattribute hmatrix hreset hvisibility

end Contents

theorem exists_container {path : Path} {prim : PrimDescription} (h : prim.flaw? path = none) :
    ∃ container, prim.container path = .ok container ∧ prim.HeldBy container :=
  ⟨prim.contents, container_eq h, prim.heldBy_contents⟩

end PrimDescription

/-! ## Descriptions -/

namespace SceneDescription

def flawOf? (entry : String × PrimDescription) : Option DescriptionError :=
  match Path.ofText entry.1 with
  | .error cause => some (.invalidPath entry.1 cause)
  | .ok path => entry.2.flaw? path

def definitionOf? (entry : String × PrimDescription) : Option (Path × Container) :=
  match Path.ofText entry.1 with
  | .error _ => none
  | .ok path => (entry.2.container path).toOption.map fun prim => (path, prim)

structure Defines (entry : String × PrimDescription) (definition : Path × Container) : Prop where
  path : Path.ofText entry.1 = .ok definition.1
  prim : entry.2.HeldBy definition.2

def flaw? (description : SceneDescription) : Option DescriptionError :=
  description.findSome? flawOf?

def sound (description : SceneDescription) : SceneDescription :=
  description.takeWhile fun entry => (flawOf? entry).isNone

def definitions (description : SceneDescription) : List (Path × Container) :=
  description.sound.filterMap definitionOf?

theorem exists_definitionOf? {entry : String × PrimDescription} (h : flawOf? entry = none) :
    ∃ definition, definitionOf? entry = some definition ∧ Defines entry definition := by
  unfold flawOf? at h
  unfold definitionOf?
  cases hpath : Path.ofText entry.1 with
  | error cause =>
    rw [hpath] at h
    cases h
  | ok path =>
    rw [hpath] at h
    obtain ⟨container, hcontainer, hheld⟩ := PrimDescription.exists_container h
    dsimp only
    rw [hcontainer]
    exact ⟨(path, container), rfl, hpath, hheld⟩

theorem defines_definitions (description : SceneDescription) :
    List.Forall₂ SceneDescription.Defines description.sound description.definitions := by
  unfold definitions
  have hsound : ∀ entry ∈ description.sound, flawOf? entry = none := by
    intro entry hentry
    simpa using List.mem_takeWhile_imp hentry
  generalize description.sound = entries at hsound
  induction entries with
  | nil => exact .nil
  | cons entry rest ih =>
    obtain ⟨hentry, hrest⟩ := List.forall_mem_cons.1 hsound
    obtain ⟨definition, hdefinition, hdefines⟩ := exists_definitionOf? hentry
    rw [List.filterMap_cons, hdefinition]
    exact .cons hdefines (ih hrest)

end SceneDescription

namespace Scene

open SceneDescription

theorem addPrim_of_flawOf {entry : String × PrimDescription} {error : DescriptionError}
    (h : flawOf? entry = some error) (scene : Scene) :
    scene.addPrim entry.1 entry.2 = .error error := by
  unfold flawOf? at h
  unfold addPrim
  cases hpath : Path.ofText entry.1 with
  | error cause =>
    rw [hpath] at h
    cases h
    rfl
  | ok path =>
    rw [hpath] at h
    dsimp only
    rw [PrimDescription.container_of_flaw h]

theorem addPrim_of_definitionOf? {entry : String × PrimDescription}
    {definition : Path × Container} (h : definitionOf? entry = some definition) (scene : Scene) :
    scene.addPrim entry.1 entry.2 = .ok (scene.insert definition.1 definition.2) := by
  unfold definitionOf? at h
  unfold addPrim
  cases hpath : Path.ofText entry.1 with
  | error cause =>
    rw [hpath] at h
    cases h
  | ok path =>
    rw [hpath] at h
    dsimp only at h ⊢
    cases hcontainer : entry.2.container path with
    | error error =>
      rw [hcontainer] at h
      cases h
    | ok container =>
      rw [hcontainer] at h
      cases h
      rfl

def insertAll (scene : Scene) (definitions : List (Path × Container)) : Scene :=
  definitions.foldl (fun scene definition => scene.insert definition.1 definition.2) scene

theorem insertAll_cons (scene : Scene) (definition : Path × Container)
    (rest : List (Path × Container)) :
    scene.insertAll (definition :: rest)
      =
    (scene.insert definition.1 definition.2).insertAll rest := rfl

theorem insertAll_append (scene : Scene) (definitions more : List (Path × Container)) :
    scene.insertAll (definitions ++ more) = (scene.insertAll definitions).insertAll more :=
  List.foldl_append

theorem insertAll_prims (scene : Scene) (definitions : List (Path × Container)) :
    (scene.insertAll definitions).prims = Dict.insertAll scene.prims definitions := by
  induction definitions generalizing scene with
  | nil => rfl
  | cons definition rest ih =>
    rw [insertAll_cons, ih]
    rfl

theorem insertAll_prim? (scene : Scene) (definitions : List (Path × Container)) (path : Path) :
    (scene.insertAll definitions).prim? path
      =
    (Dict.get? definitions.reverse path).or (scene.prim? path) := by
  unfold prim?
  rw [insertAll_prims, Dict.get?_insertAll]

theorem insertAll_paths (scene : Scene) (definitions : List (Path × Container)) :
    (scene.insertAll definitions).paths
      =
    scene.paths ++ ((Dict.keys definitions).filter (· ∉ scene.paths)).eraseDups := by
  unfold paths
  rw [insertAll_prims, Dict.keys_insertAll]

theorem addDescription_eq (scene : Scene) (description : SceneDescription) :
    scene.addDescription description
      =
    (description.flaw?, scene.insertAll description.definitions) := by
  unfold flaw? definitions sound
  induction description generalizing scene with
  | nil => rfl
  | cons entry rest ih =>
    unfold addDescription
    rw [List.findSome?_cons, List.takeWhile_cons]
    cases hflaw : flawOf? entry with
    | some error =>
      rw [addPrim_of_flawOf hflaw]
      rfl
    | none =>
      obtain ⟨definition, hdefinition, _⟩ := exists_definitionOf? hflaw
      rw [addPrim_of_definitionOf? hdefinition]
      dsimp only
      rw [ih]
      simp [hdefinition, insertAll_cons]

theorem foldl_addDescription (scene : Scene) (descriptions : List SceneDescription) :
    descriptions.foldl (fun scene description => (scene.addDescription description).2) scene
      =
    scene.insertAll (descriptions.flatMap (·.definitions)) := by
  induction descriptions generalizing scene with
  | nil => rfl
  | cons description rest ih =>
    rw [List.foldl_cons, ih, List.flatMap_cons, insertAll_append, addDescription_eq]

end Scene

/-!
## Files

Files stay as they are while a scene is loaded from them, so they are read in a reader monad.
-/

/--
What becomes of a file: why it was not loaded, or not to its end, and the prims that it defines
before that.
-/
structure FileLoad where
  error : Option LoadError
  definitions : List (Path × Container)

namespace FileLoad

def failed (error : LoadError) : FileLoad := ⟨some error, []⟩

variable {σ : Type} [FileAccess (ReaderM σ)]

def ofText (format : TextFormat) (text : String) : FileLoad :=
  match format.description? text with
  | none => failed (.unreadable format)
  | some description => ⟨description.flaw?.map .description, description.definitions⟩

def ofFile (files : σ) (path : String) : FileLoad :=
  match (FileAccess.resolve path : ReaderM σ _).run files with
  | .error e => failed (.files e)
  | .ok path =>
    match (FileAccess.read path : ReaderM σ _).run files with
    | .error e => failed (.files e)
    | .ok text => ofText (.ofFileName (Files.nameOf path)) text

def upToFailure : List FileLoad → List FileLoad
  | [] => []
  | load :: rest => if load.error.isSome then [load] else load :: upToFailure rest

end FileLoad

namespace Scene

theorem loadText_eq (scene : Scene) (format : TextFormat) (text : String) :
    scene.loadText format text
      =
    let load := FileLoad.ofText format text
    (load.error, scene.insertAll load.definitions) := by
  unfold loadText FileLoad.ofText
  cases format.description? text with
  | none => rfl
  | some description =>
    dsimp only
    rw [addDescription_eq]

theorem readerM_run_pure {σ α : Type} (a : α) (files : σ) : (pure a : ReaderM σ α).run files = a :=
  rfl

theorem readerM_run_bind {σ α β : Type} (x : ReaderM σ α) (f : α → ReaderM σ β) (files : σ) :
    (x >>= f).run files = (f (x.run files)).run files := rfl

-- In whatever order a directory lists its files, there is one order of their names.
theorem mergeSort_eq_of_perm {names ordered : List String} (hperm : ordered.Perm names)
    (hordered : ordered.Pairwise (· ≤ ·)) : names.mergeSort (fun a b => a ≤ b) = ordered := by
  have hsorted : (names.mergeSort fun a b => a ≤ b).Pairwise fun a b => decide (a ≤ b) := by
    apply List.pairwise_mergeSort
    . intro a b c
      simpa using String.le_trans
    . intro a b
      simpa using String.le_total a b
  apply ((List.mergeSort_perm names _).trans hperm.symm).eq_of_pairwise _ hsorted
  . simpa using hordered
  . intro a b _ _ hab hba
    exact String.le_antisymm (by simpa using hab) (by simpa using hba)

variable {σ : Type} [FileAccess (ReaderM σ)]

theorem loadFile_run (scene : Scene) (files : σ) (path : String) :
    (scene.loadFile path : ReaderM σ _).run files
      =
    let load := FileLoad.ofFile files path
    (load.error, scene.insertAll load.definitions) := by
  unfold loadFile FileLoad.ofFile
  rw [readerM_run_bind]
  cases (FileAccess.resolve path : ReaderM σ _).run files with
  | error e => rfl
  | ok path =>
    dsimp only
    rw [readerM_run_bind]
    cases (FileAccess.read path : ReaderM σ _).run files with
    | error e => rfl
    | ok text =>
      dsimp only
      rw [readerM_run_pure, loadText_eq]

theorem loadFiles_run (scene : Scene) (files : σ) (paths : List String) :
    (scene.loadFiles paths : ReaderM σ _).run files
      =
    let loads := FileLoad.upToFailure (paths.map (FileLoad.ofFile files))
    (loads.findSome? (·.error), scene.insertAll (loads.flatMap (·.definitions))) := by
  induction paths generalizing scene with
  | nil => rfl
  | cons path rest ih =>
    unfold loadFiles
    rw [readerM_run_bind, loadFile_run, List.map_cons, FileLoad.upToFailure]
    dsimp only
    cases herror : (FileLoad.ofFile files path).error with
    | none =>
      dsimp only
      rw [ih]
      simp [herror, insertAll_append]
    | some error =>
      rw [if_pos (Option.isSome_some), List.findSome?_cons, herror, List.flatMap_singleton]
      rfl

theorem loadDirectory_run (scene : Scene) (files : σ) {directory : String} {names : List String}
    (hnames : (FileAccess.fileNames directory : ReaderM σ _).run files = .ok names)
    {ordered : List String} (hperm : ordered.Perm (names.filter isSceneFile))
    (hordered : ordered.Pairwise (· ≤ ·)) (hne : ordered ≠ []) :
    (scene.loadDirectory directory : ReaderM σ _).run files
      =
    (scene.loadFiles (ordered.map (Files.join directory)) : ReaderM σ _).run files := by
  have hsort := mergeSort_eq_of_perm hperm hordered
  unfold loadDirectory
  rw [readerM_run_bind, hnames]
  dsimp only
  rw [hsort, if_neg (by simpa using hne)]

theorem addDescription_eq_and_loadDirectory_run (scene : Scene) :
    (∀ description : SceneDescription,
      scene.addDescription description
          = (description.flaw?, scene.insertAll description.definitions) ∧
        List.Forall₂ SceneDescription.Defines description.sound description.definitions)
      ∧
    (∀ definitions : List (Path × Container),
      (∀ path, (scene.insertAll definitions).prim? path
          = (Dict.get? definitions.reverse path).or (scene.prim? path)) ∧
        (scene.insertAll definitions).paths
          = scene.paths ++ ((Dict.keys definitions).filter (· ∉ scene.paths)).eraseDups)
      ∧
    (∀ descriptions : List SceneDescription,
      descriptions.foldl (fun scene description => (scene.addDescription description).2) scene
        = scene.insertAll (descriptions.flatMap (·.definitions)))
      ∧
    ∀ (files : σ) (directory : String) (names ordered : List String),
      (FileAccess.fileNames directory : ReaderM σ _).run files = .ok names →
      ordered.Perm (names.filter isSceneFile) → ordered.Pairwise (· ≤ ·) → ordered ≠ [] →
      (scene.loadDirectory directory : ReaderM σ _).run files
        =
      let loads := FileLoad.upToFailure
        (ordered.map fun name => FileLoad.ofFile files (Files.join directory name))
      (loads.findSome? (·.error), scene.insertAll (loads.flatMap (·.definitions))) := by
  refine ⟨?_, ?_, scene.foldl_addDescription, ?_⟩
  . exact fun description => ⟨scene.addDescription_eq description, description.defines_definitions⟩
  . exact fun definitions => ⟨scene.insertAll_prim? definitions, scene.insertAll_paths definitions⟩
  . intro files directory names ordered hnames hperm hordered hne
    rw [scene.loadDirectory_run files hnames hperm hordered hne, loadFiles_run, List.map_map]
    rfl

-- The second file in order fails at its second prim, which leaves the first one and keeps the third
-- file from being loaded. The files are those of one directory, by their paths. A prim that is
-- described with all parts takes the place of the one that they load.
theorem addDescription_eq_and_loadDirectory_run_redefined :
    let _access : FileAccess (ReaderM (Dict String String)) := {
      resolve path := return .ok path
      read path := return (Dict.get? (← read) path).elim (.error .notFound) .ok
      fileNames _ := return .ok ((Dict.keys (← read)).map Files.nameOf) }
    let files := [
      ("/b.scene.yaml", "prims:\n  /B:\n    visibility: false\n  x:\n    visibility: true\n"),
      ("/a.scene.yaml", "prims:\n  /B:\n    visibility: true\n  /A:\n    visibility: true\n"),
      ("/c.scene.yml", "prims:\n  /C:\n    visibility: true\n"),
      ("/notes.txt", "")]
    let loaded := (empty.loadDirectory "" : ReaderM (Dict String String) _).run files
    let tilted := Matrix.translation 0 0 5
    let prim : PrimDescription := {
      xform := some ⟨some tilted.toList, some (1, 2, 3), some true⟩
      visibility := some true
      attributes := [("size", .int 4), ("label", .string "b")] }
    let redefined := (loaded.2.addDescription [("/B", prim)]).2
    (loaded.1, loaded.2.paths.map (·.text))
        = (some (.description (.invalidPath "x" (.notAbsolute "x"))), ["/B", "/A"]) ∧
      ∃ path container, Path.ofText "/B" = .ok path ∧ redefined.prim? path = some container ∧
        container.names = ["xform", "visibility", "attributes"] ∧
        container.at? ["xform", "matrix"]
          = some (.value (.matrix ((Matrix.translation 1 2 3).mul tilted))) ∧
        container.at? ["xform", "resetXformStack"] = some (.value (.bool true)) ∧
        container.at? ["visibility", "visibility"] = some (.value (.bool true)) ∧
        container.at? ["attributes", "label"] = some (.value (.string "b")) ∧
        container.at? ["attributes", "color"] = none := by
  intro access files loaded tilted prim redefined
  have hnames : (FileAccess.fileNames "" : ReaderM (Dict String String) _).run files
      = .ok ["b.scene.yaml", "a.scene.yaml", "c.scene.yml", "notes.txt"] := by
    cbv
  have hfilter : ["b.scene.yaml", "a.scene.yaml", "c.scene.yml", "notes.txt"].filter isSceneFile
      = ["b.scene.yaml", "a.scene.yaml", "c.scene.yml"] := by
    decide +kernel
  have hload := (addDescription_eq_and_loadDirectory_run empty).2.2.2 files "" _
    ["a.scene.yaml", "b.scene.yaml", "c.scene.yml"] hnames (by rw [hfilter]; decide) (by decide)
    (by decide)
  obtain ⟨hadd, hput, -⟩ :=
    @addDescription_eq_and_loadDirectory_run (Dict String String) access loaded.2
  obtain ⟨hredefined, hdefines⟩ := hadd [("/B", prim)]
  have hsound : SceneDescription.sound [("/B", prim)] = [("/B", prim)] := by
    have hflaw : (SceneDescription.flawOf? ("/B", prim)).isNone := by decide +kernel
    exact List.takeWhile_cons_of_pos hflaw
  rw [hsound] at hdefines
  constructor
  . unfold loaded
    rw [hload]
    decide +kernel
  . generalize SceneDescription.definitions [("/B", prim)] = definitions at *
    cases hdefines with
    | @cons _ definition _ _ hdefinition hrest =>
      cases hrest
      have hprim : redefined.prim? definition.1 = some definition.2 := by
        unfold redefined
        rw [hredefined, (hput _).1, List.reverse_singleton, Dict.get?_cons, if_pos rfl]
        rfl
      exact ⟨definition.1, definition.2, hdefinition.path, hprim, hdefinition.prim.names,
        hdefinition.prim.leaf "xform" "matrix", hdefinition.prim.leaf "xform" "resetXformStack",
        hdefinition.prim.leaf "visibility" "visibility", hdefinition.prim.leaf "attributes" "label",
        hdefinition.prim.leaf "attributes" "color"⟩

end Scene

end SceneTree
