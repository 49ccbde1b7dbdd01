import SceneTree.Files
import SceneTree.Scene.Json
import SceneTree.Scene.Load
import SceneTree.Scene.Yaml
import SceneTree.TextFormat

/-!
This module contains the loading of scenes from texts, files and directories. What is loaded later
replaces prims that are there, and an error keeps what was loaded before it.
-/

namespace SceneTree

def TextFormat.description? : TextFormat → String → Option SceneDescription
  | json => Json.description?
  | yaml => Yaml.description?

inductive LoadError where
  | noFiles
  | files (cause : FileError)
  | unreadable (format : TextFormat)
  | description (cause : DescriptionError)
deriving DecidableEq

namespace LoadError

def message : LoadError → String
  | noFiles => "No files found in directory"
  | files _ => "IO error"
  | unreadable format => s!"Unable to parse {format.name} file"
  | description cause => cause.message

def messages (error : LoadError) : List String :=
  error.message :: match error with
    | files cause => [cause.message]
    | description (.invalidPath _ cause) => [cause.message]
    | _ => []

end LoadError

namespace Scene

def loadText (scene : Scene) (format : TextFormat) (text : String) : Option LoadError × Scene :=
  match format.description? text with
  | none => (some (.unreadable format), scene)
  | some description =>
    let (error, scene) := scene.addDescription description
    (error.map .description, scene)

def fileEndings : List String := [".scene.yaml", ".scene.yml", ".scene.json"]

def isSceneFile (name : String) : Bool :=
  fileEndings.any (name.endsWith ·)

variable {m : Type → Type} [Monad m] [FileAccess m]

def loadFile (scene : Scene) (path : String) : m (Option LoadError × Scene) := do
  match ← FileAccess.resolve path with
  | .error e => return (some (.files e), scene)
  | .ok path =>
    match ← FileAccess.read path with
    | .error e => return (some (.files e), scene)
    | .ok text => return scene.loadText (.ofFileName (Files.nameOf path)) text

def loadFiles (scene : Scene) : List String → m (Option LoadError × Scene)
  | [] => return (none, scene)
  | path :: rest => do
    match ← scene.loadFile path with
    | (none, scene) => loadFiles scene rest
    | failed => return failed

def loadDirectory (scene : Scene) (path : String) : m (Option LoadError × Scene) := do
  match ← FileAccess.fileNames path with
  | .error e => return (some (.files e), scene)
  | .ok names =>
    let names := (names.filter isSceneFile).mergeSort fun a b => a ≤ b
    if names.isEmpty then return (some .noFiles, scene)
    else scene.loadFiles (names.map (Files.join path))

end Scene

end SceneTree
