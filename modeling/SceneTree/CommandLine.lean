import SceneTree.CommandLine.Arguments
import SceneTree.Flatten.Cache
import SceneTree.Scene.Files
import SceneTree.Source.Leaves

/-!
This module contains the program of the command line. It loads scenes from files and prints prims, as
a function of its arguments and of the files that it has access to.
-/

namespace SceneTree.Text

/--
A line from its characters in reverse. A carriage return before the end belongs to the end.
-/
def ended : List Char → List Char
  | '\r' :: rest => rest.reverse
  | reversed => reversed.reverse

/--
The lines behind the given characters of the first one, which are in reverse. Nothing behind the last
end is no line.
-/
def linesFrom (reversed : List Char) : List Char → List String
  | [] => if reversed.isEmpty then [] else [String.ofList reversed.reverse]
  | c :: rest =>
    if c = '\n' then String.ofList (ended reversed) :: linesFrom [] rest
    else linesFrom (c :: reversed) rest

def lines (text : String) : List String :=
  linesFrom [] text.toList

end SceneTree.Text

namespace SceneTree.CommandLine

structure Outcome where
  output : String
  errors : List String
  code : Nat
deriving DecidableEq

namespace Outcome

def success (output : String) : Outcome := ⟨output, [], 0⟩

def failure (output : String) (errors : List String) : Outcome := ⟨output, errors, 1⟩

end Outcome

def selected (scene : Scene) (prims : List String) : Except (List String) (List Path) :=
  if prims.isEmpty then return scene.paths
  else prims.mapM fun prim =>
    (Path.ofText prim).mapError fun e => ["Invalid prim path " ++ Text.quoted prim, e.message]

def missingPrim (path : Path) : String := s!"No prim at {path}"

def values (t : Time) (cache : FlattenCache) :
    List Path → Except (List String) (Dict String Value)
  | [] => return []
  | path :: rest => do
    let (prim, cache) := cache.prim? path
    let some prim := prim | throw [missingPrim path]
    let more ← values t cache rest
    match prim.source.toValue t with
    | some value => return (path.text, value) :: more
    | none => return more

def flatten (scene : Scene) (settings : Settings) : Outcome :=
  let result := do
    let paths ← selected scene settings.prims
    values (settings.time.getD .zero) (.new scene .standard) paths
  match result with
  | .error errors => .failure "" errors
  | .ok entries =>
    let document := Document.ofValue (.dictionary (Dict.ofList entries))
    .success ((settings.format.getD .yaml).write document)

def primListing (t : Time) (path : Path) (prim : Container) : String :=
  let lines := (Text.lines (prim.source.listing t)).map ("  " ++ ·)
  String.join ((path.text :: lines).map (· ++ "\n"))

def listings (find : FlattenCache → Path → Option Container × FlattenCache) (t : Time)
    (output : String) (cache : FlattenCache) : List Path → Outcome
  | [] => .success output
  | path :: rest =>
    match find cache path with
    | (none, _) => .failure output [missingPrim path]
    | (some prim, cache) => listings find t (output ++ primListing t path prim) cache rest

def dump (scene : Scene) (settings : Settings) : Outcome :=
  match selected scene settings.prims with
  | .error errors => .failure "" errors
  | .ok paths =>
    let find (cache : FlattenCache) (path : Path) :=
      if settings.isFlattened then cache.prim? path else (cache.scene.prim? path, cache)
    listings find (settings.time.getD .zero) "" (.new scene .standard) paths

def Command.run (scene : Scene) (settings : Settings) : Command → Outcome
  | flatten => CommandLine.flatten scene settings
  | dump => CommandLine.dump scene settings

variable {m : Type → Type} [Monad m] [FileAccess m]

def enter (directory : String) : List String → m (Except (List String) String)
  | [] => return .ok directory
  | path :: rest => do
    match ← FileAccess.resolve (Files.join directory path) with
    | .error e =>
      return .error [s!"Failed to resolve path for -C/--directory {path}", e.message]
    | .ok found =>
      -- only a directory has something behind it
      match ← FileAccess.resolve (found ++ "/") with
      | .error e => return .error [s!"Failed to set work directory to {found}", e.message]
      | .ok _ => enter found rest

def loadAll (load : Scene → String → m (Option LoadError × Scene)) (directory : String)
    (scene : Scene) : List String → m (Except (List String) Scene)
  | [] => return .ok scene
  | path :: rest => do
    match ← load scene (Files.join directory path) with
    | (some e, _) => return .error (s!"Failed to load {path}" :: e.messages)
    | (none, scene) => loadAll load directory scene rest

/--
Load a scene from the named files and directories, or from the work directory if none are named.
-/
def load (directory : String) (settings : Settings) : m (Except (List String) Scene) := do
  if settings.files.isEmpty ∧ settings.directories.isEmpty then
    match ← Scene.empty.loadDirectory directory with
    | (some e, _) => return .error e.messages
    | (none, scene) => return .ok scene
  else
    match ← loadAll Scene.loadFile directory .empty settings.files with
    | .error errors => return .error errors
    | .ok scene => loadAll Scene.loadDirectory directory scene settings.directories

def open? (directory : String) (settings : Settings) : m (Except (List String) Scene) := do
  match ← enter directory settings.workDirectories with
  | .error errors => return .error errors
  | .ok directory =>
    match ← load directory settings with
    | .error errors => return .error errors
    | .ok scene => return if scene.isEmpty then .error ["No prims loaded"] else .ok scene

def usage : List String :=
  ["Usage: [-C <directory>]... flatten [options] [prims]...",
    "       [-C <directory>]... dump [options] [prims]...",
    "",
    "  -C, --directory <directory>      change the work directory",
    "  -f, --input-file <file>          load a file",
    "  -d, --input-dir <directory>      load the scene files of a directory",
    "  -t, --time <time>                shutter offset, 0 by default",
    "  -F, --output-format <format>     json or yaml, yaml by default (flatten)",
    "      --flattened                  flattened prims instead of described ones (dump)",
    "  -h, --help                       print this text"]

def run (directory : String) (arguments : List String) : m Outcome := do
  match read arguments with
  | .error .refused => return { output := "", errors := usage, code := 2 }
  | .error .help => return .success (String.join (usage.map (· ++ "\n")))
  | .error .version => return .success "0.1.0\n"
  | .ok (command, settings) =>
    match ← open? directory settings with
    | .error errors => return .failure "" errors
    | .ok scene => return command.run scene settings

end SceneTree.CommandLine
