import SceneTree.Document
import SceneTree.Files
import SceneTree.Json.Writer
import SceneTree.Yaml.Writer

/-!
This module contains the text formats of documents and scenes.
-/

namespace SceneTree

inductive TextFormat where
  | json
  | yaml
deriving DecidableEq

namespace TextFormat

def name : TextFormat → String
  | json => "json"
  | yaml => "yaml"

def ofName? (name : String) : Option TextFormat :=
  [json, yaml].find? (·.name = name)

def ofFileName (name : String) : TextFormat :=
  if Files.extension? name = some json.name then json else yaml

def write (document : Document) : TextFormat → String
  | json => Json.indented document
  | yaml => Yaml.text document

end TextFormat

end SceneTree
