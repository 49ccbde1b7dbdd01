import SceneTree.Yaml.Node

/-!
This module contains YAML trees, which are nodes with every alias replaced by what it stands for. How
deep they are and how many aliases are replaced is limited.
-/

namespace SceneTree.Yaml

inductive Tree where
  | scalar (tag : Option String) (form : Form) (text : String)
  | sequence (tag : Option String) (items : List Tree)
  | mapping (tag : Option String) (entries : List (Tree × Tree))

namespace Node

mutual

/--
The size of the written node: one for a scalar or an alias, and two for a collection besides what is
in it.
-/
def size : Node → Nat
  | .scalar _ _ _ => 1
  | .alias _ => 1
  | .sequence _ items => 2 + itemsSize items
  | .mapping _ entries => 2 + entriesSize entries

def itemsSize : List Node → Nat
  | [] => 0
  | item :: rest => size item + itemsSize rest

def entriesSize : List (Node × Node) → Nat
  | [] => 0
  | (key, value) :: rest => size key + size value + entriesSize rest

end

end Node

namespace Graph

abbrev Expand := StateT Nat Option

def target (graph : Graph) : Node → Expand Node
  | .alias number => do
    let left ← get
    if left = 0 then failure
    set (left - 1)
    let serial ← Dict.get? graph.serials number
    let node ← Dict.get? graph.anchored serial
    return node
  | node => return node

def expand (graph : Graph) : Nat → Node → Expand Tree
  | 0, node => do
    match ← graph.target node with
    | .scalar tag form text => return .scalar tag form text
    | _ => failure
  | depth + 1, node => do
    match ← graph.target node with
    | .scalar tag form text => return .scalar tag form text
    | .sequence tag items => return .sequence tag (← items.mapM (expand graph depth))
    | .mapping tag entries =>
      let entries ← entries.mapM fun (key, value) => do
        return (← expand graph depth key, ← expand graph depth value)
      return .mapping tag entries
    | .alias _ => failure

end Graph

namespace Tree

def depthLimit : Nat := 128

def aliasLimit : Nat := 100

def ofText? (text : String) : Option Tree := do
  let graph ← Graph.ofLexemes? (← Lexeme.ofText? text)
  (·.1) <$> (graph.expand depthLimit graph.root).run (aliasLimit * graph.root.size)

end Tree

end SceneTree.Yaml
