import SceneTree.Projection.Mapping

/-!
This module contains mapping trees, which find the mapping at an address. The nodes of a tree stand
in one list and refer to each other by their places in it. A node is only ever added behind the node
that refers to it.
-/

namespace SceneTree

inductive MappingSlot where
  /-- A mapping, with its address in the prim. -/
  | property (mapping : PropertyMapping)
  /-- The node at a place of the list. -/
  | node (index : Nat)

abbrev MappingNode := Dict Token MappingSlot

namespace MappingNode

def add (node : MappingNode) (name : Token) (slot : MappingSlot) : MappingNode :=
  node.takeWhile (·.1 < name) ++ (name, slot) :: node.dropWhile (·.1 < name)

end MappingNode

inductive MappingIssue where
  | emptyLocator (name : Token)
  /-- Another property is at the address of the mapping, or above it. -/
  | locatorOccupied (name : Token) (locator : Locator) (existing : Token)
  /-- Other properties are below the address of the mapping. -/
  | containerOccupied (name : Token) (locator : Locator)
deriving DecidableEq

structure MappingTree where
  nodes : List MappingNode

namespace MappingTree

def empty : MappingTree := ⟨[[]]⟩

instance : Inhabited MappingTree := ⟨empty⟩

def node (tree : MappingTree) (index : Nat) : MappingNode :=
  tree.nodes.getD index []

def addSlot (tree : MappingTree) (index : Nat) (name : Token) (slot : MappingSlot) : MappingTree :=
  ⟨tree.nodes.modify index (·.add name slot)⟩

def enter (tree : MappingTree) (index : Nat) (name : Token) : Except Token Nat × MappingTree :=
  match Dict.get? (tree.node index) name with
  | some (.node child) => (.ok child, tree)
  | some (.property existing) => (.error existing.name, tree)
  | none =>
    let child := tree.nodes.length
    (.ok child, ⟨(tree.addSlot index name (.node child)).nodes ++ [[]]⟩)

/--
Go down from a node, name by name. Nodes that were added stay, also in front of an obstacle.
-/
def descend (tree : MappingTree) (index : Nat) : List Token → Except Token Nat × MappingTree
  | [] => (.ok index, tree)
  | name :: rest =>
    match tree.enter index name with
    | (.ok child, tree) => tree.descend child rest
    | failed => failed

def add (tree : MappingTree) (locator : Locator) (mapping : PropertyMapping) :
    Option MappingIssue × MappingTree :=
  match locator.getLast? with
  | none => (some (.emptyLocator mapping.name), tree)
  | some name =>
    match tree.descend 0 locator.dropLast with
    | (.error existing, tree) => (some (.locatorOccupied mapping.name locator existing), tree)
    | (.ok index, tree) =>
      match Dict.get? (tree.node index) name with
      | some (.property existing) =>
        (some (.locatorOccupied mapping.name locator existing.name), tree)
      | some (.node _) => (some (.containerOccupied mapping.name locator), tree)
      | none => (none, tree.addSlot index name (.property mapping))

/--
The container of a node over the properties of an object. A node only refers to later ones.
-/
def container (tree : MappingTree) (object : SceneObject) (scenePath : Path) (index : Nat) :
    Container :=
  { names := Dict.keys (tree.node index)
    child := fun name =>
      match Dict.get? (tree.node index) name with
      | none => none
      | some (.property mapping) => mapping.serve object scenePath
      | some (.node next) =>
        if _ : index < next ∧ next < tree.nodes.length then
          some (tree.container object scenePath next).source
        else none }
termination_by tree.nodes.length - index

end MappingTree

end SceneTree
