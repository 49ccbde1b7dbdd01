import SceneTree.Dict
import SceneTree.Files

/-!
This module contains trees of files, and the access to files that are in such a tree.
-/

namespace SceneTree

inductive FileTree where
  | file (text : String)
  | directory (entries : List (String × FileTree))
deriving Inhabited

namespace FileTree

def empty : FileTree := directory []

def entries : FileTree → Dict String FileTree
  | file _ => []
  | directory entries => entries

def find? (tree : FileTree) : List String → Option FileTree
  | [] => some tree
  | name :: rest => do find? (← Dict.get? tree.entries name) rest

/--
Put a tree at the end of a list of names, where directories are made as they are needed. A directory
stays as it is if it is put in place of itself.
-/
def insert (tree : FileTree) (leaf : FileTree) : List String → FileTree
  | [] =>
    match tree, leaf with
    | directory entries, directory _ => directory entries
    | _, leaf => leaf
  | name :: rest =>
    directory (Dict.insert tree.entries name
      (insert ((Dict.get? tree.entries name).getD empty) leaf rest))

def names (path : String) : List String :=
  path.splitOn "/"

/--
Follow a path from the place that is given by names, the last one first. Only directories have
something behind them, were it nothing but a separator.
-/
def walk (tree : FileTree) (reversed : List String) :
    List String → Except FileError (List String)
  | [] => .ok reversed.reverse
  | name :: rest =>
    match tree.find? reversed.reverse with
    | some (directory entries) =>
      if name = "" ∨ name = "." then walk tree reversed rest
      else if name = ".." then walk tree (reversed.drop 1) rest
      else if Dict.contains entries name then walk tree (name :: reversed) rest
      else .error .notFound
    | some (file _) => .error .notDirectory
    | none => .error .notFound

def at? (tree : FileTree) (path : String) : Except FileError FileTree := do
  match tree.find? (← tree.walk [] (names path)) with
  | some node => return node
  | none => throw .notFound

def resolve (tree : FileTree) (path : String) : Except FileError String := do
  return "/" ++ "/".intercalate (← tree.walk [] (names path))

def read (tree : FileTree) (path : String) : Except FileError String := do
  match ← tree.at? path with
  | file text => return text
  | directory _ => throw .isDirectory

def fileNames (tree : FileTree) (path : String) : Except FileError (List String) := do
  match ← tree.at? path with
  | file _ => throw .notDirectory
  | directory entries =>
    return entries.filterMap fun
      | (name, file _) => some name
      | _ => none

end FileTree

instance : FileAccess (ReaderM FileTree) where
  resolve path := return (← read).resolve path
  read path := return (← read).read path
  fileNames path := return (← read).fileNames path

end SceneTree
