/-!
This module contains the access to files that a program needs, as operations of the monad it runs in.
Paths of files are texts with separators between names.
-/

namespace SceneTree

inductive FileError where
  | notFound
  | notDirectory
  | isDirectory
  | other (message : String)
deriving DecidableEq

namespace FileError

def message : FileError → String
  | notFound => "No such file or directory (os error 2)"
  | notDirectory => "Not a directory (os error 20)"
  | isDirectory => "Is a directory (os error 21)"
  | other message => message

end FileError

class FileAccess (m : Type → Type) where
  /-- The path of an existing file or directory, without detours. -/
  resolve : String → m (Except FileError String)
  read : String → m (Except FileError String)
  /-- The names of the files in a directory, without those in further directories. -/
  fileNames : String → m (Except FileError (List String))

namespace Files

/--
A path that starts at the given directory, unless it starts at the root.
-/
def join (directory path : String) : String :=
  if path.startsWith "/" then path else directory ++ "/" ++ path

def nameOf (path : String) : String :=
  String.ofList (path.toList.reverse.takeWhile (· ≠ '/')).reverse

/--
What stands behind the last point of a name. A name that is nothing but a point and what is behind it
has no extension.
-/
def extension? (name : String) : Option String :=
  let reversed := name.toList.reverse
  match reversed.dropWhile (· ≠ '.') with
  | _ :: _ :: _ => some (String.ofList (reversed.takeWhile (· ≠ '.')).reverse)
  | _ => none

end Files

end SceneTree
