import SceneTree.CommandLine

/-!
This module contains the program itself, which runs the command line on the files of the system.
-/

namespace SceneTree

def FileError.ofIO : IO.Error → FileError
  | .noFileOrDirectory _ _ _ => .notFound
  | .inappropriateType _ code details =>
    if code = 20 then .notDirectory
    else if code = 21 then .isDirectory
    else .other s!"{details} (os error {code})"
  | .permissionDenied _ code details => .other s!"{details} (os error {code})"
  | e => .other (toString e)

def FileAccess.attempt {α : Type} (access : IO α) : IO (Except FileError α) := do
  try
    return .ok (← access)
  catch e =>
    return .error (.ofIO e)

instance : FileAccess IO where
  resolve path := FileAccess.attempt do
    -- this says why there is nothing at the path
    let _ ← ((← IO.currentDir) / path).metadata
    return (← IO.FS.realPath path).toString
  read path := FileAccess.attempt (IO.FS.readFile path)
  fileNames path := FileAccess.attempt do
    let entries ← ((← IO.currentDir) / path).readDir
    let files ← entries.filterM fun entry => return (← entry.path.symlinkMetadata).type == .file
    return files.toList.map (·.fileName)

end SceneTree

def main (arguments : List String) : IO UInt32 := do
  let outcome ← SceneTree.CommandLine.run (← IO.currentDir).toString arguments
  IO.print outcome.output
  for error in outcome.errors do
    IO.eprintln error
  return .ofNat outcome.code
