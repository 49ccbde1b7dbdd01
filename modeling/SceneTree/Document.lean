import SceneTree.Value

/-!
This module contains documents, the tree of scalars, lists and records that data formats write, and
the document of a value.
-/

namespace SceneTree

inductive Document where
  | bool (b : Bool)
  | int (i : Int)
  | double (x : Float)
  | text (s : String)
  | list (items : List Document)
  | record (fields : List (String × Document))
deriving Inhabited

namespace Document

mutual

/--
The document of a value: paths and all kinds of text are texts, and a matrix is the list of its
numbers, column by column.
-/
def ofValue : Value → Document
  | .bool b => bool b
  | .int i => int i.toInt
  | .double x => double x
  | .token t => text t
  | .string s => text s
  | .asset s => text s
  | .path p => text p.text
  | .paths ps => list (ps.map fun p => text p.text)
  | .matrix m => list (m.toList.map double)
  | .array items => list (ofItems items)
  | .dictionary entries => record (ofEntries entries)

def ofItems : List Value → List Document
  | [] => []
  | item :: rest => ofValue item :: ofItems rest

def ofEntries : List (String × Value) → List (String × Document)
  | [] => []
  | (key, value) :: rest => (key, ofValue value) :: ofEntries rest

end

end Document

end SceneTree
