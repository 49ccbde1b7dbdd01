import SceneTree.Decimal.Layout
import SceneTree.Document
import SceneTree.Yaml.Scalar

/-!
This module contains the YAML text of documents, in blocks. A list within a record is not moved to
the right, and a list or record within a list starts on the line of its dash.
-/

namespace SceneTree.Yaml

def layout : Decimal.Layout where
  positional := some (-5, 15)
  keepsPoint := true
  plusSign := false
  tie := .toEven
  nan := ".nan"
  infinity := ".inf"
  negativeInfinity := "-.inf"

def keyLimit : Nat := 128

def isSimpleKey (key : String) : Bool :=
  !key.toList.any isBreak && key.utf8ByteSize ≤ keyLimit

def indentation (column : Nat) : String :=
  String.ofList (margin column)

def simpleKey (key : String) : String :=
  match Style.ofText key with
  | .single => String.ofList (single 0 key.toList)
  | .double => String.ofList (double key.toList)
  | _ => key

/--
What stands before the value of a field, and the column in which the value starts. A key that is not
simple has lines of its own.
-/
def fieldStart (column : Nat) (key : String) (value : Document) : String × Nat :=
  if isSimpleKey key then
    let start := simpleKey key ++ ":"
    match value with
    | .list (_ :: _) => (start ++ "\n" ++ indentation column, column)
    | .record (_ :: _) => (start ++ "\n" ++ indentation (column + 2), column + 2)
    | _ => (start ++ " ", column + 2)
  else
    ("? " ++ scalar (column + 2) key ++ indentation column ++ ": ", column + 2)

mutual

def block (column : Nat) : Document → String
  | .bool b => if b then "true\n" else "false\n"
  | .int i => toString i ++ "\n"
  | .double x => layout.double x ++ "\n"
  | .text s => scalar column s
  | .list [] => "[]\n"
  | .list items => (indentation column).intercalate (blockItems column items)
  | .record [] => "\x7b\x7d\n"
  | .record fields => (indentation column).intercalate (blockFields column fields)

def blockItems (column : Nat) : List Document → List String
  | [] => []
  | item :: rest => ("- " ++ block (column + 2) item) :: blockItems column rest

def blockFields (column : Nat) : List (String × Document) → List String
  | [] => []
  | (key, value) :: rest =>
    let (start, valueColumn) := fieldStart column key value
    (start ++ block valueColumn value) :: blockFields column rest

end

/--
The text of a document. A text that is not in a list or record has its lines moved all the same.
-/
def text : Document → String
  | .text s => scalar 2 s
  | document => block 0 document

end SceneTree.Yaml
