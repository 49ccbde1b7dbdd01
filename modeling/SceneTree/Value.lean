import SceneTree.Dict
import SceneTree.Locator
import SceneTree.Matrix
import SceneTree.Path

/-!
This module contains the values that leaves of scene data hold, their equality, and their typed
reading.
-/

namespace SceneTree

/--
A value. There is no missing value: absence is a matter of the tree that holds it.
-/
inductive Value where
  | bool (b : Bool)
  | int (i : Int64)
  | double (x : Float)
  | token (t : Token)
  | string (s : String)
  /-- The path of a file, as written. -/
  | asset (s : String)
  | path (p : Path)
  | paths (ps : List Path)
  | matrix (m : Matrix)
  | array (items : List Value)
  | dictionary (entries : List (String × Value))
deriving Inhabited

namespace Value

def typeName : Value → String
  | bool _ => "bool"
  | int _ => "int"
  | double _ => "double"
  | token _ => "token"
  | string _ => "string"
  | asset _ => "asset"
  | path _ => "path"
  | paths _ => "path[]"
  | matrix _ => "matrix4d"
  | array _ => "array"
  | dictionary _ => "dictionary"

mutual

/--
Equality of values. Values of different kinds differ, numbers compare as numbers, and dictionaries
compare without regard to order.
-/
def same : Value → Value → Bool
  | bool a, bool b => a == b
  | int a, int b => a == b
  | double a, double b => a == b
  | token a, token b => a == b
  | string a, string b => a == b
  | asset a, asset b => a == b
  | path a, path b => a == b
  | paths a, paths b => a == b
  | matrix a, matrix b => a.same b
  | array a, array b => sameItems a b
  | dictionary a, dictionary b => a.length == b.length && sameEntries a b
  | _, _ => false

def sameItems : List Value → List Value → Bool
  | [], [] => true
  | a :: as, b :: bs => same a b && sameItems as bs
  | _, _ => false

def sameEntries : List (String × Value) → Dict String Value → Bool
  | [], _ => true
  | (key, a) :: rest, other =>
    (match Dict.get? other key with
      | some b => same a b
      | none => false) && sameEntries rest other

end

def toBool? : Value → Option Bool
  | bool b => some b
  | _ => none

def toInt? : Value → Option Int64
  | int i => some i
  | _ => none

def toDouble? : Value → Option Float
  | double x => some x
  | int i => some i.toFloat
  | _ => none

def toToken? : Value → Option Token
  | token t => some t
  | _ => none

def toString? : Value → Option String
  | string s => some s
  | asset s => some s
  | token t => some t
  | _ => none

def toPath? : Value → Option Path
  | path p => some p
  | _ => none

def toPaths? : Value → Option (List Path)
  | paths ps => some ps
  | _ => none

def toMatrix? : Value → Option Matrix
  | matrix m => some m
  | _ => none

def toDictionary? : Value → Option (Dict String Value)
  | dictionary entries => some entries
  | _ => none

end Value

end SceneTree
