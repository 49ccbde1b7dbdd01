import SceneTree.Decimal.Layout
import SceneTree.Value

/-!
This module contains the plain text of values.
-/

namespace SceneTree.Value

def bracketed (items : List String) : String :=
  "[" ++ ", ".intercalate items ++ "]"

def parenthesized (items : List String) : String :=
  "(" ++ ", ".intercalate items ++ ")"

mutual

def text : Value → String
  | bool b => if b then "true" else "false"
  | int i => toString i.toInt
  | double x => Decimal.textLayout.double x
  | token t => t
  | string s => s
  | asset s => s
  | path p => p.text
  | paths ps => bracketed (ps.map Path.text)
  | matrix m =>
    parenthesized (m.columns.map fun c => parenthesized (c.toList.map Decimal.textLayout.double))
  | array items => bracketed (itemTexts items)
  | dictionary entries => "\x7b" ++ ", ".intercalate (entryTexts entries) ++ "\x7d"

def itemTexts : List Value → List String
  | [] => []
  | item :: rest => text item :: itemTexts rest

def entryTexts : List (String × Value) → List String
  | [] => []
  | (key, value) :: rest => (key ++ ": " ++ text value) :: entryTexts rest

end

end SceneTree.Value
