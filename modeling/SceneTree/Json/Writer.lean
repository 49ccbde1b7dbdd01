import SceneTree.Decimal.Layout
import SceneTree.Document
import SceneTree.Text.Quoted

/-!
This module contains the JSON text of documents, on one line or indented.
-/

namespace SceneTree.Json

/--
Numbers in JSON: positional from `0.00001` to below `10 ^ 16`, with a point, and no text for what is
not a finite number.
-/
def layout : Decimal.Layout where
  positional := some (-5, 15)
  keepsPoint := true
  plusSign := true
  tie := .toEven
  nan := "null"
  infinity := "null"
  negativeInfinity := "null"

def escapeChar (c : Char) : String :=
  match c with
  | '"' => "\\\""
  | '\\' => "\\\\"
  | '\x08' => "\\b"
  | '\x0c' => "\\f"
  | '\n' => "\\n"
  | '\r' => "\\r"
  | '\t' => "\\t"
  | c =>
    if c.toNat < 0x20 then
      "\\u00" ++ (if c.toNat < 0x10 then "0" else "") ++ Text.hex c.toNat
    else c.toString

def string (s : String) : String :=
  "\"" ++ String.join (s.toList.map escapeChar) ++ "\""

/--
Items between brackets, each on a line of its own where a depth is given. The closing bracket stands
at that depth and the items one step further in.
-/
def enclosed (opening closing : String) (depth : Option Nat) (items : List String) : String :=
  if items.isEmpty then opening ++ closing
  else match depth with
    | none => opening ++ ",".intercalate items ++ closing
    | some depth =>
      let line (depth : Nat) := "\n" ++ String.ofList (List.replicate (2 * depth) ' ')
      opening ++ line (depth + 1) ++ ("," ++ line (depth + 1)).intercalate items ++ line depth ++
        closing

mutual

def render (depth : Option Nat) : Document → String
  | .bool b => if b then "true" else "false"
  | .int i => toString i
  | .double x => layout.double x
  | .text s => string s
  | .list items => enclosed "[" "]" depth (renderItems (depth.map (· + 1)) items)
  | .record fields => enclosed "\x7b" "\x7d" depth (renderFields (depth.map (· + 1)) fields)

def renderItems (depth : Option Nat) : List Document → List String
  | [] => []
  | item :: rest => render depth item :: renderItems depth rest

def renderFields (depth : Option Nat) : List (String × Document) → List String
  | [] => []
  | (key, value) :: rest =>
    (string key ++ (if depth.isSome then ": " else ":") ++ render depth value) ::
      renderFields depth rest

end

def compact (document : Document) : String :=
  render none document

def indented (document : Document) : String :=
  render (some 0) document

end SceneTree.Json
