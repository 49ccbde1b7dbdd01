import SceneTree.Yaml.Tag

/-!
This module contains the lexemes of YAML texts. Blocks, which the text shows by indentation alone,
have lexemes for their starts and ends.
-/

namespace SceneTree.Yaml

inductive Form where
  | plain
  | quoted
  | literal
  | folded
deriving DecidableEq

inductive Shape where
  | sequence
  | mapping
deriving DecidableEq

inductive Lexeme where
  /-- The directive that names a version of the language. -/
  | version (major minor : Nat)
  /-- The directive that gives a handle of tags its meaning. -/
  | handle (name meaning : String)
  | documentStart
  | documentEnd
  | openBlock (shape : Shape)
  | closeBlock
  | openBracket (shape : Shape)
  | closeBracket (shape : Shape)
  /-- A dash before an item of a block. -/
  | item
  /-- A comma between brackets. -/
  | comma
  /-- The start of a key, written or not. -/
  | key
  /-- A colon before a value. -/
  | value
  | alias (name : String)
  | anchor (name : String)
  | tag (tag : Tag)
  | scalar (form : Form) (text : String)
deriving DecidableEq

namespace Lexeme

def versionDigits : Nat := 9

def readVersionPart : Reading Nat := do
  let digits ← Reading.readWhile fun _ c => c.isDigit
  if versionDigits < digits.length then failure
  Plain.natural? 10 digits

def readDirective : Reading Lexeme := do
  Reading.expect '%'
  let name ← Reading.readWhile fun _ c => isWord c
  if !(← Reading.isAtEndOfWord) then failure
  Reading.skipBlanks
  let directive ← match String.ofList name with
    | "YAML" => do
      let major ← readVersionPart
      Reading.expect '.'
      pure (version major (← readVersionPart))
    | "TAG" => do
      let name ← Tag.readHandle
      if name ≠ "!" ∧ !Tag.isClosed name then failure
      if !((← get).peek?.any isBlank) then failure
      Reading.skipBlanks
      let meaning ← Tag.readRest true
      if !(← Reading.isAtEndOfWord) then failure
      pure (handle name meaning)
    | _ => failure
  Reading.skipLineEnd
  return directive

def endsName (cs : List Char) : Bool :=
  Cursor.isEndOfWord cs || cs.head?.any (· ∈ ['?', ':', ',', ']', '\x7d', '%', '@', '\x60'])

def readName : Reading String := do
  let name ← Reading.readWhile fun _ c => isWord c
  if name.isEmpty || !endsName (← get).rest then failure
  return String.ofList name

end Lexeme

end SceneTree.Yaml
