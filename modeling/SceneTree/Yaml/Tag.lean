import SceneTree.Yaml.Core
import SceneTree.Yaml.Cursor

/-!
This module contains the tags of nodes, which name a kind of value. A tag is written with a handle,
which directives may give a meaning, or in full between angle brackets.
-/

namespace SceneTree.Yaml

/--
A tag as it is written. A tag in full has an empty handle.
-/
structure Tag where
  handle : String
  rest : String
deriving DecidableEq

namespace Tag

def core : String := "tag:yaml.org,2002:"

def isNull (tag : String) : Bool := tag = core ++ "null"

def isBool (tag : String) : Bool := tag = core ++ "bool"

def isInt (tag : String) : Bool := tag = core ++ "int"

def isFloat (tag : String) : Bool := tag = core ++ "float"

def isLocal (tag : String) : Bool :=
  tag.startsWith "!"

def isSign (c : Char) : Bool :=
  c ∈ [';', '/', '?', ':', '@', '&', '=', '+', '$', '.', '!', '~', '*', '\'', '(', ')']

def byteCount? (byte : Nat) : Option Nat :=
  if byte < 0x80 then some 1
  else if 0xc0 ≤ byte ∧ byte < 0xe0 then some 2
  else if 0xe0 ≤ byte ∧ byte < 0xf0 then some 3
  else if 0xf0 ≤ byte ∧ byte < 0xf8 then some 4
  else none

def readByte : Reading Nat := do
  Reading.expect '%'
  let digits := (← get).rest.take 2
  if digits.length < 2 then failure
  let byte ← Plain.natural? 16 digits
  Reading.skip 2
  return byte

def readMoreBytes : Nat → Reading Unit
  | 0 => return
  | n + 1 => do
    let byte ← readByte
    if byte < 0x80 ∨ 0xc0 ≤ byte then failure
    readMoreBytes n

/--
Read an escaped character. No tag that means something holds one of more than one byte, so that all
of those are the same character here.
-/
def readEscape : Reading Char := do
  let byte ← readByte
  let count ← byteCount? byte
  readMoreBytes (count - 1)
  return if count = 1 then Char.ofNat byte else '\ufffd'

/--
Read the characters of a tag. In full tags, some signs of the structure belong to them.
-/
def readCharacters (isFull : Bool) : Nat → Reading (List Char)
  | 0 => failure
  | fuel + 1 => do
    match (← get).peek? with
    | none => return []
    | some c =>
      if c = '%' then
        let c ← readEscape
        return c :: (← readCharacters isFull fuel)
      else if isWord c || isSign c || (isFull && c ∈ [',', '[', ']']) then
        Reading.skip 1
        return c :: (← readCharacters isFull fuel)
      else return []

/--
The text of a tag ends before an escaped zero.
-/
def textOf (cs : List Char) : String :=
  String.ofList (cs.takeWhile (· ≠ '\x00'))

def readRest (isFull : Bool) : Reading String := do
  let cs ← readCharacters isFull ((← get).rest.length + 1)
  if cs.isEmpty then failure
  return textOf cs

def readHandle : Reading String := do
  Reading.expect '!'
  let word ← Reading.readWhile fun _ c => isWord c
  let isClosed ← Reading.skipIf '!'
  return String.ofList ('!' :: word ++ (if isClosed then ['!'] else []))

/--
Whether the exclamation mark at the start has another one at the end, so that this is a handle.
-/
def isClosed (handle : String) : Bool :=
  2 ≤ handle.length && handle.endsWith "!"

/--
Read a tag. A lone exclamation mark is a tag in full.
-/
def read (isBracketed : Bool) : Reading Tag := do
  let tag ← match (← get).rest with
    | '!' :: '<' :: _ => do
      Reading.skip 2
      let rest ← readRest true
      Reading.expect '>'
      pure ⟨"", rest⟩
    | _ => do
      let handle ← readHandle
      if isClosed handle then pure ⟨handle, ← readRest false⟩
      else
        let cs ← readCharacters false ((← get).rest.length + 1)
        let rest := textOf (handle.toList.drop 1 ++ cs)
        pure (if rest = "" then ⟨"", "!"⟩ else ⟨"!", rest⟩)
  if !(← Reading.isAtEndOfWord) && !(isBracketed && (← get).peek? = some ',') then failure
  return tag

end Tag

end SceneTree.Yaml
