import SceneTree.Yaml.Gap

/-!
This module contains the reading of scalars without quotes, which end where a sign of the structure
starts.
-/

namespace SceneTree.Yaml.Unquoted

def isBracketSign (c : Char) : Bool :=
  c ∈ [',', '[', ']', '\x7b', '\x7d']

def isColon (cs : List Char) : Bool :=
  cs.head? = some ':' && Cursor.isEndOfWord (cs.drop 1)

/--
A colon between brackets that could also be part of the word is refused.
-/
def isUnclear (cs : List Char) : Bool :=
  match cs with
  | ':' :: c :: _ => c = '?' || isBracketSign c
  | _ => false

def readWord (isBracketed : Bool) : Nat → Reading (List Char)
  | 0 => failure
  | fuel + 1 => do
    let cs := (← get).rest
    if isBracketed && isUnclear cs then failure
    match cs with
    | [] => return []
    | c :: _ =>
      if isBlank c || isBreak c || isColon cs || (isBracketed && isBracketSign c) then return []
      Reading.skip 1
      return c :: (← readWord isBracketed fuel)

/--
Read words up to the end of the scalar. Given is the gap before the next word. The answer says
whether the gap behind the last word has a break.
-/
def readWords (isBracketed : Bool) (margin : Nat) (gap : Gap) : Nat → Reading (List Char × Bool)
  | 0 => failure
  | fuel + 1 => do
    let isBroken := !gap.breaks.isEmpty
    let cursor ← get
    if cursor.isAtAnyMark || cursor.peek? = some '#' then return ([], isBroken)
    let word ← readWord isBracketed (cursor.rest.length + 1)
    if word.isEmpty then return ([], isBroken)
    let next ← Gap.read margin
    if !isBracketed && (← get).column < margin then
      return (gap.text ++ word, !next.breaks.isEmpty)
    let (words, isBroken) ← readWords isBracketed margin next fuel
    return (gap.text ++ word ++ words, isBroken)

/--
Read a scalar inside a block whose lines start at the given column. The answer says whether there is
a break behind it.
-/
def read (isBracketed : Bool) (margin : Nat) : Reading (String × Bool) := do
  let (words, isBroken) ← readWords isBracketed margin ⟨[], []⟩ ((← get).rest.length + 1)
  return (String.ofList words, isBroken)

end SceneTree.Yaml.Unquoted
