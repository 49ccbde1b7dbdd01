/-!
This module contains the classes of characters that YAML tells apart, cursors in YAML texts, which know
their line and column, and the steps of reading from them.
-/

namespace SceneTree.Yaml

def isBreak (c : Char) : Bool :=
  c = '\n' || c = '\r' || c = '\u0085' || c = '\u2028' || c = '\u2029'

def isBlank (c : Char) : Bool :=
  c = ' ' || c = '\t'

def isWord (c : Char) : Bool :=
  c.isAlphanum || c = '-' || c = '_'

def isAllowed (c : Char) : Bool :=
  c = '\t' || c = '\n' || c = '\r' || (0x20 ≤ c.toNat && c.toNat ≤ 0x7e) || c = '\u0085' ||
    (0xa0 ≤ c.toNat && c.toNat ≤ 0xfffd) || 0x10000 ≤ c.toNat

def isShown (c : Char) : Bool :=
  isAllowed c && c ≠ '\t' && c ≠ '\r' && c ≠ '\u0085' && c ≠ '\ufeff'

/--
A place in a text, and the text behind it. Lines and columns are counted from zero.
-/
structure Cursor where
  rest : List Char
  line : Nat
  column : Nat
  index : Nat
deriving Inhabited

abbrev Reading := StateT Cursor Option

namespace Cursor

/--
All ways to end a line that are no characters of a text are one.
-/
def joinBreaks : List Char → List Char
  | '\r' :: '\n' :: rest => '\n' :: joinBreaks rest
  | '\r' :: rest => '\n' :: joinBreaks rest
  | '\u0085' :: rest => '\n' :: joinBreaks rest
  | c :: rest => c :: joinBreaks rest
  | [] => []

def ofText? (text : String) : Option Cursor :=
  let cs := text.toList
  if cs.all isAllowed then some ⟨joinBreaks cs, 0, 0, 0⟩ else none

def next (cursor : Cursor) : Cursor :=
  match cursor.rest with
  | [] => cursor
  | c :: rest =>
    if isBreak c then ⟨rest, cursor.line + 1, 0, cursor.index + 1⟩
    else ⟨rest, cursor.line, cursor.column + 1, cursor.index + 1⟩

def peek? (cursor : Cursor) : Option Char :=
  cursor.rest.head?

def isEndOfWord (cs : List Char) : Bool :=
  cs.head?.all fun c => isBlank c || isBreak c

/--
Whether a line starts with one of the two marks between documents, three times the given character.
-/
def isAtMark (cursor : Cursor) (mark : Char) : Bool :=
  cursor.column = 0 && cursor.rest.take 3 = [mark, mark, mark] && isEndOfWord (cursor.rest.drop 3)

def isAtAnyMark (cursor : Cursor) : Bool :=
  cursor.isAtMark '-' || cursor.isAtMark '.'

end Cursor

namespace Reading

def skip : Nat → Reading Unit
  | 0 => return
  | n + 1 => do
    modify Cursor.next
    skip n

def readWhile (allows : Cursor → Char → Bool) : Reading (List Char) := do
  go (← get).rest
where
  go : List Char → Reading (List Char)
    | [] => return []
    | c :: rest => do
      if allows (← get) c then
        skip 1
        return c :: (← go rest)
      else return []

def expect (c : Char) : Reading Unit := do
  if (← get).peek? = some c then skip 1 else failure

def skipIf (c : Char) : Reading Bool := do
  if (← get).peek? = some c then
    skip 1
    return true
  else return false

def isAtEndOfWord : Reading Bool :=
  return Cursor.isEndOfWord (← get).rest

def skipBlanks : Reading Unit := do
  let _ ← readWhile fun _ c => isBlank c

def skipComment : Reading Unit := do
  if (← get).peek? = some '#' then
    let _ ← readWhile fun _ c => !isBreak c

def readBreak : Reading (List Char) := do
  match (← get).peek? with
  | some c =>
    if isBreak c then
      skip 1
      return [c]
    else return []
  | none => return []

def skipLineEnd : Reading Unit := do
  skipBlanks
  skipComment
  if (← get).rest ≠ [] ∧ (← readBreak) = [] then failure

end Reading

end SceneTree.Yaml
