import SceneTree.Json.Number

/-!
This module contains the reading of JSON texts. The grammar is the strict one, and lists and objects
are nested to a limited depth.
-/

namespace SceneTree.Json

/--
What a JSON text says. The members of an object are in the order of the text, repeated ones too.
-/
inductive Tree where
  | null
  | bool (b : Bool)
  | number (n : Number)
  | string (s : String)
  | list (items : List Tree)
  | object (members : List (String × Tree))

namespace Tree

def isBlank (c : Char) : Bool :=
  c = ' ' || c = '\n' || c = '\t' || c = '\r'

def skipBlanks (cs : List Char) : List Char :=
  cs.dropWhile isBlank

def hexDigit? (c : Char) : Option Nat :=
  if c.isDigit then some (c.toNat - '0'.toNat)
  else if 'a' ≤ c ∧ c ≤ 'f' then some (c.toNat - 'a'.toNat + 10)
  else if 'A' ≤ c ∧ c ≤ 'F' then some (c.toNat - 'A'.toNat + 10)
  else none

def hexUnit? : List Char → Option (Nat × List Char)
  | a :: b :: c :: d :: rest => do
    return ((← hexDigit? a) * 4096 + (← hexDigit? b) * 256 + (← hexDigit? c) * 16 + (← hexDigit? d),
      rest)
  | _ => none

/--
The character of an escape by number. Two halves of a pair stand for one character, and a half
without the other for none.
-/
def escapedUnit? (cs : List Char) : Option (Char × List Char) := do
  let (high, rest) ← hexUnit? cs
  if 0xd800 ≤ high ∧ high < 0xdc00 then
    match rest with
    | '\\' :: 'u' :: rest =>
      let (low, rest) ← hexUnit? rest
      if 0xdc00 ≤ low ∧ low < 0xe000 then
        return (Char.ofNat (0x10000 + (high - 0xd800) * 0x400 + (low - 0xdc00)), rest)
      else failure
    | _ => failure
  else if 0xdc00 ≤ high ∧ high < 0xe000 then failure
  else return (Char.ofNat high, rest)

def escaped? : List Char → Option (Char × List Char)
  | 'u' :: rest => escapedUnit? rest
  | c :: rest =>
    match c with
    | '"' => some ('"', rest)
    | '\\' => some ('\\', rest)
    | '/' => some ('/', rest)
    | 'b' => some ('\x08', rest)
    | 'f' => some ('\x0c', rest)
    | 'n' => some ('\n', rest)
    | 'r' => some ('\r', rest)
    | 't' => some ('\t', rest)
    | _ => none
  | [] => none

/--
The rest of a string, and the text behind it. The characters read so far are given in reverse, and
at most `fuel` more are read.
-/
def readString? (reversed : List Char) : Nat → List Char → Option (String × List Char)
  | 0, _ => none
  | _, [] => none
  | fuel + 1, c :: rest =>
    if c = '"' then some (String.ofList reversed.reverse, rest)
    else if c = '\\' then
      match escaped? rest with
      | some (d, rest) => readString? (d :: reversed) fuel rest
      | none => none
    else if c.toNat < 0x20 then none
    else readString? (c :: reversed) fuel rest

mutual

/--
A value at the start of a text, and the text behind it. Lists and objects may be nested `depth - 1`
times. The fuel has to exceed the length of the text.
-/
def read? (depth : Nat) : Nat → List Char → Option (Tree × List Char)
  | 0, _ => none
  | fuel + 1, cs =>
    match skipBlanks cs with
    | 'n' :: 'u' :: 'l' :: 'l' :: rest => some (null, rest)
    | 't' :: 'r' :: 'u' :: 'e' :: rest => some (bool true, rest)
    | 'f' :: 'a' :: 'l' :: 's' :: 'e' :: rest => some (bool false, rest)
    | '"' :: rest => (readString? [] fuel rest).map fun (s, rest) => (string s, rest)
    | '[' :: rest => do
      if depth ≤ 1 then failure
      match skipBlanks rest with
      | ']' :: rest => return (list [], rest)
      | rest =>
        let (items, rest) ← readItems? (depth - 1) fuel rest
        return (list items, rest)
    | '\x7b' :: rest => do
      if depth ≤ 1 then failure
      match skipBlanks rest with
      | '\x7d' :: rest => return (object [], rest)
      | rest =>
        let (members, rest) ← readMembers? (depth - 1) fuel rest
        return (object members, rest)
    | rest => (Number.read? rest).map fun (n, rest) => (number n, rest)

def readItems? (depth : Nat) : Nat → List Char → Option (List Tree × List Char)
  | 0, _ => none
  | fuel + 1, cs => do
    let (item, rest) ← read? depth fuel cs
    match skipBlanks rest with
    | ']' :: rest => return ([item], rest)
    | ',' :: rest =>
      let (items, rest) ← readItems? depth fuel rest
      return (item :: items, rest)
    | _ => failure

def readMembers? (depth : Nat) : Nat → List Char → Option (List (String × Tree) × List Char)
  | 0, _ => none
  | fuel + 1, cs =>
    match skipBlanks cs with
    | '"' :: rest => do
      let (key, rest) ← readString? [] fuel rest
      match skipBlanks rest with
      | ':' :: rest =>
        let (value, rest) ← read? depth fuel rest
        match skipBlanks rest with
        | '\x7d' :: rest => return ([(key, value)], rest)
        | ',' :: rest =>
          let (members, rest) ← readMembers? depth fuel rest
          return ((key, value) :: members, rest)
        | _ => failure
      | _ => failure
    | _ => none

end

def depthLimit : Nat := 128

def ofText? (text : String) : Option Tree :=
  let cs := text.toList
  match read? depthLimit (2 * cs.length + 2) cs with
  | some (tree, rest) => if (skipBlanks rest).isEmpty then some tree else none
  | none => none

end Tree

end SceneTree.Json
