import SceneTree.Yaml.Core
import SceneTree.Yaml.Gap

/-!
This module contains the reading of scalars between quotes.
-/

namespace SceneTree.Yaml.Quoted

def shortEscape? (c : Char) : Option Char :=
  match c with
  | '0' => some '\x00'
  | 'a' => some '\x07'
  | 'b' => some '\x08'
  | 't' => some '\t'
  | '\t' => some '\t'
  | 'n' => some '\n'
  | 'v' => some '\x0b'
  | 'f' => some '\x0c'
  | 'r' => some '\r'
  | 'e' => some '\x1b'
  | ' ' => some ' '
  | '"' => some '"'
  | '/' => some '/'
  | '\\' => some '\\'
  | 'N' => some '\u0085'
  | '_' => some '\u00a0'
  | 'L' => some '\u2028'
  | 'P' => some '\u2029'
  | _ => none

def escapeWidth? (c : Char) : Option Nat :=
  match c with
  | 'x' => some 2
  | 'u' => some 4
  | 'U' => some 8
  | _ => none

def readEscape : Reading Char := do
  let c ← (← get).peek?
  Reading.skip 1
  match shortEscape? c, escapeWidth? c with
  | some d, _ => return d
  | none, some width =>
    let digits := (← get).rest.take width
    if digits.length < width then failure
    let code ← Plain.natural? 16 digits
    Reading.skip width
    if code.isValidChar then return Char.ofNat code else failure
  | none, none => failure

/--
Read a word between single quotes, in which a quote is written twice.
-/
def readSingle : Nat → Reading (List Char)
  | 0 => failure
  | fuel + 1 => do
    match (← get).rest with
    | '\'' :: '\'' :: _ =>
      Reading.skip 2
      return '\'' :: (← readSingle fuel)
    | c :: _ =>
      if c = '\'' ∨ isBlank c ∨ isBreak c then return []
      Reading.skip 1
      return c :: (← readSingle fuel)
    | [] => return []

/--
Read a word between double quotes. The answer says whether it ends in an escaped break.
-/
def readDouble : Nat → Reading (List Char × Bool)
  | 0 => failure
  | fuel + 1 => do
    match (← get).rest with
    | '\\' :: c :: _ =>
      Reading.skip 1
      if isBreak c then
        Reading.skip 1
        return ([], true)
      let d ← readEscape
      let (word, isJoined) ← readDouble fuel
      return (d :: word, isJoined)
    | c :: _ =>
      if c = '"' ∨ isBlank c ∨ isBreak c then return ([], false)
      Reading.skip 1
      let (word, isJoined) ← readDouble fuel
      return (c :: word, isJoined)
    | [] => return ([], false)

/--
Read words up to the closing quote. No line of them starts with a mark between documents. Behind an
escaped break, all breaks of a gap are empty lines.
-/
def readWords (quote : Char) : Nat → Reading (List Char)
  | 0 => failure
  | fuel + 1 => do
    if (← get).isAtAnyMark then failure
    let length := (← get).rest.length
    let (word, isJoined) ←
      if quote = '"' then readDouble (length + 1)
      else (·, false) <$> readSingle (length + 1)
    if ← Reading.skipIf quote then return word
    let gap ← Gap.read 0
    if (← get).rest.isEmpty then failure
    return word ++ (if isJoined then gap.breaks else gap.text) ++ (← readWords quote fuel)

def read (quote : Char) : Reading String := do
  Reading.expect quote
  let words ← readWords quote ((← get).rest.length + 1)
  return String.ofList words

end SceneTree.Yaml.Quoted
