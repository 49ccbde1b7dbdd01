import SceneTree.Yaml.Gap

/-!
This module contains the reading of scalars that are blocks of lines. The lines are kept as they are,
or folded, which joins lines that do not start with a blank.
-/

namespace SceneTree.Yaml.Block

inductive Ending where
  | strip
  | clip
  | keep

def Ending.text (lastBreak emptyLines : List Char) : Ending → List Char
  | strip => []
  | clip => lastBreak
  | keep => lastBreak ++ emptyLines

def readEnding? : Reading (Option Ending) := do
  if ← Reading.skipIf '+' then return some .keep
  else if ← Reading.skipIf '-' then return some .strip
  else return none

def readShift? : Reading (Option Nat) := do
  match (← get).peek? with
  | some c =>
    if c.isDigit then
      if c = '0' then failure
      Reading.skip 1
      return some (c.toNat - '0'.toNat)
    else return none
  | none => return none

def readSigns : Reading (Ending × Option Nat) := do
  match ← readEnding? with
  | some ending => return (ending, ← readShift?)
  | none =>
    let shift ← readShift?
    let ending ← if shift.isSome then readEnding? else pure none
    return (ending.getD .clip, shift)

/--
Read empty lines, and the margin of the line behind them. The answer holds their breaks and the
greatest column among them. Without a given margin, all spaces belong to it.
-/
def readEmptyLines (margin : Option Nat) : Nat → Reading (List Char × Nat)
  | 0 => failure
  | fuel + 1 => do
    let _ ← Reading.readWhile fun cursor c => c = ' ' && margin.all (cursor.column < ·)
    let cursor ← get
    if cursor.peek? = some '\t' ∧ margin.all (cursor.column < ·) then failure
    match ← Reading.readBreak with
    | [] => return ([], cursor.column)
    | b =>
      let (breaks, widest) ← readEmptyLines margin fuel
      return (b ++ breaks, max cursor.column widest)

/--
What stands between two lines. Folding joins lines that are not moved further to the right.
-/
def between (isFolded : Bool) (lastBreak emptyLines : List Char) : List Char :=
  if isFolded ∧ lastBreak = ['\n'] then
    if emptyLines.isEmpty then [' '] else emptyLines
  else lastBreak ++ emptyLines

/--
Read the lines of a block. The answer holds the text, the break of the last line and the empty lines
behind it. Given are the break and the empty lines before the next line, and whether the line before
starts with a blank.
-/
def readLines (isFolded : Bool) (margin : Nat) (lastBreak emptyLines : List Char) (isMoved : Bool) :
    Nat → Reading (List Char × List Char × List Char)
  | 0 => failure
  | fuel + 1 => do
    let cursor ← get
    match cursor.peek? with
    | some c =>
      if cursor.column = margin then
        let isNextMoved := isBlank c
        let gap := between (isFolded && !isMoved && !isNextMoved) lastBreak emptyLines
        let line ← Reading.readWhile fun _ c => !isBreak c
        let nextBreak ← Reading.readBreak
        let (nextLines, _) ← readEmptyLines (some margin) ((← get).rest.length + 1)
        let (text, tail) ← readLines isFolded margin nextBreak nextLines isNextMoved fuel
        return (gap ++ line ++ text, tail)
      else return ([], lastBreak, emptyLines)
    | none => return ([], lastBreak, emptyLines)

def read (isFolded : Bool) (outer : Option Nat) : Reading String := do
  let (ending, shift) ← readSigns
  Reading.skipLineEnd
  let given := shift.map fun n => outer.getD 0 + n
  let (emptyLines, widest) ← readEmptyLines given ((← get).rest.length + 1)
  let least := match outer with
    | some column => column + 1
    | none => 1
  let margin := given.getD (max widest least)
  let (text, lastBreak, emptyLines) ←
    readLines isFolded margin [] emptyLines false ((← get).rest.length + 1)
  return String.ofList (text ++ ending.text lastBreak emptyLines)

end SceneTree.Yaml.Block
