import SceneTree.Yaml.Lexeme
import SceneTree.Yaml.Scalar.Block
import SceneTree.Yaml.Scalar.Quoted
import SceneTree.Yaml.Scalar.Unquoted

/-!
This module contains the splitting of texts into lexemes. Indentation opens and closes blocks, and a
node turns out to be a key only when a colon follows it, so that lexemes are also put in front of
ones that were found before.
-/

namespace SceneTree.Yaml

/--
The start of a node that is a key if a colon follows soon.
-/
structure Candidate where
  /-- The number of lexemes before the node. -/
  position : Nat
  line : Nat
  column : Nat
  index : Nat
  /-- Whether nothing but a key may stand in this place. -/
  isRequired : Bool

structure Lexer where
  cursor : Cursor
  /-- The lexemes so far, the last one first. -/
  reversed : List Lexeme
  /-- The columns of the open blocks, the innermost first. -/
  blocks : List Nat
  /-- The last node between the innermost brackets, if it may still be a key. -/
  candidate : Option Candidate
  /-- The same for each enclosing pair of brackets, and outside of all. -/
  outer : List (Option Candidate)
  /-- Whether a key, or an item of a block, may start here. -/
  allowsKey : Bool

abbrev Lexing := StateT Lexer Option

namespace Lexer

def keyLimit : Nat := 1024

def isBracketed (lexer : Lexer) : Bool :=
  !lexer.outer.isEmpty

def margin (lexer : Lexer) : Nat :=
  match lexer.blocks with
  | [] => 0
  | column :: _ => column + 1

def isStale (cursor : Cursor) (candidate : Candidate) : Bool :=
  candidate.line < cursor.line || candidate.index + keyLimit < cursor.index

end Lexer

namespace Lexing

def read {α : Type} (reading : Reading α) : Lexing α := fun lexer =>
  (reading.run lexer.cursor).map fun (a, cursor) => (a, { lexer with cursor })

def add (lexeme : Lexeme) : Lexing Unit :=
  modify fun lexer => { lexer with reversed := lexeme :: lexer.reversed }

def insert (position : Nat) (lexeme : Lexeme) : Lexing Unit :=
  modify fun lexer =>
    { lexer with
      reversed := lexer.reversed.insertIdx (lexer.reversed.length - position) lexeme }

def setAllowsKey (allowsKey : Bool) : Lexing Unit :=
  modify fun lexer => { lexer with allowsKey }

/--
Open a block if the column is further to the right than the innermost one. Between brackets there
are no blocks.
-/
def openBlock (shape : Shape) (column : Nat) (position : Option Nat) : Lexing Unit := do
  let lexer ← get
  if !lexer.isBracketed && lexer.blocks.head?.all (· < column) then
    match position with
    | some position => insert position (.openBlock shape)
    | none => add (.openBlock shape)
    modify fun lexer => { lexer with blocks := column :: lexer.blocks }

def closeBlocks (isClosed : Nat → Bool) : Lexing Unit := do
  let lexer ← get
  if !lexer.isBracketed then
    let closed := lexer.blocks.takeWhile isClosed
    set { lexer with
      blocks := lexer.blocks.dropWhile isClosed
      reversed := closed.map (fun _ => Lexeme.closeBlock) ++ lexer.reversed }

def dropCandidate : Lexing Unit := do
  let lexer ← get
  if lexer.candidate.any (·.isRequired) then failure
  set { lexer with candidate := none }

def dropStaleCandidates : Lexing Unit := do
  let lexer ← get
  let isStale := Lexer.isStale lexer.cursor
  if (lexer.candidate :: lexer.outer).any (·.any fun c => isStale c && c.isRequired) then failure
  let fresh : Option Candidate → Option Candidate := (·.filter fun c => !isStale c)
  set { lexer with candidate := fresh lexer.candidate, outer := lexer.outer.map fresh }

def offerCandidate : Lexing Unit := do
  if (← get).allowsKey then
    dropCandidate
    modify fun lexer =>
      { lexer with
        candidate := some {
          position := lexer.reversed.length
          line := lexer.cursor.line
          column := lexer.cursor.column
          index := lexer.cursor.index
          isRequired := !lexer.isBracketed && lexer.blocks.head? = some lexer.cursor.column } }

def addSign (length : Nat) (lexeme : Lexeme) : Lexing Unit := do
  read (Reading.skip length)
  add lexeme

def addNode (reading : Reading Lexeme) : Lexing Unit := do
  offerCandidate
  setAllowsKey false
  add (← read reading)

/--
Skip blanks, comments and breaks. Tabs do not count as blanks where a key may start.
-/
def skipToNext : Nat → Lexing Unit
  | 0 => failure
  | fuel + 1 => do
    let allowsTab := (← get).isBracketed || !(← get).allowsKey
    let _ ← read (Reading.readWhile fun _ c => c = ' ' || (allowsTab && c = '\t'))
    read Reading.skipComment
    match ← read Reading.readBreak with
    | [] => return
    | _ =>
      if !(← get).isBracketed then setAllowsKey true
      skipToNext fuel

def addTopLevel (reading : Reading Lexeme) : Lexing Unit := do
  closeBlocks fun _ => true
  dropCandidate
  setAllowsKey false
  add (← read reading)

def addOpenBracket (shape : Shape) : Lexing Unit := do
  offerCandidate
  modify fun lexer =>
    { lexer with candidate := none, outer := lexer.candidate :: lexer.outer, allowsKey := true }
  addSign 1 (.openBracket shape)

def addCloseBracket (shape : Shape) : Lexing Unit := do
  dropCandidate
  modify fun lexer =>
    match lexer.outer with
    | candidate :: outer => { lexer with candidate, outer }
    | [] => lexer
  setAllowsKey false
  addSign 1 (.closeBracket shape)

def addComma : Lexing Unit := do
  dropCandidate
  setAllowsKey true
  addSign 1 .comma

/--
Start an item or a key or value without a known key. Outside of brackets it starts a block if it is
further to the right.
-/
def startEntry (shape : Shape) : Lexing Unit := do
  let lexer ← get
  if !lexer.isBracketed then
    if !lexer.allowsKey then failure
    openBlock shape lexer.cursor.column none

def addItem : Lexing Unit := do
  startEntry .sequence
  dropCandidate
  setAllowsKey true
  addSign 1 .item

def addKey : Lexing Unit := do
  startEntry .mapping
  dropCandidate
  setAllowsKey (!(← get).isBracketed)
  addSign 1 .key

/--
Add a value. The last node is its key, if it may be one.
-/
def addValue : Lexing Unit := do
  match (← get).candidate with
  | some candidate =>
    insert candidate.position .key
    openBlock .mapping candidate.column (some candidate.position)
    modify fun lexer => { lexer with candidate := none, allowsKey := false }
  | none =>
    startEntry .mapping
    setAllowsKey (!(← get).isBracketed)
  addSign 1 .value

def addBlockScalar (isFolded : Bool) : Lexing Unit := do
  dropCandidate
  setAllowsKey true
  let outer := (← get).blocks.head?
  read (Reading.skip 1)
  let text ← read (Block.read isFolded outer)
  add (.scalar (if isFolded then .folded else .literal) text)

def addUnquoted : Lexing Unit := do
  offerCandidate
  setAllowsKey false
  let lexer ← get
  let (text, isBroken) ← read (Unquoted.read lexer.isBracketed lexer.margin)
  if isBroken then setAllowsKey true
  add (.scalar .plain text)

def isSign (c : Char) : Bool :=
  c ∈ [',', '[', ']', '\x7b', '\x7d', '#', '&', '*', '!', '|', '>', '\'', '"', '%', '@', '\x60']

def addNext (c : Char) (after : List Char) : Lexing Unit := do
  let lexer ← get
  let isAlone := Cursor.isEndOfWord after
  if lexer.cursor.column = 0 ∧ c = '%' then addTopLevel Lexeme.readDirective
  else if lexer.cursor.isAtMark '-' then addTopLevel (do Reading.skip 3; return .documentStart)
  else if lexer.cursor.isAtMark '.' then addTopLevel (do Reading.skip 3; return .documentEnd)
  else match c with
  | '[' => addOpenBracket .sequence
  | '\x7b' => addOpenBracket .mapping
  | ']' => addCloseBracket .sequence
  | '\x7d' => addCloseBracket .mapping
  | ',' => addComma
  | '*' => addNode (do Reading.skip 1; return .alias (← Lexeme.readName))
  | '&' => addNode (do Reading.skip 1; return .anchor (← Lexeme.readName))
  | '!' => addNode (return .tag (← Tag.read lexer.isBracketed))
  | '\'' => addNode (return .scalar .quoted (← Quoted.read c))
  | '"' => addNode (return .scalar .quoted (← Quoted.read c))
  | '-' => if isAlone then addItem else addUnquoted
  | '?' => if lexer.isBracketed || isAlone then addKey else addUnquoted
  | ':' => if lexer.isBracketed || isAlone then addValue else addUnquoted
  | c =>
    if (c = '|' || c = '>') && !lexer.isBracketed then addBlockScalar (c = '>')
    else if isBlank c || isSign c then failure
    else addUnquoted

def addAll : Nat → Lexing Unit
  | 0 => failure
  | fuel + 1 => do
    skipToNext ((← get).cursor.rest.length + 1)
    dropStaleCandidates
    let cursor := (← get).cursor
    closeBlocks (cursor.column < ·)
    match cursor.rest with
    | [] =>
      closeBlocks fun _ => true
      dropCandidate
    | c :: after =>
      addNext c after
      addAll fuel

end Lexing

namespace Lexeme

/--
The lexemes of a text. A byte order mark at its start takes a column, but means nothing.
-/
def ofText? (text : String) : Option (List Lexeme) := do
  let cursor ← Cursor.ofText? text
  let cursor := if cursor.peek? = some '\ufeff' then cursor.next else cursor
  let lexer : Lexer := {
    cursor
    reversed := []
    blocks := []
    candidate := none
    outer := []
    allowsKey := true }
  let (_, lexer) ← (Lexing.addAll (cursor.rest.length + 1)).run lexer
  return lexer.reversed.reverse

end Lexeme

end SceneTree.Yaml
