import SceneTree.Dict
import SceneTree.Yaml.Lexeme.Lexer

/-!
This module contains the nodes of YAML texts as they are written, with aliases that stand for other
nodes, and the building of nodes from lexemes.
-/

namespace SceneTree.Yaml

inductive Node where
  | scalar (tag : Option String) (form : Form) (text : String)
  | sequence (tag : Option String) (items : List Node)
  | mapping (tag : Option String) (entries : List (Node × Node))
  /-- The node with the given number. -/
  | alias (number : Nat)
deriving Inhabited

/--
What a text holds: one node, and the nodes that aliases stand for.
-/
structure Graph where
  root : Node
  /-- The anchored nodes by their serial numbers. -/
  anchored : Dict Nat Node
  /-- The serial numbers of anchors by the numbers that aliases use. -/
  serials : Dict Nat Nat

structure Builder where
  rest : List Lexeme
  /-- The meanings of the handles of tags. -/
  handles : Dict String String
  /-- The numbers of the names of anchors. -/
  numbers : Dict String Nat
  serials : Dict Nat Nat
  /-- How many anchors there are. -/
  count : Nat
  anchored : Dict Nat Node

abbrev Build := StateT Builder Option

namespace Node

def empty : Node := scalar none .plain ""

end Node

namespace Build

def peek? : Build (Option Lexeme) :=
  return (← get).rest.head?

def skip : Build Unit :=
  modify fun c => { c with rest := c.rest.drop 1 }

def skipIf (lexeme : Lexeme) : Build Bool := do
  if (← peek?) = some lexeme then
    skip
    return true
  else return false

def expect (lexeme : Lexeme) : Build Unit := do
  if !(← skipIf lexeme) then failure

def isNext (lexemes : List Lexeme) : Build Bool := do
  return (← peek?).any (· ∈ lexemes)

def resolve (tag : Tag) : Build String := do
  if tag.handle = "" then return tag.rest
  else match Dict.get? (← get).handles tag.handle with
    | some meaning => return meaning ++ tag.rest
    | none => failure

def readProperties : Build (Option String × Option String) := do
  match ← peek? with
  | some (.anchor name) => do
    skip
    match ← peek? with
    | some (.tag tag) => do
      skip
      return (some name, some (← resolve tag))
    | _ => return (some name, none)
  | some (.tag tag) => do
    skip
    match ← peek? with
    | some (.anchor name) => do
      skip
      return (some name, some (← resolve tag))
    | _ => return (none, some (← resolve tag))
  | _ => return (none, none)

/--
Give an anchor its serial number. Its name takes the number of names that there are already, so that
the next new name after a repeated one shares the number with it, and has both its aliases.
-/
def addAnchor (name : String) : Build Nat := do
  let c ← get
  let number := c.numbers.length
  set { c with
    numbers := Dict.insert c.numbers name number
    serials := Dict.insert c.serials number c.count
    count := c.count + 1 }
  return c.count

def entryEnds : List Lexeme := [.key, .value, .closeBlock]

mutual

/--
Read a node. Blocks start only where the text has no brackets, and items without a block of their own
only in the entries of a mapping.
-/
def readNode (isBlock allowsItems : Bool) : Nat → Build Node
  | 0 => failure
  | fuel + 1 => do
    match ← peek? with
    | some (.alias name) =>
      skip
      let number ← Dict.get? (← get).numbers name
      return .alias number
    | _ =>
      let (anchor, tag) ← readProperties
      let serial ← anchor.mapM addAnchor
      let node ← readContent isBlock allowsItems (anchor.isSome || tag.isSome) tag fuel
      if let some serial := serial then
        modify fun c => { c with anchored := Dict.insert c.anchored serial node }
      return node

def readContent (isBlock allowsItems mayBeEmpty : Bool) (tag : Option String) :
    Nat → Build Node
  | 0 => failure
  | fuel + 1 => do
    match ← peek? with
    | some .item =>
      if allowsItems then return .sequence tag (← readItems fuel)
      else empty
    | some (.scalar form text) =>
      skip
      return .scalar (tag.filter (· ≠ "!")) form text
    | some (.openBracket .sequence) =>
      skip
      return .sequence tag (← readBracketItems true fuel)
    | some (.openBracket .mapping) =>
      skip
      return .mapping tag (← readBracketEntries true fuel)
    | some (.openBlock shape) =>
      if isBlock then
        skip
        match shape with
        | .sequence =>
          let items ← readItems fuel
          expect .closeBlock
          return .sequence tag items
        | .mapping => return .mapping tag (← readEntries fuel)
      else empty
    | _ => empty
where
  empty : Build Node :=
    if mayBeEmpty then return .scalar tag .plain "" else failure

def readItems : Nat → Build (List Node)
  | 0 => failure
  | fuel + 1 => do
    if ← skipIf .item then
      let node ←
        if ← isNext (.item :: entryEnds) then pure .empty else readNode true false fuel
      return node :: (← readItems fuel)
    else return []

def readEntries : Nat → Build (List (Node × Node))
  | 0 => failure
  | fuel + 1 => do
    if ← skipIf .closeBlock then return []
    expect .key
    let key ← if ← isNext entryEnds then pure .empty else readNode true true fuel
    let value ←
      if ← skipIf .value then
        if ← isNext entryEnds then pure .empty else readNode true true fuel
      else pure .empty
    return (key, value) :: (← readEntries fuel)

def readSeparator (isFirst : Bool) (closing : Lexeme) : Build Bool := do
  if !isFirst && (← peek?) ≠ some closing then expect .comma
  return !(← skipIf closing)

/--
Read the items between brackets. A key makes the item a mapping of one entry.
-/
def readBracketItems (isFirst : Bool) : Nat → Build (List Node)
  | 0 => failure
  | fuel + 1 => do
    if ← readSeparator isFirst (.closeBracket .sequence) then
      let node ←
        if ← skipIf .key then
          let key ← readNode false false fuel
          let value ← readBracketValue .sequence fuel
          pure (.mapping none [(key, value)])
        else readNode false false fuel
      return node :: (← readBracketItems false fuel)
    else return []

def readBracketEntries (isFirst : Bool) : Nat → Build (List (Node × Node))
  | 0 => failure
  | fuel + 1 => do
    if ← readSeparator isFirst (.closeBracket .mapping) then
      let entry ←
        if ← skipIf .key then
          let key ←
            if ← isNext [.value, .comma, .closeBracket .mapping] then pure .empty
            else readNode false false fuel
          pure (key, ← readBracketValue .mapping fuel)
        else pure (← readNode false false fuel, .empty)
      return entry :: (← readBracketEntries false fuel)
    else return []

def readBracketValue (shape : Shape) : Nat → Build Node
  | 0 => failure
  | fuel + 1 => do
    if ← skipIf .value then
      if ← isNext [.comma, .closeBracket shape] then pure .empty else readNode false false fuel
    else pure .empty

end

def readDirectives (hasVersion : Bool) (named : List String) : Nat → Build Unit
  | 0 => failure
  | fuel + 1 => do
    match ← peek? with
    | some (.version major minor) =>
      if hasVersion || major ≠ 1 || !(minor = 1 || minor = 2) then failure
      skip
      readDirectives true named fuel
    | some (.handle name meaning) =>
      if name ∈ named then failure
      skip
      modify fun c => { c with handles := Dict.insert c.handles name meaning }
      readDirectives hasVersion (name :: named) fuel
    | _ => return

def readDocument (fuel : Nat) : Build Node := do
  match ← peek? with
  | some (.version _ _) | some (.handle _ _) | some .documentStart =>
    readDirectives false [] fuel
    expect .documentStart
    match ← peek? with
    | none | some (.version _ _) | some (.handle _ _) | some .documentStart | some .documentEnd =>
      return .empty
    | _ => readNode true false fuel
  | some _ => readNode true false fuel
  | none => return .empty

end Build

namespace Graph

def handles : Dict String String :=
  [("!", "!"), ("!!", Tag.core)]

def ofLexemes? (lexemes : List Lexeme) : Option Graph := do
  let start : Builder := {
    rest := lexemes
    handles
    numbers := []
    serials := []
    count := 0
    anchored := [] }
  let (root, c) ← (Build.readDocument (3 * lexemes.length + 3)).run start
  if c.rest.all (· = .documentEnd) then
    return { root, anchored := c.anchored, serials := c.serials }
  else failure

end Graph

end SceneTree.Yaml
