import SceneTree.Text.Quoted
import SceneTree.Yaml.Core
import SceneTree.Yaml.Cursor

/-!
This module contains the written form of texts in YAML: as they are, between quotes, or as a block of
lines. A text has the plainest form that reads back as the same text.
-/

namespace SceneTree.Yaml

inductive Style where
  | plain
  | single
  | double
  | literal
deriving DecidableEq

namespace Style

def hasPair (first second : Char → Bool) (cs : List Char) : Bool :=
  (cs.zip cs.tail).any fun (a, b) => first a && second b

def leadingIndicators : List Char :=
  ['#', ',', '[', ']', '\x7b', '\x7d', '&', '*', '!', '|', '>', '\'', '"', '%', '@', '\x60']

def hasIndicator (cs : List Char) : Bool :=
  (match cs with
    | '-' :: '-' :: '-' :: _ => true
    | '.' :: '.' :: '.' :: _ => true
    | c :: [] => c = '?' || c = '-' || c ∈ leadingIndicators
    | c :: d :: _ => ((c = '?' || c = '-') && d = ' ') || c ∈ leadingIndicators
    | [] => false) ||
  cs.getLast? = some ':' || hasPair (· = ':') (· = ' ') cs || hasPair (· = ' ') (· = '#') cs

def allowsPlain (cs : List Char) : Bool :=
  cs.all (fun c => isShown c && !isBreak c) && cs.head? ≠ some ' ' && cs.getLast? ≠ some ' ' &&
    !hasIndicator cs

/--
The spaces around a break would be lost between single quotes.
-/
def allowsSingle (cs : List Char) : Bool :=
  cs.all isShown && !hasPair (· = ' ') isBreak cs && !hasPair isBreak (· = ' ') cs

def allowsLiteral (cs : List Char) : Bool :=
  cs.all isShown && !hasPair (· = ' ') isBreak cs && cs.getLast? ≠ some ' '

/--
Whether the text, written as it is, would stand for something else than a text. Padded numbers are
texts, but not to all readers.
-/
def isAmbiguous (s : String) : Bool :=
  match Plain.ofText s with
  | .text => Plain.isPadded s
  | _ => true

def ofText (s : String) : Style :=
  let cs := s.toList
  if '\n' ∈ cs then
    if allowsLiteral cs then literal else double
  else if !isAmbiguous s && allowsPlain cs then plain
  else if allowsSingle cs then single
  else double

end Style

def margin (column : Nat) : List Char :=
  List.replicate column ' '

def single (column : Nat) (cs : List Char) : List Char :=
  '\'' :: go false cs
where
  go (behindBreak : Bool) : List Char → List Char
    | [] => (if behindBreak then margin column else []) ++ ['\'']
    | c :: rest =>
      if isBreak c then c :: go true rest
      else
        (if behindBreak then margin column else []) ++ (if c = '\'' then ['\''] else []) ++
          c :: go false rest

def shortEscape? (c : Char) : Option Char :=
  match c with
  | '\x00' => some '0'
  | '\x07' => some 'a'
  | '\x08' => some 'b'
  | '\t' => some 't'
  | '\n' => some 'n'
  | '\x0b' => some 'v'
  | '\x0c' => some 'f'
  | '\r' => some 'r'
  | '\x1b' => some 'e'
  | '"' => some '"'
  | '\\' => some '\\'
  | '\u0085' => some 'N'
  | '\u2028' => some 'L'
  | '\u2029' => some 'P'
  | _ => none

def numericEscape (c : Char) : List Char :=
  let digits := (Text.hex c.toNat).toList.map Char.toUpper
  let padded (kind : Char) (width : Nat) := kind :: List.replicate (width - digits.length) '0' ++ digits
  if c.toNat ≤ 0xff then padded 'x' 2
  else if c.toNat ≤ 0xffff then padded 'u' 4
  else padded 'U' 8

def doubleChar (c : Char) : List Char :=
  match shortEscape? c with
  | some e => ['\\', e]
  | none => if isShown c then [c] else '\\' :: numericEscape c

def double (cs : List Char) : List Char :=
  '"' :: cs.flatMap doubleChar ++ ['"']

/--
Write lines as a block in the given column. The header says if the first line starts with more
spaces, and how many breaks are at the end.
-/
def literal (column : Nat) (cs : List Char) : List Char :=
  '|' :: indentHint ++ endHint ++ '\n' :: go true cs
where
  indentHint : List Char :=
    match cs with
    | c :: _ => if c = ' ' || isBreak c then ['2'] else []
    | [] => []
  endHint : List Char :=
    match cs.reverse with
    | last :: beforeLast :: _ =>
      if !isBreak last then ['-'] else if isBreak beforeLast then ['+'] else []
    | last :: [] => if isBreak last then ['+'] else ['-']
    | [] => ['-']
  go (atStart : Bool) : List Char → List Char
    | [] => if atStart then [] else ['\n']
    | c :: rest =>
      if isBreak c then c :: go true rest
      else (if atStart then margin column else []) ++ c :: go false rest

/--
The lines of a text, of which those behind the first start in the given column. The last one is
ended.
-/
def scalar (column : Nat) (s : String) : String :=
  let cs := s.toList
  String.ofList <| match Style.ofText s with
    | .plain => cs ++ ['\n']
    | .single => single column cs ++ ['\n']
    | .double => double cs ++ ['\n']
    | .literal => literal column cs

end SceneTree.Yaml
