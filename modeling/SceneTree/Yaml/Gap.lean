import SceneTree.Yaml.Cursor

/-!
This module contains the blanks and breaks between the words of a scalar, and what they become in its
text. A single break is a space, and each further one an empty line.
-/

namespace SceneTree.Yaml

structure Gap where
  blanks : List Char
  breaks : List Char

namespace Gap

/--
Breaks between words: the first one joins two lines, if it is no character of the text.
-/
def fold : List Char → List Char
  | '\n' :: [] => [' ']
  | '\n' :: rest => rest
  | breaks => breaks

def text (gap : Gap) : List Char :=
  if gap.breaks.isEmpty then gap.blanks else fold gap.breaks

/--
Read the blanks and breaks up to the next word. Behind a break, the columns before `margin` hold no
tabs.
-/
def read (margin : Nat) : Reading Gap := do
  let blanks ← Reading.readWhile fun _ c => isBlank c
  let breaks ← go margin (← get).rest.length
  return ⟨blanks, breaks⟩
where
  go (margin : Nat) : Nat → Reading (List Char)
    | 0 => return []
    | fuel + 1 => do
      match ← Reading.readBreak with
      | [] => return []
      | breaks =>
        let _ ← Reading.readWhile fun cursor c => c = ' ' || (c = '\t' && margin ≤ cursor.column)
        if (← get).peek? = some '\t' then failure
        return breaks ++ (← go margin fuel)

end Gap

end SceneTree.Yaml
