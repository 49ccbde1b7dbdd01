import SceneTree.Proofs.Material.Write

/-!
This module contains what writes to a material network are about, and what they leave of the values
that are read of it.
-/

namespace SceneTree

inductive NetworkSubject where
  | nodeType (node : Token)
  | typeInfoValue (node key : Token)
  | parameter (node parameter : Token)
  | input (node input : Token)
  | terminal (terminal : Token)

namespace NetworkSubject

open MaterialNetwork

def node? : NetworkSubject → Option Token
  | nodeType node => some node
  | typeInfoValue node _ => some node
  | parameter node _ => some node
  | input node _ => some node
  | terminal _ => none

def place : NetworkSubject → Locator
  | nodeType node => nodeLocator node ++ ["nodeIdentifier"]
  | typeInfoValue node key => typeInfoLocator node ++ [key]
  | parameter node name => parameterLocator node name
  | input node name => inputLocator node name
  | terminal name => terminalLocator name

end NetworkSubject

def NetworkRead.subject? {α : Type} : NetworkRead α → Option NetworkSubject
  | nodeType node => some (.nodeType node)
  | typeInfoValue node key => some (.typeInfoValue node key)
  | parameterValue node name => some (.parameter node name)
  | parameter node name => some (.parameter node name)
  | input node name => some (.input node name)
  | terminal name => some (.terminal name)
  | _ => none

namespace NetworkWrite

def nodeType? (node : Token) : NetworkWrite → Option Token
  | setNodeType other type => if other = node then some type else none
  | _ => none

def typeInfoValue? (node key : Token) : NetworkWrite → Option (Option Value)
  | setTypeInfoValue other name value =>
    if other = node ∧ name = key then some (some value) else none
  | _ => none

def parameterValue? (node parameter : Token) : NetworkWrite → Option (Option Value)
  | setParameterValue other name value =>
    if other = node ∧ name = parameter then some (some value) else none
  | setParameter other name data =>
    if other = node ∧ name = parameter then some data.value else none
  | deleteParameter other name => if other = node ∧ name = parameter then some none else none
  | _ => none

def parameterTokens? (node parameter : Token) : NetworkWrite → Option (Token × Token)
  | setParameter other name data =>
    if other = node ∧ name = parameter then some (data.colorSpace, data.typeName) else none
  | deleteParameter other name =>
    if other = node ∧ name = parameter then some (Token.unset, Token.unset) else none
  | _ => none

def input? (node input : Token) : NetworkWrite → Option (List Connection)
  | setInput other name connections =>
    if other = node ∧ name = input then some connections else none
  | deleteInput other name => if other = node ∧ name = input then some [] else none
  | _ => none

def terminal? (terminal : Token) : NetworkWrite → Option (Option Connection)
  | setTerminal name connection => if name = terminal then some (some connection) else none
  | deleteTerminal name => if name = terminal then some none else none
  | _ => none

def subject? : NetworkWrite → Option NetworkSubject
  | deleteNode _ => none
  | setNodeType node _ => some (.nodeType node)
  | setTypeInfoValue node key _ => some (.typeInfoValue node key)
  | setParameterValue node name _ => some (.parameter node name)
  | setParameter node name _ => some (.parameter node name)
  | deleteParameter node name => some (.parameter node name)
  | setInput node name _ => some (.input node name)
  | deleteInput node name => some (.input node name)
  | setTerminal name _ => some (.terminal name)
  | deleteTerminal name => some (.terminal name)

/--
Whether a write is about a subject, or deletes the node of the subject.
-/
def Concerns (write : NetworkWrite) (subject : NetworkSubject) : Prop :=
  write.subject? = some subject ∨ ∃ node, subject.node? = some node ∧ write = .deleteNode node

section Concerns

variable {write : NetworkWrite}

theorem Concerns.subject?_eq {subject : NetworkSubject} {node : Token}
    (h : write.Concerns subject) (hnode : subject.node? = some node)
    (hne : write ≠ .deleteNode node) : write.subject? = some subject := by
  rcases h with hsubject | ⟨other, hother, hdelete⟩
  . exact hsubject
  . rw [hnode] at hother
    cases hother
    exact absurd hdelete hne

theorem nodeType?_eq_none {node : Token} (h : ¬ write.Concerns (.nodeType node)) :
    write.nodeType? node = none := by
  cases write <;> simp_all [subject?, nodeType?, Concerns]

theorem typeInfoValue?_eq_none {node key : Token}
    (h : ¬ write.Concerns (.typeInfoValue node key)) : write.typeInfoValue? node key = none := by
  cases write <;> simp_all [subject?, typeInfoValue?, Concerns]

theorem parameterValue?_eq_none {node name : Token}
    (h : ¬ write.Concerns (.parameter node name)) : write.parameterValue? node name = none := by
  cases write <;> simp_all [subject?, parameterValue?, Concerns]

theorem parameterTokens?_eq_none {node name : Token}
    (h : ¬ write.Concerns (.parameter node name)) : write.parameterTokens? node name = none := by
  cases write <;> simp_all [subject?, parameterTokens?, Concerns]

theorem input?_eq_none {node name : Token} (h : ¬ write.Concerns (.input node name)) :
    write.input? node name = none := by
  cases write <;> simp_all [subject?, input?, Concerns]

theorem terminal?_eq_none {name : Token} (h : ¬ write.Concerns (.terminal name)) :
    write.terminal? name = none := by
  cases write <;> simp_all [subject?, terminal?, Concerns]

-- All type info of a node is written as a whole, so its keys are looked at by themselves.
theorem not_isUnder_of_not_concerns {subject : NetworkSubject} (h : ¬ write.Concerns subject)
    (hkey : ∀ node key, subject ≠ .typeInfoValue node key) {place : Locator}
    (hunder : place.isUnder subject.place) : ¬ place.isUnder write.place := by
  obtain ⟨rest, hrest⟩ := Locator.exists_eq_append_of_isUnder hunder
  subst hrest
  cases subject with
  | typeInfoValue node key => exact absurd rfl (hkey node key)
  | _ =>
    cases write <;>
      simp_all [subject?, NetworkSubject.node?, NetworkSubject.place, NetworkWrite.place, Concerns,
        MaterialNetwork.nodeLocator, MaterialNetwork.parameterLocator,
        MaterialNetwork.inputLocator, MaterialNetwork.typeInfoLocator,
        MaterialNetwork.terminalLocator]

end Concerns

end NetworkWrite

end SceneTree
