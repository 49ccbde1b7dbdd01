import SceneTree.Material.Network

/-!
This module contains the places of a material network that are read and written, and how they lie to
each other.
-/

namespace SceneTree.MaterialNetwork

inductive IsReadPlace : Locator → Prop where
  | nodeType (node : Token) : IsReadPlace (nodeLocator node ++ ["nodeIdentifier"])
  | parameterField (node parameter field : Token) :
    IsReadPlace (parameterLocator node parameter ++ [field])
  | input (node input : Token) : IsReadPlace (inputLocator node input)
  | terminal (terminal : Token) : IsReadPlace (terminalLocator terminal)

inductive IsWritePlace : Locator → Prop where
  | node (node : Token) : IsWritePlace (nodeLocator node)
  | nodeType (node : Token) : IsWritePlace (nodeLocator node ++ ["nodeIdentifier"])
  | typeInfo (node : Token) : IsWritePlace (typeInfoLocator node)
  | parameter (node parameter : Token) : IsWritePlace (parameterLocator node parameter)
  | parameterValue (node parameter : Token) :
    IsWritePlace (parameterLocator node parameter ++ ["value"])
  | input (node input : Token) : IsWritePlace (inputLocator node input)
  | terminal (terminal : Token) : IsWritePlace (terminalLocator terminal)

-- Type info is read as a whole.
theorem not_isReadPlace_typeInfo (node : Token) (rest : Locator) :
    ¬ IsReadPlace (typeInfoLocator node ++ rest) := by
  generalize hplace : typeInfoLocator node ++ rest = place
  intro hread
  cases hread <;>
    simp [typeInfoLocator, nodeLocator, parameterLocator, inputLocator, terminalLocator] at hplace

section Places

variable {place : Locator} (h : IsWritePlace place)
include h

theorem IsWritePlace.ne_nil : place ≠ [] := by
  cases h <;> simp [nodeLocator, typeInfoLocator, parameterLocator, inputLocator, terminalLocator]

-- What is read is never above what is written.
theorem IsWritePlace.not_isRelatedTo_read {other : Locator} (hother : IsReadPlace other)
    (hunder : ¬ other.isUnder place) : ¬ other.isRelatedTo place := by
  rw [Locator.isRelatedTo_iff, not_or]
  refine ⟨hunder, fun hover => hunder ?_⟩
  cases h <;> cases hother <;>
    simp_all [nodeLocator, typeInfoLocator, parameterLocator, inputLocator, terminalLocator]

theorem IsWritePlace.not_isRelatedTo_node {node : Token} (hnode : nodeOf? place ≠ some node) :
    ¬ (nodeLocator node).isRelatedTo place := by
  rw [Locator.isRelatedTo_iff]
  cases h <;>
    simp_all [nodeOf?, nodeLocator, typeInfoLocator, parameterLocator, inputLocator,
      terminalLocator, Ne.symm]

theorem IsWritePlace.not_isRelatedTo_typeInfo {node : Token} (hnode : place ≠ nodeLocator node)
    (htypeInfo : place ≠ typeInfoLocator node) : ¬ (typeInfoLocator node).isRelatedTo place := by
  rw [Locator.isRelatedTo_iff]
  cases h <;>
    simp_all [nodeLocator, typeInfoLocator, parameterLocator, inputLocator, terminalLocator]
  exact fun heq => htypeInfo heq.symm

theorem IsWritePlace.not_isRelatedTo_typeInfoKey {node key : Token}
    (hunder : ¬ (typeInfoLocator node ++ [key]).isUnder place) :
    ¬ (typeInfoLocator node ++ [key]).isRelatedTo place := by
  rw [Locator.isRelatedTo_iff, not_or]
  refine ⟨hunder, fun hover => hunder ?_⟩
  cases h <;>
    simp_all [nodeLocator, typeInfoLocator, parameterLocator, inputLocator, terminalLocator]

theorem IsWritePlace.not_isRelatedTo_config : ¬ Locator.isRelatedTo ["config"] place := by
  rw [Locator.isRelatedTo_iff]
  cases h <;>
    simp [nodeLocator, typeInfoLocator, parameterLocator, inputLocator, terminalLocator]

theorem IsWritePlace.not_isRelatedTo_nodes (hnode : nodeOf? place = none) :
    ¬ Locator.isRelatedTo ["nodes"] place := by
  rw [Locator.isRelatedTo_iff]
  cases h <;>
    simp_all [nodeOf?, nodeLocator, typeInfoLocator, parameterLocator, inputLocator,
      terminalLocator]

theorem IsWritePlace.not_isRelatedTo_terminals (hterminals : place.head? ≠ some "terminals") :
    ¬ Locator.isRelatedTo ["terminals"] place := by
  rw [Locator.isRelatedTo_iff]
  cases h <;>
    simp_all [nodeLocator, typeInfoLocator, parameterLocator, inputLocator, terminalLocator]

end Places

end SceneTree.MaterialNetwork
