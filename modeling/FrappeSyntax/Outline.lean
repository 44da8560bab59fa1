/-!
# Outlines

An outline shows a tree as rows. Each node has a label and a few fields; its row tells how deep it
lies, and the rows of its children follow, one level deeper.

* `rowsBefore_eq`: rows are built from their end, which only saves time.
-/

namespace FrappeSyntax

/-- What a node's row tells besides its label. -/
inductive Field
  | text (value : String)
  | count (value : Nat)
  | flag (value : Bool)
deriving DecidableEq

/-- A tree of labelled nodes. -/
inductive Outline
  | node (label : String) (fields : List Field) (children : List Outline)

namespace Outline

/-- One row of an outline. -/
structure Row where
  depth : Nat
  label : String
  fields : List Field
deriving DecidableEq

mutual

/-- The rows of a tree whose root lies at `depth`, before the rows `after`. -/
def rowsBefore (after : List Row) (depth : Nat) : Outline → List Row
  | node label fields children =>
    ⟨depth, label, fields⟩ :: rowsOfListBefore after (depth + 1) children

/-- The rows of neighbouring trees at `depth`, before the rows `after`. -/
def rowsOfListBefore (after : List Row) (depth : Nat) : List Outline → List Row
  | [] => after
  | tree :: rest => rowsBefore (rowsOfListBefore after depth rest) depth tree

end

/-- The rows of neighbouring trees. -/
def rows (trees : List Outline) : List Row := rowsOfListBefore [] 0 trees

mutual

theorem rowsBefore_eq (after : List Row) (depth : Nat) :
    ∀ tree, rowsBefore after depth tree = rowsBefore [] depth tree ++ after
  | node label fields children => by
    simp [rowsBefore, rowsOfListBefore_eq after (depth + 1) children]

theorem rowsOfListBefore_eq (after : List Row) (depth : Nat) :
    ∀ trees, rowsOfListBefore after depth trees = rowsOfListBefore [] depth trees ++ after
  | [] => rfl
  | tree :: rest => by
    rw [rowsOfListBefore, rowsOfListBefore, rowsBefore_eq,
      rowsBefore_eq (rowsOfListBefore [] depth rest), rowsOfListBefore_eq after depth rest,
      List.append_assoc]

end

/-- The roots for a list: none if it is empty, else a node with the number of items, which holds the
first item and, beside it, the node of the rest. -/
def ofItems (label : String) : List Outline → List Outline
  | [] => []
  | first :: rest => [node label [.count (rest.length + 1)] (first :: ofItems label rest)]

/-- The roots for a list of names, which stand in the nodes themselves. -/
def ofNames (label : String) : List String → List Outline
  | [] => []
  | first :: rest => [node label [.text first, .count (rest.length + 1)] (ofNames label rest)]

end Outline

end FrappeSyntax
