/-!
# Series

A series is a list with at least one item, such as the node types `Classes`, `Members`, `Params`,
`Statements`, `RefChain` and `Args` hold: an item, and the node of the rest if there is one.
-/

namespace FrappeSyntax

/-- A list that is not empty. -/
structure Series (α : Type) where
  first : α
  rest : List α
deriving DecidableEq

namespace Series

/-- The items of a series, in order. -/
def toList (series : Series α) : List α := series.first :: series.rest

/-- The number of items. -/
def length (series : Series α) : Nat := series.rest.length + 1

/-- The items of a list, unless it is empty. -/
def ofList? : List α → Option (Series α)
  | [] => none
  | first :: rest => some ⟨first, rest⟩

theorem ofList?_toList (series : Series α) : ofList? series.toList = some series := rfl

end Series

end FrappeSyntax
