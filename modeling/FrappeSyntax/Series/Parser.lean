import FrappeSyntax.Parser
import FrappeSyntax.Series

/-!
# Parsing series

The three ways in which items stand one after the other: with separators between them, up to a
token that ends them, and between two tokens where there may be none at all. Each is the common part
of several routines of `frappe::parser`; `MK_CHAIN` links the items that they read.
-/

namespace FrappeSyntax.Series

open Routine

/-- Items with the punctuation `separator` between them, as `parse_args`, `parse_ref_chain` and
`parse_params` read them. -/
def parse (separator : String) (item : Routine α) : Routine (Series α) := do
  let first ← item
  let rest ← repeatWhile (·.isSingle separator) do
    let _ ← next
    item
  pure ⟨first, rest⟩

/-- Items up to, not including, a token that ends them, as `parse_classes`, `parse_members` and
`parse_statements` read them. -/
def parseUntil (ends : Token → Bool) (item : Routine α) : Routine (Series α) := do
  let first ← item
  let rest ← repeatWhile (!ends ·) item
  pure ⟨first, rest⟩

/-- The items of a series, or none where the punctuation `closing` comes next. -/
def parseUnless (closing : String) (series : Routine (Series α)) : Routine (List α) := do
  if (← peek).isSingle closing then pure [] else pure (← series).toList

/-- Items between the punctuation `opening` and `closing`, if there are any, on behalf of
`production`, as `parse_args_part`, `parse_rest_of_method` and `parse_block` read them. -/
def parseBetween (opening closing production : String) (series : Routine (Series α)) :
    Routine (List α) := do
  let _ ← expectSingle opening production
  let items ← parseUnless closing series
  let _ ← expectSingle closing production
  pure items

end FrappeSyntax.Series
