import FrappeSyntax.Token

/-!
# Expressions

An expression is a literal or a chain of references: `a.b(1).c`. Each segment of a chain names
something, and calls it if it has a list of arguments, be it empty. These are the types of
`frappe::ast::expressions`; a list of arguments stands for an `ArgsPart`, and a chain for the linked
nodes of a `RefChain`.

* `LiteralKind.ofKind?_eq_some_iff`, `CallerKind.ofKind?_eq_some_iff`: the words that write a
  literal, and those that start a segment.
* `Expression.same_iff`: expressions can be compared.
-/

namespace FrappeSyntax

/-- Model of `LiteralKind`: the kinds of literals. -/
inductive LiteralKind
  | string
  | number
  | null
  | true
  | false
  | this
deriving DecidableEq

namespace LiteralKind

/-- The kind of word that a literal is written as. -/
def kind : LiteralKind → Kind
  | string => .string
  | number => .number
  | null => .null
  | true => .true
  | false => .false
  | this => .this

/-- Model of `LiteralKind::from_symbol`: the kind of literal that a kind of word writes, if it
writes one. -/
def ofKind? : Kind → Option LiteralKind
  | .string => some string
  | .number => some number
  | .null => some null
  | .true => some true
  | .false => some false
  | .this => some this
  | _ => none

theorem ofKind?_eq_some_iff {word : Kind} {literal : LiteralKind} :
    ofKind? word = some literal ↔ literal.kind = word := by
  cases word <;> cases literal <;> simp [ofKind?, kind]

end LiteralKind

/-- Model of `CallerKind`: the kinds of segments. -/
inductive CallerKind
  | name
  | className
  | this
deriving DecidableEq

namespace CallerKind

/-- The kind of word that a segment starts with. -/
def kind : CallerKind → Kind
  | name => .name
  | className => .className
  | this => .this

/-- The kind of segment that `parse_caller` reads from a kind of word, if that starts one. -/
def ofKind? : Kind → Option CallerKind
  | .name => some name
  | .className => some className
  | .this => some this
  | _ => none

theorem ofKind?_eq_some_iff {word : Kind} {caller : CallerKind} :
    ofKind? word = some caller ↔ caller.kind = word := by
  cases word <;> cases caller <;> simp [ofKind?, kind]

end CallerKind

mutual

/-- Model of `Expression`. -/
inductive Expression
  /-- A literal; `value` is the text of its word. -/
  | literal (kind : LiteralKind) (value : String)
  /-- The segments of a chain, in order. -/
  | chain (first : Caller) (rest : List Caller)

/-- Model of `Caller`: one segment of a chain. -/
inductive Caller
  /-- A reference. -/
  | ref (kind : CallerKind) (name : String)
  /-- A call. -/
  | call (kind : CallerKind) (name : String) (args : List Expression)

end

namespace Caller

/-- The kind of a segment. -/
def kind : Caller → CallerKind
  | ref kind _ => kind
  | call kind _ _ => kind

/-- The name that a segment refers to or calls. -/
def name : Caller → String
  | ref _ name => name
  | call _ name _ => name

end Caller

/-! ## Equality -/

mutual

/-- Compares two expressions. -/
def Expression.same : Expression → Expression → Bool
  | .literal k v, .literal k' v' => k == k' && v == v'
  | .chain c cs, .chain c' cs' => c.same c' && Caller.sameList cs cs'
  | _, _ => false

/-- Compares two segments. -/
def Caller.same : Caller → Caller → Bool
  | .ref k n, .ref k' n' => k == k' && n == n'
  | .call k n es, .call k' n' es' => k == k' && n == n' && Expression.sameList es es'
  | _, _ => false

/-- Compares two lists of segments. -/
def Caller.sameList : List Caller → List Caller → Bool
  | [], [] => true
  | c :: cs, c' :: cs' => c.same c' && Caller.sameList cs cs'
  | _, _ => false

/-- Compares two lists of expressions. -/
def Expression.sameList : List Expression → List Expression → Bool
  | [], [] => true
  | e :: es, e' :: es' => e.same e' && Expression.sameList es es'
  | _, _ => false

end

mutual

theorem Expression.same_iff : ∀ e e' : Expression, e.same e' = true ↔ e = e'
  | .literal k v, .literal k' v' => by simp [Expression.same]
  | .chain c cs, .chain c' cs' => by
    simp [Expression.same, Caller.same_iff c c', Caller.sameList_iff cs cs']
  | .literal .., .chain .. => by simp [Expression.same]
  | .chain .., .literal .. => by simp [Expression.same]

theorem Caller.same_iff : ∀ c c' : Caller, c.same c' = true ↔ c = c'
  | .ref k n, .ref k' n' => by simp [Caller.same]
  | .call k n es, .call k' n' es' => by
    simp [Caller.same, Expression.sameList_iff es es', and_assoc]
  | .ref .., .call .. => by simp [Caller.same]
  | .call .., .ref .. => by simp [Caller.same]

theorem Caller.sameList_iff : ∀ cs cs' : List Caller, Caller.sameList cs cs' = true ↔ cs = cs'
  | [], [] => by simp [Caller.sameList]
  | c :: cs, c' :: cs' => by
    simp [Caller.sameList, Caller.same_iff c c', Caller.sameList_iff cs cs']
  | [], _ :: _ => by simp [Caller.sameList]
  | _ :: _, [] => by simp [Caller.sameList]

theorem Expression.sameList_iff :
    ∀ es es' : List Expression, Expression.sameList es es' = true ↔ es = es'
  | [], [] => by simp [Expression.sameList]
  | e :: es, e' :: es' => by
    simp [Expression.sameList, Expression.same_iff e e', Expression.sameList_iff es es']
  | [], _ :: _ => by simp [Expression.sameList]
  | _ :: _, [] => by simp [Expression.sameList]

end

instance : DecidableEq Expression := fun e e' => decidable_of_iff _ (Expression.same_iff e e')

instance : DecidableEq Caller := fun c c' => decidable_of_iff _ (Caller.same_iff c c')

/-- Model of `NewObject`: the class it is of, and the arguments for its constructor. -/
structure NewObject where
  className : String
  args : List Expression
deriving DecidableEq

end FrappeSyntax
