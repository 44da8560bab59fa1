import FrappeSyntax.Expression

/-!
# Statements

A statement is a loop, a condition, a return, an assignment, or a new object made for its effect
alone. Loops and conditions hold a block of statements. These are the types of
`frappe::ast::statements`; a list of statements stands for a `LoopBody`.

* `Statement.same_iff`: statements can be compared.
-/

namespace FrappeSyntax

/-- Model of `Rhs`: what can be assigned. -/
inductive Rhs
  | expression (value : Expression)
  | new (object : NewObject)
deriving DecidableEq

/-- Model of `Statement`, with the fields of the node that it wraps. -/
inductive Statement
  | while (condition : Expression) (body : List Statement)
  | if (condition : Expression) (body : List Statement)
  | return (value : Expression)
  | assign (name : String) (rhs : Rhs)
  | new (object : NewObject)

/-! ## Equality -/

mutual

/-- Compares two statements. -/
def Statement.same : Statement → Statement → Bool
  | .while e b, .while e' b' => e == e' && Statement.sameList b b'
  | .if e b, .if e' b' => e == e' && Statement.sameList b b'
  | .return e, .return e' => e == e'
  | .assign n r, .assign n' r' => n == n' && r == r'
  | .new o, .new o' => o == o'
  | _, _ => false

/-- Compares two blocks. -/
def Statement.sameList : List Statement → List Statement → Bool
  | [], [] => true
  | s :: ss, s' :: ss' => s.same s' && Statement.sameList ss ss'
  | _, _ => false

end

mutual

theorem Statement.same_iff : ∀ s s' : Statement, s.same s' = true ↔ s = s'
  | .while e b, s' => by cases s' <;> simp [Statement.same, Statement.sameList_iff b]
  | .if e b, s' => by cases s' <;> simp [Statement.same, Statement.sameList_iff b]
  | .return e, s' => by cases s' <;> simp [Statement.same]
  | .assign n r, s' => by cases s' <;> simp [Statement.same]
  | .new o, s' => by cases s' <;> simp [Statement.same]

theorem Statement.sameList_iff :
    ∀ ss ss' : List Statement, Statement.sameList ss ss' = true ↔ ss = ss'
  | [], ss' => by cases ss' <;> simp [Statement.sameList]
  | s :: ss, [] => by simp [Statement.sameList]
  | s :: ss, s' :: ss' => by
    simp [Statement.sameList, Statement.same_iff s s', Statement.sameList_iff ss ss']

end

instance : DecidableEq Statement := fun s s' => decidable_of_iff _ (Statement.same_iff s s')

end FrappeSyntax
