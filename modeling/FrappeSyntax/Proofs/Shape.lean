import FrappeSyntax.Proofs.Words
import Mathlib.Tactic.Tauto

/-!
# The shape of a tree

Two readings of the same words are told apart, and a tree is held against a limit on depth, by its
shape alone.

* `Program.nesting`: how many blocks, statements and expressions are open inside each other.
* `Program.isCanonical`: a `this` that stands alone is a literal, never a chain.
* `Program.Fits`: both together, for a number of levels. The lemmas `Expression.fits_chain`,
  `Statement.fits_while` and so on say what this means for the parts of a tree.
-/

namespace FrappeSyntax

/-! ## Nesting -/

mutual

/-- The number of levels that an expression opens inside each other. -/
def Expression.nesting : Expression → Nat
  | .literal .. => 1
  | .chain first rest => max first.nesting (Caller.mostNesting rest) + 1

/-- The number of levels inside a segment. -/
def Caller.nesting : Caller → Nat
  | .ref .. => 0
  | .call _ _ args => Expression.mostNesting args

/-- The greatest number of levels inside one of the segments. -/
def Caller.mostNesting : List Caller → Nat
  | [] => 0
  | caller :: rest => max caller.nesting (Caller.mostNesting rest)

/-- The greatest number of levels that one of the expressions opens. -/
def Expression.mostNesting : List Expression → Nat
  | [] => 0
  | expression :: rest => max expression.nesting (Expression.mostNesting rest)

end

/-- The number of levels inside a new object. -/
def NewObject.nesting (object : NewObject) : Nat := Expression.mostNesting object.args

/-- The number of levels inside what is assigned. -/
def Rhs.nesting : Rhs → Nat
  | .expression value => value.nesting
  | .new object => object.nesting

mutual

/-- The number of levels that a statement opens; its block is a level of its own. -/
def Statement.nesting : Statement → Nat
  | .while condition body => max condition.nesting (Statement.mostNesting body + 1) + 1
  | .if condition body => max condition.nesting (Statement.mostNesting body + 1) + 1
  | .return value => value.nesting + 1
  | .assign _ rhs => rhs.nesting + 1
  | .new object => object.nesting + 1

/-- The greatest number of levels that one of the statements opens. -/
def Statement.mostNesting : List Statement → Nat
  | [] => 0
  | statement :: rest => max statement.nesting (Statement.mostNesting rest)

end

/-- The number of levels that the body of a method opens. -/
def Method.nesting (method : Method) : Nat := Statement.mostNesting method.body + 1

/-- The number of levels inside a member. -/
def Member.nesting : Member → Nat
  | .staticField _ none => 0
  | .staticField _ (some initializer) => initializer.nesting
  | .staticMethod _ method => method.nesting
  | .instanceField _ => 0
  | .instanceMethod _ method => method.nesting
  | .constructor _ method => method.nesting

/-- The greatest of some numbers, and zero if there are none. -/
def greatest (numbers : List Nat) : Nat := numbers.foldr max 0

/-- The number of levels inside a class. -/
def ClassDef.nesting (classDef : ClassDef) : Nat :=
  greatest (classDef.members.toList.map Member.nesting)

/-- The number of levels inside a program. -/
def Program.nesting (program : Program) : Nat :=
  greatest (program.classes.toList.map ClassDef.nesting)

theorem greatest_le_iff {numbers : List Nat} {bound : Nat} :
    greatest numbers ≤ bound ↔ ∀ n ∈ numbers, n ≤ bound := by
  induction numbers with
  | nil => simp [greatest]
  | cons n rest ih =>
    rw [greatest, List.foldr_cons, Nat.max_le, ← greatest, ih, List.forall_mem_cons]

theorem Expression.mostNesting_le_iff {expressions : List Expression} {bound : Nat} :
    Expression.mostNesting expressions ≤ bound ↔ ∀ e ∈ expressions, e.nesting ≤ bound := by
  induction expressions with
  | nil => simp [Expression.mostNesting]
  | cons e rest ih => rw [Expression.mostNesting, Nat.max_le, ih, List.forall_mem_cons]

theorem Caller.mostNesting_le_iff {callers : List Caller} {bound : Nat} :
    Caller.mostNesting callers ≤ bound ↔ ∀ c ∈ callers, c.nesting ≤ bound := by
  induction callers with
  | nil => simp [Caller.mostNesting]
  | cons c rest ih => rw [Caller.mostNesting, Nat.max_le, ih, List.forall_mem_cons]

theorem Statement.mostNesting_le_iff {statements : List Statement} {bound : Nat} :
    Statement.mostNesting statements ≤ bound ↔ ∀ s ∈ statements, s.nesting ≤ bound := by
  induction statements with
  | nil => simp [Statement.mostNesting]
  | cons s rest ih => rw [Statement.mostNesting, Nat.max_le, ih, List.forall_mem_cons]

/-! ## Canonical trees -/

/-- Holds for a segment that is the word `this`, without arguments. -/
def Caller.isBareThis : Caller → Bool
  | .ref .this _ => true
  | _ => false

mutual

/-- Holds when no chain inside an expression is a `this` that stands alone. -/
def Expression.isCanonical : Expression → Bool
  | .literal .. => true
  | .chain first rest =>
    !(first.isBareThis && rest.isEmpty) && first.isCanonical && Caller.allCanonical rest

/-- Holds when no chain inside a segment is a `this` that stands alone. -/
def Caller.isCanonical : Caller → Bool
  | .ref .. => true
  | .call _ _ args => Expression.allCanonical args

/-- Holds when every segment is canonical. -/
def Caller.allCanonical : List Caller → Bool
  | [] => true
  | caller :: rest => caller.isCanonical && Caller.allCanonical rest

/-- Holds when every expression is canonical. -/
def Expression.allCanonical : List Expression → Bool
  | [] => true
  | expression :: rest => expression.isCanonical && Expression.allCanonical rest

end

/-- Holds when the arguments of a new object are canonical. -/
def NewObject.isCanonical (object : NewObject) : Bool := Expression.allCanonical object.args

/-- Holds when what is assigned is canonical. -/
def Rhs.isCanonical : Rhs → Bool
  | .expression value => value.isCanonical
  | .new object => object.isCanonical

mutual

/-- Holds when the expressions inside a statement are canonical. -/
def Statement.isCanonical : Statement → Bool
  | .while condition body => condition.isCanonical && Statement.allCanonical body
  | .if condition body => condition.isCanonical && Statement.allCanonical body
  | .return value => value.isCanonical
  | .assign _ rhs => rhs.isCanonical
  | .new object => object.isCanonical

/-- Holds when every statement is canonical. -/
def Statement.allCanonical : List Statement → Bool
  | [] => true
  | statement :: rest => statement.isCanonical && Statement.allCanonical rest

end

/-- Holds when the expressions inside a member are canonical. -/
def Member.isCanonical : Member → Bool
  | .staticField _ none => true
  | .staticField _ (some initializer) => initializer.isCanonical
  | .staticMethod _ method => Statement.allCanonical method.body
  | .instanceField _ => true
  | .instanceMethod _ method => Statement.allCanonical method.body
  | .constructor _ method => Statement.allCanonical method.body

/-- Holds when the expressions inside a class are canonical. -/
def ClassDef.isCanonical (classDef : ClassDef) : Bool :=
  classDef.members.toList.all Member.isCanonical

/-- Holds when the expressions inside a program are canonical. -/
def Program.isCanonical (program : Program) : Bool :=
  program.classes.toList.all ClassDef.isCanonical

theorem Expression.allCanonical_iff {expressions : List Expression} :
    Expression.allCanonical expressions = true ↔ ∀ e ∈ expressions, e.isCanonical = true := by
  induction expressions with
  | nil => simp [Expression.allCanonical]
  | cons e rest ih => rw [Expression.allCanonical, Bool.and_eq_true, ih, List.forall_mem_cons]

theorem Caller.allCanonical_iff {callers : List Caller} :
    Caller.allCanonical callers = true ↔ ∀ c ∈ callers, c.isCanonical = true := by
  induction callers with
  | nil => simp [Caller.allCanonical]
  | cons c rest ih => rw [Caller.allCanonical, Bool.and_eq_true, ih, List.forall_mem_cons]

theorem Statement.allCanonical_iff {statements : List Statement} :
    Statement.allCanonical statements = true ↔ ∀ s ∈ statements, s.isCanonical = true := by
  induction statements with
  | nil => simp [Statement.allCanonical]
  | cons s rest ih => rw [Statement.allCanonical, Bool.and_eq_true, ih, List.forall_mem_cons]

/-! ## Trees that fit

A tree fits into a number of levels if it is canonical and opens no more levels than these. -/

/-- An expression fits into `levels` levels. -/
def Expression.Fits (levels : Nat) (expression : Expression) : Prop :=
  expression.nesting ≤ levels ∧ expression.isCanonical = true

/-- The arguments of a segment fit into `levels` levels. -/
def Caller.Fits (levels : Nat) (caller : Caller) : Prop :=
  caller.nesting ≤ levels ∧ caller.isCanonical = true

/-- The arguments of a new object fit into `levels` levels. -/
def NewObject.Fits (levels : Nat) (object : NewObject) : Prop :=
  object.nesting ≤ levels ∧ object.isCanonical = true

/-- What is assigned fits into `levels` levels. -/
def Rhs.Fits (levels : Nat) (rhs : Rhs) : Prop :=
  rhs.nesting ≤ levels ∧ rhs.isCanonical = true

/-- A statement fits into `levels` levels. -/
def Statement.Fits (levels : Nat) (statement : Statement) : Prop :=
  statement.nesting ≤ levels ∧ statement.isCanonical = true

/-- A block fits into `levels` levels. -/
def Statement.BlockFits (levels : Nat) (body : List Statement) : Prop :=
  Statement.mostNesting body + 1 ≤ levels ∧ Statement.allCanonical body = true

/-- A member fits into `levels` levels. -/
def Member.Fits (levels : Nat) (member : Member) : Prop :=
  member.nesting ≤ levels ∧ member.isCanonical = true

/-- A class fits into `levels` levels. -/
def ClassDef.Fits (levels : Nat) (classDef : ClassDef) : Prop :=
  classDef.nesting ≤ levels ∧ classDef.isCanonical = true

/-- A program fits into `levels` levels. -/
def Program.Fits (levels : Nat) (program : Program) : Prop :=
  program.nesting ≤ levels ∧ program.isCanonical = true

theorem Expression.fits_literal {levels : Nat} {kind : LiteralKind} {value : String} :
    (Expression.literal kind value).Fits (levels + 1) := by
  simp [Expression.Fits, Expression.nesting, Expression.isCanonical]

theorem Expression.not_fits_zero {expression : Expression} : ¬ expression.Fits 0 := by
  rintro ⟨h, -⟩
  cases expression <;> simp [Expression.nesting] at h

theorem Expression.fits_chain {levels : Nat} {first : Caller} {rest : List Caller} :
    (Expression.chain first rest).Fits (levels + 1) ↔
      ¬ (first.isBareThis = true ∧ rest = []) ∧ ∀ c ∈ first :: rest, c.Fits levels := by
  simp only [Expression.Fits, Expression.nesting, Expression.isCanonical, Caller.Fits,
    Nat.add_le_add_iff_right, Nat.max_le, Caller.mostNesting_le_iff, Bool.and_eq_true,
    Bool.not_eq_true', Bool.and_eq_false_iff, List.isEmpty_eq_false_iff, Caller.allCanonical_iff,
    List.forall_mem_cons, forall_and, not_and_or, Bool.not_eq_true]
  tauto

@[simp] theorem Caller.fits_ref {levels : Nat} {kind : CallerKind} {name : String} :
    (Caller.ref kind name).Fits levels := by
  simp [Caller.Fits, Caller.nesting, Caller.isCanonical]

@[simp] theorem Caller.fits_call {levels : Nat} {kind : CallerKind} {name : String}
    {args : List Expression} :
    (Caller.call kind name args).Fits levels ↔ ∀ e ∈ args, e.Fits levels := by
  simp only [Caller.Fits, Caller.nesting, Caller.isCanonical, Expression.mostNesting_le_iff,
    Expression.allCanonical_iff, Expression.Fits, forall_and]

theorem NewObject.fits_iff {levels : Nat} {object : NewObject} :
    object.Fits levels ↔ ∀ e ∈ object.args, e.Fits levels := by
  simp only [NewObject.Fits, NewObject.nesting, NewObject.isCanonical,
    Expression.mostNesting_le_iff, Expression.allCanonical_iff, Expression.Fits, forall_and]

theorem Statement.not_fits_zero {statement : Statement} : ¬ statement.Fits 0 := by
  rintro ⟨h, -⟩
  cases statement <;> simp [Statement.nesting] at h

@[simp] theorem Statement.fits_while {levels : Nat} {condition : Expression}
    {body : List Statement} :
    (Statement.while condition body).Fits (levels + 1) ↔
      condition.Fits levels ∧ Statement.BlockFits levels body := by
  simp only [Statement.Fits, Statement.nesting, Statement.isCanonical, Expression.Fits,
    Statement.BlockFits, Nat.add_le_add_iff_right, Nat.max_le, Bool.and_eq_true]
  tauto

@[simp] theorem Statement.fits_if {levels : Nat} {condition : Expression}
    {body : List Statement} :
    (Statement.if condition body).Fits (levels + 1) ↔
      condition.Fits levels ∧ Statement.BlockFits levels body := by
  simp only [Statement.Fits, Statement.nesting, Statement.isCanonical, Expression.Fits,
    Statement.BlockFits, Nat.add_le_add_iff_right, Nat.max_le, Bool.and_eq_true]
  tauto

@[simp] theorem Statement.fits_return {levels : Nat} {value : Expression} :
    (Statement.return value).Fits (levels + 1) ↔ value.Fits levels := by
  simp [Statement.Fits, Statement.nesting, Statement.isCanonical, Expression.Fits]

@[simp] theorem Statement.fits_assign {levels : Nat} {name : String} {rhs : Rhs} :
    (Statement.assign name rhs).Fits (levels + 1) ↔ rhs.Fits levels := by
  simp [Statement.Fits, Statement.nesting, Statement.isCanonical, Rhs.Fits]

@[simp] theorem Statement.fits_new {levels : Nat} {object : NewObject} :
    (Statement.new object).Fits (levels + 1) ↔ object.Fits levels := by
  simp [Statement.Fits, Statement.nesting, Statement.isCanonical, NewObject.Fits]

theorem Statement.not_blockFits_zero {body : List Statement} : ¬ Statement.BlockFits 0 body := by
  simp [Statement.BlockFits]

theorem Statement.blockFits_iff {levels : Nat} {body : List Statement} :
    Statement.BlockFits (levels + 1) body ↔ ∀ s ∈ body, s.Fits levels := by
  simp only [Statement.BlockFits, Statement.Fits, Nat.add_le_add_iff_right,
    Statement.mostNesting_le_iff, Statement.allCanonical_iff, forall_and]

@[simp] theorem Member.fits_staticField_none {levels : Nat} {name : String} :
    (Member.staticField name none).Fits levels := by
  simp [Member.Fits, Member.nesting, Member.isCanonical]

@[simp] theorem Member.fits_staticField_some {levels : Nat} {name : String}
    {initializer : Expression} :
    (Member.staticField name (some initializer)).Fits levels ↔ initializer.Fits levels := Iff.rfl

@[simp] theorem Member.fits_staticMethod {levels : Nat} {name : String} {method : Method} :
    (Member.staticMethod name method).Fits levels ↔ Statement.BlockFits levels method.body :=
  Iff.rfl

@[simp] theorem Member.fits_instanceField {levels : Nat} {name : String} :
    (Member.instanceField name).Fits levels := by
  simp [Member.Fits, Member.nesting, Member.isCanonical]

@[simp] theorem Member.fits_instanceMethod {levels : Nat} {name : String} {method : Method} :
    (Member.instanceMethod name method).Fits levels ↔ Statement.BlockFits levels method.body :=
  Iff.rfl

@[simp] theorem Member.fits_constructor {levels : Nat} {name : String} {method : Method} :
    (Member.constructor name method).Fits levels ↔ Statement.BlockFits levels method.body :=
  Iff.rfl

theorem ClassDef.fits_iff {levels : Nat} {classDef : ClassDef} :
    classDef.Fits levels ↔ ∀ m ∈ classDef.members.toList, m.Fits levels := by
  simp only [ClassDef.Fits, ClassDef.nesting, ClassDef.isCanonical, greatest_le_iff,
    List.forall_mem_map, List.all_eq_true, Member.Fits, forall_and]

theorem Program.fits_iff {levels : Nat} {program : Program} :
    program.Fits levels ↔ ∀ c ∈ program.classes.toList, c.Fits levels := by
  simp only [Program.Fits, Program.nesting, Program.isCanonical, greatest_le_iff,
    List.forall_mem_map, List.all_eq_true, ClassDef.Fits, forall_and]

end FrappeSyntax
