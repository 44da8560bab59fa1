import FrappeSyntax.Expression.Outline
import FrappeSyntax.Statement

/-!
# Outlines of statements
-/

namespace FrappeSyntax

/-- The outline of what is assigned. -/
def Rhs.outline : Rhs → Outline
  | expression value => Production.rhs.node [] [value.outline]
  | new object => Production.rhs.node [] [object.outline]

/-- The node for a block that belongs to `owner`. -/
def Outline.ofBlock (owner : Production) (statements : List Outline) : Outline :=
  owner.node [.flag !statements.isEmpty] (ofItems Production.statements.label statements)

/-- The production for the kind of a statement. -/
def Statement.production : Statement → Production
  | .while .. => .whileStatement
  | .if .. => .ifStatement
  | .return _ => .returnStatement
  | .assign .. => .assignment
  | .new _ => .newObject

/-- The node for a statement of the kind `production`. -/
def Outline.ofStatement (production : Production) (body : Outline) : Outline :=
  Production.statement.node [.text production.label] [body]

mutual

/-- The outline of a statement as one of its kind. -/
def Statement.bodyOutline : Statement → Outline
  | .while condition body =>
    Production.whileStatement.node []
      [condition.outline, Outline.ofBlock .loopBody (Statement.outlines body)]
  | .if condition body =>
    Production.ifStatement.node []
      [condition.outline, Outline.ofBlock .loopBody (Statement.outlines body)]
  | .return value => Production.returnStatement.node [] [value.outline]
  | .assign name rhs => Production.assignment.node [.text name] [rhs.outline]
  | .new object => object.outline

/-- The outlines of statements. -/
def Statement.outlines : List Statement → List Outline
  | [] => []
  | statement :: rest =>
    Outline.ofStatement statement.production statement.bodyOutline :: Statement.outlines rest

end

/-- The outline of a statement. -/
def Statement.outline (statement : Statement) : Outline :=
  Outline.ofStatement statement.production statement.bodyOutline

end FrappeSyntax
