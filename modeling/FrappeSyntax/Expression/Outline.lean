import FrappeSyntax.Expression
import FrappeSyntax.Outline
import FrappeSyntax.Production

/-!
# Outlines of expressions
-/

namespace FrappeSyntax

/-- A node for a production. -/
def Production.node (production : Production) (fields : List Field) (children : List Outline) :
    Outline :=
  .node production.label fields children

/-- The tag of a kind of literal. -/
def LiteralKind.tag (kind : LiteralKind) : String := kind.kind.tag

/-- The tag of a kind of segment. -/
def CallerKind.tag (kind : CallerKind) : String := kind.kind.tag

/-- The node for a list of arguments in parentheses. -/
def Outline.ofArgsPart (args : List Outline) : Outline :=
  Production.argsPart.node [.count args.length] (ofItems Production.args.label args)

mutual

/-- The outline of an expression. -/
def Expression.outline : Expression → Outline
  | .literal kind value =>
    Production.expression.node [] [.node "literal" [.text kind.tag, .text value] []]
  | .chain first rest =>
    Production.expression.node []
      (Outline.ofItems Production.refChain.label (first.outline :: Caller.outlines rest))

/-- The outline of a segment. -/
def Caller.outline : Caller → Outline
  | .ref kind name => Production.caller.node [.text kind.tag, .text name, .flag false] []
  | .call kind name args =>
    Production.caller.node [.text kind.tag, .text name, .flag true]
      [Outline.ofArgsPart (Expression.outlines args)]

/-- The outlines of segments. -/
def Caller.outlines : List Caller → List Outline
  | [] => []
  | caller :: rest => caller.outline :: Caller.outlines rest

/-- The outlines of expressions. -/
def Expression.outlines : List Expression → List Outline
  | [] => []
  | expression :: rest => expression.outline :: Expression.outlines rest

end

/-- The outline of a new object. -/
def NewObject.outline (object : NewObject) : Outline :=
  Production.newObject.node [.text object.className]
    [Outline.ofArgsPart (object.args.map Expression.outline)]

end FrappeSyntax
