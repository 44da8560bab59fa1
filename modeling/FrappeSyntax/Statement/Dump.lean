import FrappeSyntax.Expression.Dump
import FrappeSyntax.Statement

/-!
# Dumps of statements
-/

namespace FrappeSyntax

/-- The dump of what is assigned. -/
def Rhs.dump : Rhs → Dump
  | expression value => .wrapped "Expression" value.dump
  | new object => .wrapped "New" object.dump

/-- The dump of a block that belongs to `owner`. -/
def Dump.ofBlock (owner : String) (statements : List Dump) : Dump :=
  record1 owner "statements" (ofOption (ofItems? "Statements" "first" statements))

mutual

/-- The dump of a statement. -/
def Statement.dump : Statement → Dump
  | .while condition body =>
    .wrapped "While" (.record2 "WhileStatement" "condition" condition.dump
      "body" (.ofBlock "LoopBody" (Statement.dumps body)))
  | .if condition body =>
    .wrapped "If" (.record2 "IfStatement" "condition" condition.dump
      "body" (.ofBlock "LoopBody" (Statement.dumps body)))
  | .return value => .wrapped "Return" (.record1 "ReturnStatement" "value" value.dump)
  | .assign name rhs =>
    .wrapped "Assignment" (.record2 "Assignment" "name" (.quoted name) "rhs" rhs.dump)
  | .new object => .wrapped "New" object.dump

/-- The dumps of statements. -/
def Statement.dumps : List Statement → List Dump
  | [] => []
  | statement :: rest => statement.dump :: Statement.dumps rest

end

end FrappeSyntax
