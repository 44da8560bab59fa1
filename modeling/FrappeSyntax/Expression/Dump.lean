import FrappeSyntax.Dump
import FrappeSyntax.Expression

/-!
# Dumps of expressions
-/

namespace FrappeSyntax

/-- The dump of a kind of literal. -/
def LiteralKind.dump : LiteralKind → Dump
  | string => .bare "Str"
  | number => .bare "Num"
  | null => .bare "Null"
  | true => .bare "True"
  | false => .bare "False"
  | this => .bare "This"

/-- The dump of a kind of segment. -/
def CallerKind.dump : CallerKind → Dump
  | name => .bare "Name"
  | className => .bare "ClassName"
  | this => .bare "This"

/-- The dump of a segment, from that of its arguments if it has a list of them. -/
def Dump.ofCaller (kind : CallerKind) (name : String) (args : Option Dump) : Dump :=
  record3 "Caller" "kind" kind.dump "name" (quoted name) "args" (ofOption args)

/-- The dump of a list of arguments in parentheses. -/
def Dump.ofArgsPart (args : List Dump) : Dump :=
  record1 "ArgsPart" "args" (ofOption (ofItems? "Args" "first" args))

mutual

/-- The dump of an expression. -/
def Expression.dump : Expression → Dump
  | .literal kind value =>
    .wrapped "Literal" (.record2 "Literal" "kind" kind.dump "value" (.quoted value))
  | .chain first rest =>
    .wrapped "RefChain" (.ofSeries "RefChain" "caller" first.dump (Caller.dumps rest))

/-- The dump of a segment. -/
def Caller.dump : Caller → Dump
  | .ref kind name => .ofCaller kind name none
  | .call kind name args => .ofCaller kind name (some (.ofArgsPart (Expression.dumps args)))

/-- The dumps of segments. -/
def Caller.dumps : List Caller → List Dump
  | [] => []
  | caller :: rest => caller.dump :: Caller.dumps rest

/-- The dumps of expressions. -/
def Expression.dumps : List Expression → List Dump
  | [] => []
  | expression :: rest => expression.dump :: Expression.dumps rest

end

/-- The dump of a new object. -/
def NewObject.dump (object : NewObject) : Dump :=
  .record2 "NewObject" "class_name" (.quoted object.className)
    "args" (.ofArgsPart (object.args.map Expression.dump))

end FrappeSyntax
