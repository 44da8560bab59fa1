import FrappeSyntax.Program
import FrappeSyntax.Statement.Dump

/-!
# Dumps of programs
-/

namespace FrappeSyntax

/-- The dump of a method. -/
def Method.dump (method : Method) : Dump :=
  .record2 "RestOfMethod"
    "params" (.ofOption (Dump.ofItems? "Params" "name" (method.params.map .quoted)))
    "body" (.ofBlock "MethodBody" (method.body.map Statement.dump))

namespace Member

/-- The dump of a member with a method, of which `kind` names the kind. -/
def dumpOfMethod (kind name : String) (method : Method) : Dump :=
  .wrapped kind (.record2 kind "name" (.quoted name) "rest" method.dump)

/-- The dump of a member. -/
def dump : Member → Dump
  | staticField name initializer =>
    .wrapped "StaticField" (.record2 "StaticField" "name" (.quoted name)
      "initializer" (.ofOption (initializer.map Expression.dump)))
  | staticMethod name method => dumpOfMethod "StaticMethod" name method
  | instanceField name =>
    .wrapped "InstanceField" (.record1 "InstanceField" "name" (.quoted name))
  | instanceMethod name method => dumpOfMethod "InstanceMethod" name method
  | constructor name method => dumpOfMethod "Constructor" name method

end Member

/-- The dump of a class. -/
def ClassDef.dump (classDef : ClassDef) : Dump :=
  .record2 "Class" "name" (.quoted classDef.name)
    "members" (.ofSeries "Members" "first" classDef.members.first.dump
      (classDef.members.rest.map Member.dump))

/-- The dump of a program. -/
def Program.dump (program : Program) : Dump :=
  .record1 "Program" "classes"
    (.ofSeries "Classes" "first" program.classes.first.dump
      (program.classes.rest.map ClassDef.dump))

end FrappeSyntax
