import FrappeSyntax.Program
import FrappeSyntax.Statement.Parser

/-!
# Parsing programs

The routines for classes, members and methods, which are the functions of `frappe::parser::class`.
They open no levels themselves: `levels` is the number of levels that may be open inside each other
in the fields and methods.

Which member comes next shows in its first three tokens at most. They are taken, looked at, and
handed back, so that the routine for the member starts at its beginning.
-/

namespace FrappeSyntax

open Routine

namespace Method

/-- Model of `parse_params`: names separated by commas. -/
def parseParams : Routine (Series String) := do
  enter .params
  Series.parse "," do
    pure (← expect .name Production.params.label).text

/-- Model of `parse_method_body`: a block. -/
def parseBody (levels : Nat) : Routine (List Statement) := do
  enter .methodBody
  Statement.parseBlock levels Production.methodBody.label

/-- Model of `parse_rest_of_method`: parameters in parentheses, if there are any, and a body. -/
def parse (levels : Nat) : Routine Method := do
  enter .restOfMethod
  let params ← Series.parseBetween "(" ")" Production.restOfMethod.label parseParams
  let body ← parseBody levels
  pure ⟨params, body⟩

end Method

namespace Member

/-- What follows the name of a static field: a value after `=`, if there is one. -/
def parseInitializer (levels : Nat) (name : String) : Routine Member := do
  let token ← next
  if token.isSingle "=" then
    let initializer ← Expression.parse levels
    pure (.staticField name (some initializer))
  else
    pushBack token
    pure (.staticField name none)

/-- Model of `parse_static_field`: `static`, a name, and a value after `=` if there is one. -/
def parseStaticField (levels : Nat) : Routine Member := do
  enter .staticField
  let _ ← expect .staticWord Production.staticField.label
  let name ← expect .name Production.staticField.label
  parseInitializer levels name.text

/-- What follows the name of a method or constructor, which `make` makes a member of. -/
def parseMethod (levels : Nat) (make : Method → Member) : Routine Member := do
  let method ← Method.parse levels
  pure (make method)

/-- Model of `parse_static_method`: `static`, a name and a method. -/
def parseStaticMethod (levels : Nat) : Routine Member := do
  enter .staticMethod
  let _ ← expect .staticWord Production.staticMethod.label
  let name ← expect .name Production.staticMethod.label
  parseMethod levels (.staticMethod name.text)

/-- Model of `parse_instance_field`: a name. -/
def parseInstanceField : Routine Member := do
  enter .instanceField
  let name ← expect .name Production.instanceField.label
  pure (.instanceField name.text)

/-- What `parse_instance_method` and `parse_constructor` share: a name, which is a word of kind
`kind`, and a method. -/
def parseNamedMethod (production : Production) (kind : Kind) (make : String → Method → Member)
    (levels : Nat) : Routine Member := do
  enter production
  let name ← expect kind production.label
  parseMethod levels (make name.text)

/-- Model of `parse_instance_method`: a name and a method. -/
def parseInstanceMethod (levels : Nat) : Routine Member :=
  parseNamedMethod .instanceMethod .name .instanceMethod levels

/-- Model of `parse_constructor`: a class name and a method. -/
def parseConstructor (levels : Nat) : Routine Member :=
  parseNamedMethod .constructor .className .constructor levels

/-- Model of `parse_member`: one of the five kinds of members. -/
def parse (levels : Nat) : Routine Member := do
  enter .member
  let token ← next
  match token.kind with
  | .staticWord =>
    let name ← expect .name Production.member.label
    let following ← next
    pushBack following
    pushBack name
    pushBack token
    if following.isSingle "(" then parseStaticMethod levels else parseStaticField levels
  | .name =>
    let following ← next
    pushBack following
    pushBack token
    if following.isSingle "(" then parseInstanceMethod levels else parseInstanceField
  | .className =>
    pushBack token
    parseConstructor levels
  | _ => noAlternative .member "`static`, a name or a class name" token

/-- Model of `parse_members`: members up to, not including, the closing brace. -/
def parseSeries (levels : Nat) : Routine (Series Member) := do
  enter .members
  Series.parseUntil (·.isSingle "\x7d") (parse levels)

end Member

namespace ClassDef

/-- Model of `parse_class`: `class`, a class name and members in braces. -/
def parse (levels : Nat) : Routine ClassDef := do
  enter .classBody
  let _ ← expect .classWord Production.classBody.label
  let name ← expect .className Production.classBody.label
  let _ ← expectSingle "\x7b" Production.classBody.label
  let members ← Member.parseSeries levels
  let _ ← expectSingle "\x7d" Production.classBody.label
  pure ⟨name.text, members⟩

/-- Model of `parse_classes`: classes up to, not including, the end. -/
def parseSeries (levels : Nat) : Routine (Series ClassDef) := do
  enter .classes
  Series.parseUntil (·.isKind .eof) (parse levels)

end ClassDef

/-- Model of `parse_program`: classes and the end. -/
def Program.parse (levels : Nat) : Routine Program := do
  enter .program
  let classes ← ClassDef.parseSeries levels
  let _ ← expect .eof Production.program.label
  pure ⟨classes⟩

end FrappeSyntax
