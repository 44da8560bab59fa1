import FrappeSyntax.Program
import FrappeSyntax.Statement.Outline

/-!
# Outlines of programs
-/

namespace FrappeSyntax

/-- The outline of a method. -/
def Method.outline (method : Method) : Outline :=
  Production.restOfMethod.node [.flag !method.params.isEmpty]
    (Outline.ofNames Production.params.label method.params ++
      [Outline.ofBlock .methodBody (method.body.map Statement.outline)])

namespace Member

/-- The production for the kind of a member. -/
def production : Member → Production
  | staticField .. => .staticField
  | staticMethod .. => .staticMethod
  | instanceField _ => .instanceField
  | instanceMethod .. => .instanceMethod
  | constructor .. => .constructor

/-- The outline of a member as one of its kind. -/
def bodyOutline (member : Member) : Outline :=
  match member with
  | staticField name initializer =>
    Production.staticField.node [.text name, .flag initializer.isSome]
      (initializer.toList.map Expression.outline)
  | staticMethod name method => Production.staticMethod.node [.text name] [method.outline]
  | instanceField name => Production.instanceField.node [.text name] []
  | instanceMethod name method => Production.instanceMethod.node [.text name] [method.outline]
  | constructor name method => Production.constructor.node [.text name] [method.outline]

/-- The outline of a member. -/
def outline (member : Member) : Outline :=
  Production.member.node [.text member.production.label, .text member.name] [member.bodyOutline]

end Member

/-- The outline of a class. -/
def ClassDef.outline (classDef : ClassDef) : Outline :=
  Production.classBody.node [.text classDef.name]
    (Outline.ofItems Production.members.label (classDef.members.toList.map Member.outline))

/-- The outline of a program. -/
def Program.outline (program : Program) : Outline :=
  Production.program.node []
    (Outline.ofItems Production.classes.label (program.classes.toList.map ClassDef.outline))

end FrappeSyntax
