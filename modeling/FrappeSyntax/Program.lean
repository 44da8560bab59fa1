import FrappeSyntax.Series
import FrappeSyntax.Statement

/-!
# Programs

A program is a series of classes, and a class a series of members. Fields and methods belong to the
class if they are static, and to its instances if not; a constructor is named after a class. These
are the types of `frappe::ast::ast`.
-/

namespace FrappeSyntax

/-- Model of `RestOfMethod`: the parameters and the body of a method or constructor. -/
structure Method where
  params : List String
  body : List Statement
deriving DecidableEq

/-- Model of `Member`, with the fields of the node that it wraps. -/
inductive Member
  | staticField (name : String) (initializer : Option Expression)
  | staticMethod (name : String) (method : Method)
  | instanceField (name : String)
  | instanceMethod (name : String) (method : Method)
  | constructor (name : String) (method : Method)
deriving DecidableEq

/-- Model of `Member::name`. -/
def Member.name : Member → String
  | staticField name _ => name
  | staticMethod name _ => name
  | instanceField name => name
  | instanceMethod name _ => name
  | constructor name _ => name

/-- Model of `Class`. -/
structure ClassDef where
  name : String
  members : Series Member
deriving DecidableEq

/-- Model of `Program`. -/
structure Program where
  classes : Series ClassDef
deriving DecidableEq

end FrappeSyntax
