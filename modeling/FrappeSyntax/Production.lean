/-!
# Productions

The grammar has 27 productions, in three groups: those for classes, for statements and for
expressions. Each has a name by which messages and outlines call it, a routine that reads it, and a
node that holds what was read.
-/

namespace FrappeSyntax

/-- The productions of the grammar. -/
inductive Production
  | program
  | classes
  | classBody
  | members
  | member
  | staticField
  | staticMethod
  | instanceField
  | instanceMethod
  | constructor
  | restOfMethod
  | params
  | methodBody
  | statements
  | statement
  | whileStatement
  | ifStatement
  | loopBody
  | returnStatement
  | assignment
  | rhs
  | newObject
  | expression
  | refChain
  | caller
  | argsPart
  | args
deriving DecidableEq

namespace Production

/-- The groups of productions. -/
inductive Group
  | classes
  | statements
  | expressions
deriving DecidableEq

/-- Model of `Node::label`: the name of a production. -/
def label : Production → String
  | program => "program"
  | classes => "classes"
  | classBody => "class"
  | members => "members"
  | member => "member"
  | staticField => "staticField"
  | staticMethod => "staticMethod"
  | instanceField => "instanceField"
  | instanceMethod => "instanceMethod"
  | constructor => "constructor"
  | restOfMethod => "restOfMethod"
  | params => "params"
  | methodBody => "methodBody"
  | statements => "statements"
  | statement => "statement"
  | whileStatement => "whileStatement"
  | ifStatement => "ifStatement"
  | loopBody => "loopBody"
  | returnStatement => "returnStatement"
  | assignment => "assignment"
  | rhs => "rhs"
  | newObject => "newObject"
  | expression => "expression"
  | refChain => "refChain"
  | caller => "caller"
  | argsPart => "argsPart"
  | args => "args"

/-- The group that a production belongs to. -/
def group : Production → Group
  | program | classes | classBody | members | member | staticField | staticMethod
  | instanceField | instanceMethod | constructor | restOfMethod | params | methodBody => .classes
  | statements | statement | whileStatement | ifStatement | loopBody | returnStatement
  | assignment | rhs => .statements
  | newObject | expression | refChain | caller | argsPart | args => .expressions

/-- Every production, once. -/
def all : List Production :=
  [program, classes, classBody, members, member, staticField, staticMethod, instanceField,
    instanceMethod, constructor, restOfMethod, params, methodBody, statements, statement,
    whileStatement, ifStatement, loopBody, returnStatement, assignment, rhs, newObject, expression,
    refChain, caller, argsPart, args]

/-- The production with a given name. -/
def ofLabel? (label : String) : Option Production :=
  all.find? fun production => production.label == label

end Production

end FrappeSyntax
