import FrappeSyntax.Program.Outline
import FrappeSyntax.Program.Parser

/-!
# Fragments

Each production can be parsed on its own. What it gives is a fragment of a program.
-/

namespace FrappeSyntax

/-- What a production gives. -/
inductive Fragment
  | program (program : Program)
  | classes (classes : Series ClassDef)
  | classDef (classDef : ClassDef)
  | members (members : Series Member)
  | member (member : Member)
  /-- A member, given by the production for its kind. -/
  | memberBody (member : Member)
  | method (method : Method)
  | params (names : Series String)
  | methodBody (statements : List Statement)
  | statements (statements : Series Statement)
  | statement (statement : Statement)
  /-- A statement, given by the production for its kind. -/
  | statementBody (statement : Statement)
  | loopBody (statements : List Statement)
  | rhs (rhs : Rhs)
  | newObject (object : NewObject)
  | expression (expression : Expression)
  | refChain (callers : Series Caller)
  | caller (caller : Caller)
  | argsPart (args : List Expression)
  | args (args : Series Expression)
deriving DecidableEq

/-- The outline of a fragment. -/
def Fragment.outlines : Fragment → List Outline
  | program p => [p.outline]
  | classes cs => Outline.ofItems Production.classes.label (cs.toList.map ClassDef.outline)
  | classDef c => [c.outline]
  | members ms => Outline.ofItems Production.members.label (ms.toList.map Member.outline)
  | member m => [m.outline]
  | memberBody m => [m.bodyOutline]
  | method m => [m.outline]
  | params names => Outline.ofNames Production.params.label names.toList
  | methodBody body => [Outline.ofBlock .methodBody (body.map Statement.outline)]
  | statements ss => Outline.ofItems Production.statements.label (ss.toList.map Statement.outline)
  | statement s => [s.outline]
  | statementBody s => [s.bodyOutline]
  | loopBody body => [Outline.ofBlock .loopBody (body.map Statement.outline)]
  | rhs r => [r.outline]
  | newObject o => [o.outline]
  | expression e => [e.outline]
  | refChain cs => Outline.ofItems Production.refChain.label (cs.toList.map Caller.outline)
  | caller c => [c.outline]
  | argsPart es => [Outline.ofArgsPart (es.map Expression.outline)]
  | args es => Outline.ofItems Production.args.label (es.toList.map Expression.outline)

/-- The rows that show a fragment. -/
def Fragment.rows (fragment : Fragment) : List Outline.Row :=
  Outline.rows fragment.outlines

/-- Parses a production, with at most `levels` levels open inside each other. -/
def Production.parseAt (levels : Nat) : Production → Routine Fragment
  | program => .program <$> Program.parse levels
  | classes => .classes <$> ClassDef.parseSeries levels
  | classBody => .classDef <$> ClassDef.parse levels
  | members => .members <$> Member.parseSeries levels
  | member => .member <$> Member.parse levels
  | staticField => .memberBody <$> Member.parseStaticField levels
  | staticMethod => .memberBody <$> Member.parseStaticMethod levels
  | instanceField => .memberBody <$> Member.parseInstanceField
  | instanceMethod => .memberBody <$> Member.parseInstanceMethod levels
  | constructor => .memberBody <$> Member.parseConstructor levels
  | restOfMethod => .method <$> Method.parse levels
  | params => .params <$> Method.parseParams
  | methodBody => .methodBody <$> Method.parseBody levels
  | statements => .statements <$> Statement.parseSeries (Statement.parse levels)
  | statement => .statement <$> Statement.parse levels
  | whileStatement =>
    .statementBody <$> Statement.parseWhile (Expression.parse levels) (Statement.parseBlock levels)
  | ifStatement =>
    .statementBody <$> Statement.parseIf (Expression.parse levels) (Statement.parseBlock levels)
  | loopBody => .loopBody <$> Statement.parseLoopBody (Statement.parseBlock levels)
  | returnStatement => .statementBody <$> Statement.parseReturn (Expression.parse levels)
  | assignment => .statementBody <$> Statement.parseAssignment (Expression.parse levels)
  | rhs => .rhs <$> Rhs.parse (Expression.parse levels)
  | newObject => .newObject <$> NewObject.parse (Expression.parse levels)
  | expression => .expression <$> Expression.parse levels
  | refChain => .refChain <$> Caller.parseChain (Expression.parse levels)
  | caller => .caller <$> Caller.parse (Expression.parse levels)
  | argsPart => .argsPart <$> Expression.parseArgsPart (Expression.parse levels)
  | args => .args <$> Expression.parseArgs (Expression.parse levels)

/-- Parses a production. -/
def Production.parse (production : Production) : Routine Fragment :=
  Routine.withLevels production.parseAt

/-- Parses a block on behalf of a production: its statements, if it has any. -/
def Fragment.parseBlock (production : String) : Routine (Option Fragment) := do
  let body ← Routine.withLevels (Statement.parseBlock · production)
  pure ((Series.ofList? body).map Fragment.statements)

end FrappeSyntax
