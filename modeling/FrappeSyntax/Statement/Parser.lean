import FrappeSyntax.Expression.Parser
import FrappeSyntax.Statement

/-!
# Parsing statements

A statement opens a level, and so does a block. The routines for single kinds of statements are
given the routines for the expressions and blocks inside them. They are the functions of
`frappe::parser::stmt`.
-/

namespace FrappeSyntax

open Routine

/-- Model of `parse_rhs`: a new object or an expression. -/
def Rhs.parse (expression : Routine Expression) : Routine Rhs := do
  enter .rhs
  if (← peek).isKind .newWord then
    pure (.new (← NewObject.parse expression))
  else
    pure (.expression (← expression))

namespace Statement

/-- Model of `parse_assignment`: a name, `=` and what is assigned. -/
def parseAssignment (expression : Routine Expression) : Routine Statement := do
  enter .assignment
  let name ← expect .name Production.assignment.label
  let _ ← expectSingle "=" Production.assignment.label
  let rhs ← Rhs.parse expression
  pure (.assign name.text rhs)

/-- Model of `parse_return_statement`: `return` and an expression. -/
def parseReturn (expression : Routine Expression) : Routine Statement := do
  enter .returnStatement
  let _ ← expect .returnWord Production.returnStatement.label
  let value ← expression
  pure (.return value)

/-- Model of `parse_loop_body`: the block of a loop or condition. -/
def parseLoopBody (block : String → Routine (List Statement)) : Routine (List Statement) := do
  enter .loopBody
  block Production.loopBody.label

/-- What `parse_while_statement` and `parse_if_statement` share: a keyword, a condition in
parentheses and a body. -/
def parseGuarded (production : Production) (keyword : Kind)
    (make : Expression → List Statement → Statement) (expression : Routine Expression)
    (block : String → Routine (List Statement)) : Routine Statement := do
  enter production
  let _ ← expect keyword production.label
  let _ ← expectSingle "(" production.label
  let condition ← expression
  let _ ← expectSingle ")" production.label
  let body ← parseLoopBody block
  pure (make condition body)

/-- Model of `parse_while_statement`: `while`, a condition in parentheses and a body. -/
def parseWhile (expression : Routine Expression) (block : String → Routine (List Statement)) :
    Routine Statement :=
  parseGuarded .whileStatement .whileWord .while expression block

/-- Model of `parse_if_statement`: `if`, a condition in parentheses and a body. -/
def parseIf (expression : Routine Expression) (block : String → Routine (List Statement)) :
    Routine Statement :=
  parseGuarded .ifStatement .ifWord .if expression block

/-- What `parse_statement` does after its level was opened: the first token tells which routine
reads the statement. -/
def parseOpened (expression : Routine Expression) (block : String → Routine (List Statement)) :
    Routine Statement := do
  let token ← next
  match token.kind with
  | .whileWord =>
    pushBack token
    parseWhile expression block
  | .ifWord =>
    pushBack token
    parseIf expression block
  | .returnWord =>
    pushBack token
    parseReturn expression
  | .newWord =>
    pushBack token
    pure (.new (← NewObject.parse expression))
  | .name =>
    pushBack token
    parseAssignment expression
  | _ =>
    noAlternative .statement "`while`, `if`, `return`, `new` or a name" token

/-- Model of `parse_statements`: statements up to, not including, the closing brace. -/
def parseSeries (statement : Routine Statement) : Routine (Series Statement) := do
  enter .statements
  Series.parseUntil (·.isSingle "\x7d") statement

/-- What `parse_block` does after its level was opened: it reads statements in braces, if there are
any. -/
def parseBraced (statement : Routine Statement) (production : String) :
    Routine (List Statement) :=
  Series.parseBetween "\x7b" "\x7d" production (parseSeries statement)

mutual

/-- Model of `parse_statement`, with at most `levels` levels open inside each other. -/
def parse : (levels : Nat) → Routine Statement
  | 0 => do
    enter .statement
    refuse Production.statement.label
  | levels + 1 => do
    enter .statement
    deeper (parseOpened (Expression.parse levels) (parseBlock levels))

/-- Model of `parse_block`, which reads a block on behalf of `production`, with at most `levels`
levels open inside each other. -/
def parseBlock : (levels : Nat) → (production : String) → Routine (List Statement)
  | 0, production => refuse production
  | levels + 1, production => deeper (parseBraced (parse levels) production)

end

end Statement

end FrappeSyntax
