import FrappeSyntax.Expression
import FrappeSyntax.Series.Parser

/-!
# Parsing expressions

The routines for arguments, segments, chains and new objects are given the routine for the
expressions inside them, so that each expression opens one level and the levels left drive the
recursion. They are the functions of `frappe::parser::expr`.
-/

namespace FrappeSyntax

open Routine

/-- Model of `parse_args`: expressions separated by commas. -/
def Expression.parseArgs (expression : Routine Expression) : Routine (Series Expression) := do
  enter .args
  Series.parse "," expression

/-- Model of `parse_args_part`: arguments in parentheses, if there are any. -/
def Expression.parseArgsPart (expression : Routine Expression) : Routine (List Expression) := do
  enter .argsPart
  Series.parseBetween "(" ")" Production.argsPart.label (Expression.parseArgs expression)

/-- Model of `parse_caller`: a name, and arguments if it is called. -/
def Caller.parse (expression : Routine Expression) : Routine Caller := do
  enter .caller
  let token ← next
  match CallerKind.ofKind? token.kind with
  | none => noAlternative .caller "a name, a class name or `this`" token
  | some kind =>
    if (← peek).isSingle "(" then
      let args ← Expression.parseArgsPart expression
      pure (.call kind token.text args)
    else pure (.ref kind token.text)

/-- Model of `parse_ref_chain`: segments joined by points. -/
def Caller.parseChain (expression : Routine Expression) : Routine (Series Caller) := do
  enter .refChain
  Series.parse "." (Caller.parse expression)

/-- Model of `parse_new_object`: `new`, a class name and arguments. -/
def NewObject.parse (expression : Routine Expression) : Routine NewObject := do
  enter .newObject
  let _ ← expect .newWord Production.newObject.label
  let className ← expect .className Production.newObject.label
  let args ← Expression.parseArgsPart expression
  pure ⟨className.text, args⟩

/-- Holds where `this` starts a chain: before a point or a list of arguments. -/
def Expression.continuesThis (following : Token) : Bool :=
  following.isSingle "." || following.isSingle "("

/-- A chain that starts with `token`, which is handed back first. -/
def Expression.parseChainAt (expression : Routine Expression) (token : Token) :
    Routine Expression := do
  match CallerKind.ofKind? token.kind with
  | none => noAlternative .expression "a literal, a name or a class name" token
  | some _ =>
    pushBack token
    let chain ← Caller.parseChain expression
    pure (.chain chain.first chain.rest)

/-- What `parse_expression` does after its level was opened: it reads a literal, unless it has to be
a chain. -/
def Expression.parseOpened (expression : Routine Expression) : Routine Expression := do
  let token ← next
  match LiteralKind.ofKind? token.kind with
  | none => Expression.parseChainAt expression token
  | some .this =>
    if continuesThis (← peek) then Expression.parseChainAt expression token
    else pure (.literal .this token.text)
  | some kind => pure (.literal kind token.text)

/-- Model of `parse_expression`, with at most `levels` levels open inside each other. -/
def Expression.parse : (levels : Nat) → Routine Expression
  | 0 => do
    enter .expression
    refuse Production.expression.label
  | levels + 1 => do
    enter .expression
    deeper (Expression.parseOpened (Expression.parse levels))

end FrappeSyntax
