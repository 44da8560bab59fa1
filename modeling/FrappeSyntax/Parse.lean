import FrappeSyntax.Program.Parser

/-!
# Parsing

The way from a token stream to a program: a fresh parser reads a `program`, and the log tells how
this began and ended. These are `parse` and `parse_with` of `frappe::parser::parser`.
-/

namespace FrappeSyntax

/-- The event that ends a parse. -/
def Event.ofParse : Except Error Program → Event
  | .ok program => finished program.classes.length
  | .error error => aborted error

/-- Model of `parse_with`: parses a stream under given limits. This gives the program or the first
error, and the parser afterwards. -/
def parseWith (stream : TokenStream) (limits : Limits) : Except Error Program × Parser :=
  let parser := (Parser.ofStream stream limits).note .started
  let (result, parser) := parser.run (Routine.withLevels Program.parse)
  (result, parser.note (.ofParse result))

/-- Model of `parse`: parses the tokens of `file` under the usual limits. -/
def parse (tokens : List Token) (file : String) : Except Error Program × Parser :=
  parseWith (.ofTokens tokens file) {}

end FrappeSyntax
