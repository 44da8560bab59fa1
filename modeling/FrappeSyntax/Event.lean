import FrappeSyntax.Error
import FrappeSyntax.Production

/-!
# Events

The work on a source can be followed in a log of events: the end of scanning, the start and end of
a parse, each production that is entered, and a refusal to nest any deeper. Here an event gets its
level, the part of the program that it comes from, and its text. The events are the calls of
`log::debug` and `log::trace` in `tokenize`, `parse_with`, `Parser::nested` and the routines of the
productions.
-/

namespace FrappeSyntax

/-- What a log tells. -/
inductive Event
  /-- A source was scanned; `count` leaves the end token out. -/
  | scanned (count : Nat) (file : String)
  /-- A parse began. -/
  | started
  /-- A parse gave a program. -/
  | finished (classes : Nat)
  /-- A parse met an error. -/
  | aborted (error : Error)
  /-- The parser turned to a production. -/
  | entered (production : Production)
  /-- The level `depth`, which `production` would have opened, is too deep. -/
  | refused (production : String) (depth : Nat)
deriving DecidableEq

namespace Event

/-- How much attention an event asks for. -/
inductive Level
  | debug
  | trace
deriving DecidableEq

/-- The name of a level. -/
def Level.label : Level → String
  | .debug => "DEBUG"
  | .trace => "TRACE"

/-- Entered productions are traced; all other events are of use without them. -/
def level : Event → Level
  | entered _ => .trace
  | _ => .debug

/-- The part of the program that an event comes from. -/
def target : Event → String
  | scanned .. => "frappe::lexer::lexer"
  | entered production =>
    match production.group with
    | .classes => "frappe::parser::class"
    | .statements => "frappe::parser::stmt"
    | .expressions => "frappe::parser::expr"
  | _ => "frappe::parser::parser"

/-- The text of an event. -/
def text : Event → String
  | scanned count file => "tokenized " ++ toString count ++ " tokens from " ++ file
  | started => "parse start"
  | finished classes => "parse finished: " ++ toString classes ++ " classes"
  | aborted error => "parse aborted: " ++ error.message
  | entered production => "parsing <" ++ production.label ++ ">"
  | refused production depth =>
    "recursion limit hit in <" ++ production ++ "> at depth " ++ toString depth

/-- The events that `tokenize` logs for `file`: a scan that fails is not logged. -/
def ofScan (result : Except Error (List Token)) (file : String) : List Event :=
  match result with
  | .ok tokens => [scanned (tokens.length - 1) file]
  | .error _ => []

end Event

end FrappeSyntax
