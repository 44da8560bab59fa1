import FrappeSyntax.Event
import FrappeSyntax.Token.Stream

/-!
# Parsers

A parser reads a token stream under two limits: how many blocks, statements and expressions may be
open inside each other, and until when it may work. It counts the levels that are open, looks at
the clock before it opens one more, and keeps a log. This is the `Parser` of
`frappe::parser::parser`, with its `ParserOptions`.

A *routine* is a computation on a parser that gives a result or an error. The parser lives on after
an error, at the place where the error was met.

A level that is refused stays counted. So the depth of a parser is the number of open levels and
of refusals together, and each refusal leaves one level less for what follows.
-/

namespace FrappeSyntax

/-- Model of `ParserOptions`: the limits of a parser. The clock is given with them, since the
program reads that of the system. -/
structure Limits where
  /-- The number of levels that may be open at once. -/
  maxDepth : Nat := 128
  /-- The instant at which the time for parsing is over, if there is one. -/
  deadline : Option Nat := none
  /-- The instant at which the parse begins. -/
  now : Nat := 0
  /-- The time that passes up to each look at the clock, from the look before it. After the last of
  them the clock stands still. -/
  ticks : List Nat := []
deriving DecidableEq

/-- The instant that the clock shows after `looks` earlier looks. -/
def Limits.instant (limits : Limits) (looks : Nat) : Nat :=
  (limits.ticks.take (looks + 1)).foldl (· + ·) limits.now

/-- Holds when a look at the clock, after `looks` earlier ones, finds that the time is over. -/
def Limits.isExpired (limits : Limits) (looks : Nat) : Bool :=
  limits.deadline.any (· ≤ limits.instant looks)

/-- Model of `Parser`: the state of a parser. The log is part of it, which the program hands to a
logger instead. -/
structure Parser where
  stream : TokenStream
  limits : Limits
  /-- How often the parser has looked at the clock. -/
  looks : Nat
  /-- The levels that are open, and those that were refused. -/
  depth : Nat
  /-- What happened so far, the latest first. -/
  log : List Event
deriving DecidableEq

/-- A computation on a parser that gives a result or an error. -/
abbrev Routine := EStateM Error Parser

namespace Parser

/-- Model of `Parser::new`: a parser at the start of a stream. -/
def ofStream (stream : TokenStream) (limits : Limits) : Parser :=
  ⟨stream, limits, 0, 0, []⟩

/-- The number of levels that may still be opened. -/
def levels (parser : Parser) : Nat := parser.limits.maxDepth - parser.depth

/-- Adds an event to the log. -/
def note (event : Event) (parser : Parser) : Parser :=
  { parser with log := event :: parser.log }

/-- Counts one level more. -/
def raise (parser : Parser) : Parser := { parser with depth := parser.depth + 1 }

/-- Counts one level less. -/
def lower (parser : Parser) : Parser := { parser with depth := parser.depth - 1 }

/-- Runs a routine: what it gives, and the parser afterwards. -/
def run (parser : Parser) (routine : Routine α) : Except Error α × Parser :=
  match routine parser with
  | .ok result parser => (.ok result, parser)
  | .error error parser => (.error error, parser)

end Parser

namespace Routine

/-! ## Single tokens -/

/-- Model of `Parser::next_token`: takes the next token. -/
def next : Routine Token := fun parser =>
  .ok parser.stream.next.1 { parser with stream := parser.stream.next.2 }

/-- Model of `Parser::push_back`: hands a token back. -/
def pushBack (token : Token) : Routine Unit := fun parser =>
  .ok () { parser with stream := parser.stream.pushBack token }

/-- Model of `Parser::peek`: the next token, which is taken and handed back. -/
def peek : Routine Token := do
  let token ← next
  pushBack token
  pure token

/-- Model of `Parser::expect`: takes the next token, which has to be of kind `kind`. -/
def expect (kind : Kind) (production : String) : Routine Token := do
  ofExcept ((← next).expectKind kind production)

/-- Model of `Parser::expect_single`: takes the next token, which has to be the punctuation that
reads `text`. -/
def expectSingle (text production : String) : Routine Token := do
  ofExcept ((← next).expectWord (.single text) production)

/-- Fails at `token`, which starts no alternative of `production`; `expected` lists them. -/
def noAlternative (production : Production) (expected : String) (token : Token) : Routine α :=
  throw (.unexpectedAlternative production.label expected token)

/-! ## The log -/

/-- Logs an event. -/
def note (event : Event) : Routine Unit := modify (Parser.note event)

/-- Logs that `production` is entered. -/
def enter (production : Production) : Routine Unit := note (.entered production)

/-! ## Levels -/

/-- The first refusal of `Parser::nested`: a level is not opened, because of the limit on depth. -/
def refuse (production : String) : Routine α := do
  modify Parser.raise
  let parser ← get
  note (.refused production parser.depth)
  throw ⟨.recursionLimitExceeded parser.limits.maxDepth, (← peek).position⟩

/-- Lowers the depth after a routine, whether it failed or not. -/
def thenLower (routine : Routine α) : Routine α := fun parser =>
  match routine parser with
  | .ok result parser => .ok result parser.lower
  | .error error parser => .error error parser.lower

/-- Looks at the clock, and tells whether the time is over. -/
def isExpired : Routine Bool := fun parser =>
  .ok (parser.limits.isExpired parser.looks) { parser with looks := parser.looks + 1 }

/-- What `Parser::nested` does below the limit on depth: it runs a routine one level deeper, if
there is time left. -/
def deeper (routine : Routine α) : Routine α := do
  modify Parser.raise
  if ← isExpired then throw ⟨.deadlineExceeded, (← peek).position⟩
  else thenLower routine

/-- Model of `Parser::nested`: runs a routine one level deeper, if that is not too deep and there is
time left. -/
def nested (production : String) (routine : Routine α) : Routine α := do
  match (← get).levels with
  | 0 => refuse production
  | _ + 1 => deeper routine

/-- Runs a routine that depends on the number of levels that may still be opened. -/
def withLevels (routine : Nat → Routine α) : Routine α := do
  routine (← get).levels

/-! ## Repetition -/

/-- Reads items for as long as the next token calls for one. At most one item is read for each
token of `turns`; `items` holds the items so far, the latest first. -/
def repeatFor (more : Token → Bool) (item : Routine α) (items : List α) :
    (turns : List Token) → Routine (List α)
  | [] => pure items.reverse
  | _ :: turns => do
    if more (← peek) then repeatFor more item ((← item) :: items) turns
    else pure items.reverse

/-- Reads items for as long as the next token calls for one. Each item takes at least one of the
tokens to come, and none can start at the end token, so the turns last. -/
def repeatWhile (more : Token → Bool) (item : Routine α) : Routine (List α) := do
  let stream := (← get).stream
  repeatFor more item [] (stream.final :: stream.upcoming)

end Routine

end FrappeSyntax
