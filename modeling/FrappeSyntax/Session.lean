import FrappeSyntax.Fragment

/-!
# Sessions

A session works on a parser step by step: it takes tokens and hands them back, checks them, and
parses productions. It goes on after an error. The tokens that single steps took are held, so that
they can be handed back, the latest first. Steps can also be run one level deeper, together.
-/

namespace FrappeSyntax

/-- A step of a session. -/
inductive Step
  /-- Takes a token and holds it. -/
  | next
  /-- Hands the held token back that was taken last. -/
  | unread
  /-- Looks at the next token. -/
  | peek
  /-- Hands any token back. -/
  | pushBack (token : Token)
  /-- Takes a token of a kind. -/
  | expect (kind : Kind) (production : String)
  /-- Takes a word of punctuation. -/
  | expectSingle (text production : String)
  /-- Parses a production. -/
  | parse (production : Production)
  /-- Parses a block. -/
  | parseBlock (production : String)
  /-- Runs steps one level deeper, which hold tokens of their own. -/
  | nested (production : String) (steps : List Step)

/-- What a step gives, with the state of the parser after it. -/
structure StepRecord (Outcome : Type) where
  outcome : Outcome
  depth : Nat
  pending : Nat
  drained : Bool
deriving DecidableEq

/-- What a step gives. -/
inductive StepOutcome
  | nothing
  | token (token : Token)
  | fragment (fragment : Option Fragment)
  | failure (error : Error)
  | steps (records : List (StepRecord StepOutcome))

namespace Step

/-- A step's result with the state of the parser. -/
def recorded (outcome : StepOutcome) (parser : Parser) : StepRecord StepOutcome :=
  ⟨outcome, parser.depth, parser.stream.pending, parser.stream.isDrained⟩

/-- Runs a routine as a step, which leaves the held tokens as they are. -/
def perform (routine : Routine α) (outcome : α → StepOutcome) (held : List Token)
    (parser : Parser) : StepOutcome × List Token × Parser :=
  match routine parser with
  | .ok result parser => (outcome result, held, parser)
  | .error error parser => (.failure error, held, parser)

mutual

/-- Runs a step: what it gives, the held tokens, and the parser. -/
def run (held : List Token) (parser : Parser) : Step → StepOutcome × List Token × Parser
  | next =>
    let (token, stream) := parser.stream.next
    (.token token, token :: held, { parser with stream })
  | unread =>
    match held with
    | [] => (.nothing, [], parser)
    | token :: held => perform (Routine.pushBack token) (fun _ => .token token) held parser
  | peek => perform Routine.peek .token held parser
  | pushBack token => perform (Routine.pushBack token) (fun _ => .nothing) held parser
  | expect kind production => perform (Routine.expect kind production) .token held parser
  | expectSingle text production =>
    perform (Routine.expectSingle text production) .token held parser
  | parse production => perform production.parse (.fragment ∘ some) held parser
  | parseBlock production => perform (Fragment.parseBlock production) .fragment held parser
  | nested production steps =>
    let inner : Routine (List (StepRecord StepOutcome)) := fun parser =>
      let (records, parser) := runAll [] parser steps
      .ok records parser
    perform (Routine.nested production inner) .steps held parser

/-- Runs steps one after the other: a record for each, and the parser. -/
def runAll (held : List Token) (parser : Parser) :
    List Step → List (StepRecord StepOutcome) × Parser
  | [] => ([], parser)
  | step :: steps =>
    let (outcome, held, parser) := run held parser step
    let (records, final) := runAll held parser steps
    (recorded outcome parser :: records, final)

end

end Step

end FrappeSyntax
