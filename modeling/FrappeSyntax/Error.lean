import FrappeSyntax.Text.Quoted
import FrappeSyntax.Token

/-!
# Errors

An error has a cause and a position. The wording of messages, and the tip that goes with them, is
decided here alone; `FrappeSyntax.Error.Report` shows an error beside its source. These are the
types `Error` and `ErrorImpl` of `frappe::errors::errors`, and the checks of
`frappe::parser::checks`.

A production appears in a cause by its name: a caller of the parser may name one of its own.
-/

namespace FrappeSyntax

/-- Model of `ErrorImpl`: what can be wrong with a source. -/
inductive Cause
  /-- No word of the language starts with this character. -/
  | unrecognisedToken (text : String)
  /-- A word of another kind stands where one of kind `expected` has to be. -/
  | unexpectedKind (production : String) (expected : Kind) (found : Word)
  /-- Another word stands where the word `expected` has to be. -/
  | unexpectedText (production : String) (expected : Word) (found : Word)
  /-- A word that starts none of the alternatives of a production. -/
  | unexpectedAlternative (production : String) (expected : String) (found : Word)
  /-- Statements, blocks and expressions are nested too deep. -/
  | recursionLimitExceeded (limit : Nat)
  /-- The time for parsing is over. -/
  | deadlineExceeded
deriving DecidableEq

namespace Cause

/-- Model of `Error::get_error_name`: the name of a kind of error. -/
def name : Cause → String
  | unrecognisedToken .. => "UnrecognisedToken"
  | unexpectedKind .. => "UnexpectedTokenKind"
  | unexpectedText .. => "UnexpectedTokenText"
  | unexpectedAlternative .. => "UnexpectedAlternative"
  | recursionLimitExceeded .. => "RecursionLimitExceeded"
  | deadlineExceeded => "DeadlineExceeded"

/-- A word found instead of another, and the production that asked for the other. -/
private def foundIn (found : Word) (production : String) : String :=
  ", found `" ++ found.kind.tag ++ "` `" ++ found.text ++ "` in <" ++ production ++ ">"

/-- What happened, in a sentence: the text that an `ErrorImpl` is displayed as. -/
def detail : Cause → String
  | unrecognisedToken text => "unrecognised token: " ++ Text.quoted text
  | unexpectedKind production expected found =>
    "expected `" ++ expected.tag ++ "`" ++ foundIn found production
  | unexpectedText production expected found =>
    "expected `" ++ expected.kind.tag ++ "` with text `" ++ expected.text ++ "`" ++
      foundIn found production
  | unexpectedAlternative production expected found =>
    "expected " ++ expected ++ foundIn found production
  | recursionLimitExceeded limit => "recursion limit of " ++ toString limit ++ " exceeded"
  | deadlineExceeded => "parse deadline exceeded"

/-- Model of `Error::get_tip`: a hint at what is wanted instead. -/
def tip : Cause → Option String
  | unrecognisedToken _ => none
  | unexpectedKind production expected found =>
    some ("Expected a `" ++ expected.tag ++ "` while parsing <" ++ production ++ ">, found " ++
      found.display)
  | unexpectedText _ expected found =>
    some ("Expected `" ++ expected.text ++ "` here, found `" ++ found.text ++ "`")
  | unexpectedAlternative production expected _ =>
    some ("A <" ++ production ++ "> must start with " ++ expected)
  | recursionLimitExceeded limit =>
    some ("Nesting is deeper than the limit of " ++ toString limit)
  | deadlineExceeded => none

end Cause

/-- Model of `Error`: its cause, and the place it is about. -/
structure Error where
  cause : Cause
  position : Position
deriving DecidableEq

namespace Error

/-- The text that an `Error` is displayed as: what happened, and where, on one line. -/
def message (error : Error) : String :=
  error.cause.detail ++ " at " ++ error.position.file ++ ":" ++ toString error.position.offset

/-- Model of `Error::unexpected_kind`: the token `found` is not of the kind that `production`
expects. -/
def unexpectedKind (production : String) (expected : Kind) (found : Token) : Error :=
  ⟨.unexpectedKind production expected found.toWord, found.position⟩

/-- Model of `Error::unexpected_text`: the token `found` is not the word that `production`
expects. -/
def unexpectedText (production : String) (expected : Word) (found : Token) : Error :=
  ⟨.unexpectedText production expected found.toWord, found.position⟩

/-- Model of `Error::unexpected_alternative`: the token `found` starts no alternative of
`production`; `expected` lists those there are. -/
def unexpectedAlternative (production expected : String) (found : Token) : Error :=
  ⟨.unexpectedAlternative production expected found.toWord, found.position⟩

end Error

namespace Token

/-- Model of `expect_kind`: passes a token of kind `expected`, on behalf of `production`. -/
def expectKind (token : Token) (expected : Kind) (production : String) : Except Error Token :=
  if token.isKind expected then .ok token else .error (.unexpectedKind production expected token)

/-- Model of `expect_kind_and_text`: passes a token that is the word `expected`, on behalf of
`production`. -/
def expectWord (token : Token) (expected : Word) (production : String) : Except Error Token :=
  if token.toWord = expected then .ok token
  else .error (.unexpectedText production expected token)

end Token

end FrappeSyntax
