import FrappeSyntax.Text.Blank
import FrappeSyntax.Token
import FrappeSyntax.Token.StringLiteral

/-!
# Lexemes

A source is a sequence of lexemes: stretches of text that are a word, or blanks, or a comment. The
next lexeme is the longest that the text starts with; its first character tells which class it is
of. The classes are those of the thirteen `PATTERNS` of `frappe::lexer::lexer`, one for each mark of
punctuation; the function that is named beside a class handles it.

* identifiers: an ASCII letter or `_`, then ASCII letters, digits and `_`; some are keywords, the
  others are class names if they start with an upper-case letter, and names if not
  (`symbol_handler`)
* numbers: ASCII digits, and a fraction if `.` and a digit follow (`number_handler`)
* blanks, and comments from `//` to the end of the line (`skip_handler`)
* string literals in double quotes (`string_handler`)
* the eight characters of punctuation (`MK_DEFAULT_HANDLER`)
-/

namespace FrappeSyntax

/-- A stretch of source. -/
structure Lexeme where
  /-- The characters that it covers. -/
  text : List Char
  /-- The word that it is, if it is not skipped. -/
  word : Option Word
deriving DecidableEq

namespace Lexeme

/-- Holds for the characters that an identifier may start with. -/
def isNameStart (c : Char) : Bool := c.isAlpha || c == '_'

/-- Holds for the characters of an identifier. -/
def isNameChar (c : Char) : Bool := c.isAlphanum || c == '_'

/-- Model of `RESERVED_LOOKUP`: the identifiers that are keywords. -/
def keywords : List (String × Kind) :=
  [("class", .classWord), ("static", .staticWord), ("while", .whileWord), ("if", .ifWord),
    ("return", .returnWord), ("new", .newWord), ("null", .null), ("true", .true),
    ("false", .false), ("this", .this)]

/-- The kind that `symbol_handler` gives an identifier. -/
def identifierKind (text : List Char) : Kind :=
  match keywords.lookup (String.ofList text) with
  | some kind => kind
  | none => if text.head?.any Char.isUpper then .className else .name

/-- The fraction that continues a number: a point and at least one digit. -/
def fraction : List Char → List Char
  | '.' :: d :: cs => if d.isDigit then '.' :: d :: cs.takeWhile Char.isDigit else []
  | _ => []

/-- The digits at the start of a text, with a fraction if one follows. -/
def numeral (cs : List Char) : List Char :=
  cs.takeWhile Char.isDigit ++ fraction (cs.dropWhile Char.isDigit)

/-- The characters that are words of punctuation. -/
def punctuation : List Char := ['\x7b', '\x7d', '(', ')', ',', '.', '=', ';']

/-- A lexeme that is the word spelled as its text. -/
def spelled (kind : Kind) (text : List Char) : Lexeme :=
  ⟨text, some ⟨kind, String.ofList text⟩⟩

/-- A lexeme without a word. -/
def skipped (text : List Char) : Lexeme := ⟨text, none⟩

/-- The string literal with a given body. -/
def literal (body : List Char) : Lexeme :=
  ⟨'"' :: body ++ ['"'], some ⟨.string, String.ofList (StringLiteral.decode body)⟩⟩

/-- The comment that starts with one slash before `cs`, if another slash follows. -/
def comment? : List Char → Option Lexeme
  | '/' :: cs => some (skipped ('/' :: '/' :: cs.takeWhile (· != '\n')))
  | _ => none

/-- The lexeme that a text starts with: the match of the first of the `PATTERNS` that matches. There
is none at the end of the text, at a character that starts no lexeme, and at the quote of a string
literal that is not closed. -/
def first? : List Char → Option Lexeme
  | [] => none
  | c :: cs =>
    if isNameStart c then
      let text := c :: cs.takeWhile isNameChar
      some (spelled (identifierKind text) text)
    else if c.isDigit then some (spelled .number (numeral (c :: cs)))
    else if Text.isBlank c then some (skipped (c :: cs.takeWhile Text.isBlank))
    else if c = '"' then (StringLiteral.body? cs).map literal
    else if c = '/' then comment? cs
    else if c ∈ punctuation then some (spelled .single [c])
    else none

end Lexeme

end FrappeSyntax
