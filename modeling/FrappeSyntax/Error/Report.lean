import FrappeSyntax.Error
import FrappeSyntax.Text.Blank
import FrappeSyntax.Text.Line

/-!
# Error reports

A report names an error and its file, and shows the line of the source with a mark under the
place. The mark is set by characters, although positions count bytes; blanks before the line's
text are left out. An error outside all lines, such as one at the end of the source, is shown with
its detail instead of a line. This is `format_error` of `frappe`.

`format_error` fills its rows to a width, and a width has 16 bits. So the rows of this module are
its rows only where each width is below `2 ^ 16`: the column of the mark has to be below 65535, and
the number of the line to have fewer than 65534 digits.
-/

namespace FrappeSyntax.Error

open Text (LinePlace)

/-- Puts a text at the right end of at least `width` columns, and fills the others. Here `width` is
any number; `format_error` cannot fill to one of `2 ^ 16` or more. -/
def alignRight (fill : Char) (width : Nat) (text : List Char) : List Char :=
  List.replicate (width - text.length) fill ++ text

/-- The blanks before the text of a place's line, in bytes: the number that
`remove_starting_whitespace` returns. -/
def indent (place : LinePlace) : Nat :=
  Text.byteSize (place.text.takeWhile Text.isBlank)

/-- The characters between the start of the line's text and the place. There are none where the
place lies among the blanks before the text, or inside a character. -/
def marked (place : LinePlace) : Nat :=
  ((Text.sliceBytes? (indent place) place.column place.text).map List.length).getD 0

/-- The three rows that show a place: a margin, the line with its number, and the mark. They are
what `format_error` writes where `marked place + 1` is below `2 ^ 16`. -/
def snippet (place : LinePlace) : List (List Char) :=
  let number := (toString place.number).toList
  let margin := alignRight ' ' (number.length + 2) ['|']
  [margin,
    number ++ [' ', '|', ' '] ++ Text.trimEnd (Text.trimStart place.text),
    margin ++ [' '] ++ alignRight '-' (marked place + 1) ['^']]

/-- What a report says about an error before it shows the place. -/
def heading (error : Error) : String :=
  match error.cause.tip with
  | none => "Error: " ++ error.cause.name
  | some tip => "Error: " ++ error.cause.name ++ " (" ++ tip ++ ")"

/-- The rows of a report on an error in `source`, which was read from `file`. -/
def reportRows (error : Error) (source file : String) : List String :=
  error.heading :: ("-> " ++ file) ::
    match Text.lineAt? source.toList error.position.offset with
    | none => ["   " ++ error.cause.detail]
    | some place => (snippet place).map String.ofList

/-- Model of `format_error`: a report on an error in `source`, which was read from `file`. -/
def report (error : Error) (source file : String) : String :=
  String.join ((error.reportRows source file).map (· ++ "\n"))

end FrappeSyntax.Error
