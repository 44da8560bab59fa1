import FrappeSyntax.Text.Bytes

/-!
# Lines and places in them

A line runs up to and including its line feed. `lineAt?` finds the line that holds a byte offset;
an offset at or past the end of the text lies in no line.

* `flatten_lines`: the lines of a text make up the text.
-/

namespace FrappeSyntax.Text

/-- A text cut after each of its line feeds; the last line may lack one, but no line is empty. -/
def lines : List Char → List (List Char)
  | [] => []
  | c :: cs =>
    if c = '\n' then [c] :: lines cs
    else
      match lines cs with
      | [] => [[c]]
      | line :: rest => (c :: line) :: rest

/-- A place in a text, seen from the line that holds it. -/
structure LinePlace where
  /-- The line's number; the first line is 1. -/
  number : Nat
  /-- The line, with its line feed if it has one. -/
  text : List Char
  /-- The byte offset of the place within the line. -/
  column : Nat
deriving DecidableEq

/-- The loop of `get_line_at_position`: finds the line that holds the byte `offset` among lines
counted from `number`. -/
def placeIn? (number offset : Nat) : List (List Char) → Option LinePlace
  | [] => none
  | line :: rest =>
    if offset < byteSize line then some ⟨number, line, offset⟩
    else placeIn? (number + 1) (offset - byteSize line) rest

/-- Model of `get_line_at_position`: the line of `cs` that holds the byte `offset`. -/
def lineAt? (cs : List Char) (offset : Nat) : Option LinePlace :=
  placeIn? 1 offset (lines cs)

theorem flatten_lines (cs : List Char) : (lines cs).flatten = cs := by
  induction cs with
  | nil => rfl
  | cons c cs ih =>
    rw [lines]
    split
    · simp [ih]
    · split <;> simp_all

end FrappeSyntax.Text
