import FrappeSyntax.Position
import FrappeSyntax.Text.Bytes

/-!
# Cursors

A cursor marks a byte offset in a source and moves forward only, be it into a character or past the
end. It is the `Lexer` of `frappe::lexer::lexer` without the tokens that it gathers.
-/

namespace FrappeSyntax

/-- Model of `Lexer`: a byte offset in a source. -/
structure Cursor where
  source : String
  file : String
  offset : Nat
deriving DecidableEq

namespace Cursor

/-- Model of `Lexer::new`: the cursor at the start of a source. -/
def start (source file : String) : Cursor := ⟨source, file, 0⟩

/-- Model of `Lexer::advance_n`: moves a cursor forward by `n` bytes. -/
def advance (cursor : Cursor) (n : Nat) : Cursor :=
  { cursor with offset := cursor.offset + n }

/-- Model of `Lexer::remainder`: what lies ahead of a cursor. This is nothing that could be told
where it points into a character or past the end. -/
def remainder? (cursor : Cursor) : Option String :=
  (Text.dropBytes? cursor.offset cursor.source.toList).map String.ofList

/-- Model of `Lexer::at_eof`: holds for a cursor at or past the end. -/
def isAtEnd (cursor : Cursor) : Bool :=
  Text.byteSize cursor.source.toList ≤ cursor.offset

/-- Model of `Lexer::span`: the span between two byte offsets of a cursor's file. -/
def span (cursor : Cursor) (start stop : Nat) : Span :=
  .within cursor.file start stop

end Cursor

end FrappeSyntax
