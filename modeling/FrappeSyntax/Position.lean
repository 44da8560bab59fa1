/-!
# Positions

A place in a source file is a byte offset and the file's name; a span runs from one place to
another. They are the `Position` and the `Span` of `frappe`.
-/

namespace FrappeSyntax

/-- Model of `Position`: a byte offset in a named file. -/
structure Position where
  offset : Nat
  file : String
deriving DecidableEq

/-- Model of `Position::null`: the position of what was never read from a file. -/
def Position.null : Position := ⟨0, "<null>"⟩

/-- Model of `Span`: the stretch of a file from `start` up to, not including, `stop`. -/
structure Span where
  start : Position
  stop : Position
deriving DecidableEq

/-- The span between two byte offsets of one file, as `Lexer::span` makes it. -/
def Span.within (file : String) (start stop : Nat) : Span :=
  ⟨⟨start, file⟩, ⟨stop, file⟩⟩

end FrappeSyntax
