import FrappeSyntax.Error
import FrappeSyntax.Text.Bytes
import FrappeSyntax.Token.Lexeme

/-!
# Scanning

A source is cut into lexemes from left to right. Each word becomes a token with the bytes that it
covers, and the end of the source becomes a last token of kind `eof`. Where no lexeme starts,
scanning ends with an error about the character there. This is `tokenize` of `frappe::lexer::lexer`.
-/

namespace FrappeSyntax

/-- The token of a lexeme that starts at a byte offset; blanks and comments give none. -/
def Lexeme.tokens (lexeme : Lexeme) (file : String) (offset : Nat) : List Token :=
  match lexeme.word with
  | none => []
  | some word => [⟨word, Span.within file offset (offset + Text.byteSize lexeme.text)⟩]

/-- The loop of `tokenize`: scans the rest of a source, which starts at a byte offset. `covered`
counts the characters that still belong to the lexeme before; `done` holds the tokens so far, the
latest first. -/
def scanFrom (file : String) (offset covered : Nat) (done : List Token) :
    List Char → Except Error (List Token)
  | [] => .ok (Token.endAt ⟨offset, file⟩ :: done).reverse
  | c :: cs =>
    match covered with
    | rest + 1 => scanFrom file (offset + c.utf8Size) rest done cs
    | 0 =>
      match Lexeme.first? (c :: cs) with
      | none => .error ⟨.unrecognisedToken (String.singleton c), ⟨offset, file⟩⟩
      | some lexeme =>
        scanFrom file (offset + c.utf8Size) (lexeme.text.length - 1)
          (lexeme.tokens file offset ++ done) cs

/-- Model of `tokenize`: the tokens of a source, which was read from `file`. -/
def tokenize (source file : String) : Except Error (List Token) :=
  scanFrom file 0 0 [] source.toList

end FrappeSyntax
