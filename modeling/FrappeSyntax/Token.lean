import FrappeSyntax.Position

/-!
# Tokens

A source text is read as a sequence of words: keywords, literals, names, class names and single
characters of punctuation. A word has a kind and a text; a token is a word with the place where it
stands. These are the types `SymbolClass` and `Token` of `frappe::lexer::tokens`; a word is a token
without its span.

* `Word.isSingle_iff`: the test for a word of punctuation.
-/

namespace FrappeSyntax

/-- Model of `SymbolClass`: the kinds of words. -/
inductive Kind
  | classWord
  | staticWord
  | whileWord
  | ifWord
  | returnWord
  | newWord
  | string
  | number
  | null
  | true
  | false
  | this
  | name
  | className
  /-- One of the characters `{ } ( ) , . = ;`, which is the word's text. -/
  | single
  /-- The end of the source. -/
  | eof
deriving DecidableEq

namespace Kind

/-- Model of `SymbolClass::as_str`: the name by which messages call a kind. -/
def tag : Kind → String
  | classWord => "class"
  | staticWord => "static"
  | whileWord => "while"
  | ifWord => "if"
  | returnWord => "return"
  | newWord => "new"
  | string => "str"
  | number => "num"
  | null => "null"
  | true => "true"
  | false => "false"
  | this => "this"
  | name => "name"
  | className => "className"
  | single => "single"
  | eof => "eof"

/-- Every kind, once. -/
def all : List Kind :=
  [classWord, staticWord, whileWord, ifWord, returnWord, newWord, string, number, null, true,
    false, this, name, className, single, eof]

/-- The kind that a tag names. -/
def ofTag? (tag : String) : Option Kind :=
  all.find? fun kind => kind.tag == tag

end Kind

/-- A word of the language: the fields `kind` and `detail` of a `Token`. -/
structure Word where
  kind : Kind
  text : String
deriving DecidableEq

namespace Word

/-- The word for one character of punctuation. -/
def single (text : String) : Word := ⟨.single, text⟩

/-- Model of `Token::is_single`: holds for the punctuation that reads `text`. -/
def isSingle (word : Word) (text : String) : Bool :=
  word.kind == .single && word.text == text

/-- A word as messages show it, and a `Token` is displayed: its kind, and its text in back
quotes. -/
def display (word : Word) : String :=
  word.kind.tag ++ " `" ++ word.text ++ "`"

theorem isSingle_iff {word : Word} {text : String} :
    word.isSingle text = true ↔ word = Word.single text := by
  cases word
  simp [isSingle, single]

end Word

/-- Model of `Token`: a word and the span of source it was read from. -/
structure Token extends Word where
  span : Span
deriving DecidableEq

namespace Token

/-- The place where a token starts. -/
def position (token : Token) : Position := token.span.start

/-- The token that stands at the end of a source, at `position`. -/
def endAt (position : Position) : Token :=
  ⟨⟨.eof, "EOF"⟩, ⟨position, position⟩⟩

/-- Model of `Token::is_kind`: holds for a token of the given kind. -/
def isKind (token : Token) (kind : Kind) : Bool :=
  token.kind == kind

/-- Model of `Token::matches`: holds for a token of the given kind and text. -/
def reads (token : Token) (kind : Kind) (text : String) : Bool :=
  token.kind == kind && token.text == text

end Token

end FrappeSyntax
