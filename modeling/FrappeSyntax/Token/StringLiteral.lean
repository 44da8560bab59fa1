/-!
# String literals

The text between the quotes of a string literal is a sequence of units: a plain character, or a
backslash with the character after it. A quote or backslash is no plain character, and a line feed
is never escaped. `body?` finds where a literal ends, as the pattern for strings among the
`PATTERNS` of `frappe::lexer::lexer` does; `decode` gives the text that it stands for, as
`string_handler` does; `encode` writes a text so that it can be read back.

* `body?_encode`, `decode_encode`: an encoded text is read whole, and gives the text again.
-/

namespace FrappeSyntax.StringLiteral

/-- The text up to the quote that closes the literal, given what follows its opening quote. There is
none if no unescaped quote comes before the end, an escaped line feed, or a lone last backslash. -/
def body? : List Char → Option (List Char)
  | [] => none
  | '"' :: _ => some []
  | ['\\'] => none
  | '\\' :: c :: cs => if c = '\n' then none else (body? cs).map fun body => '\\' :: c :: body
  | c :: cs => (body? cs).map (c :: ·)

/-- The character that a backslash and `c` stand for together; other pairs stand for themselves. -/
def escaped? : Char → Option Char
  | 'n' => some '\n'
  | 't' => some '\t'
  | 'r' => some '\r'
  | '\\' => some '\\'
  | '"' => some '"'
  | _ => none

/-- The loop of `string_handler`: the text that a literal's body stands for. -/
def decode : List Char → List Char
  | [] => []
  | ['\\'] => ['\\']
  | '\\' :: c :: cs =>
    match escaped? c with
    | some meant => meant :: decode cs
    | none => '\\' :: c :: decode cs
  | c :: cs => c :: decode cs

/-- A body that stands for a text: each quote and each backslash gets a backslash. -/
def encode : List Char → List Char
  | [] => []
  | c :: cs => if c = '"' ∨ c = '\\' then '\\' :: c :: encode cs else c :: encode cs

theorem body?_encode (text rest : List Char) :
    body? (encode text ++ '"' :: rest) = some (encode text) := by
  induction text with
  | nil => simp [encode, body?]
  | cons c cs ih =>
    by_cases h : c = '"' ∨ c = '\\'
    · rcases h with rfl | rfl <;> simp [encode, body?, ih]
    · obtain ⟨hq, hb⟩ := not_or.mp h
      rw [encode, if_neg h, List.cons_append, body?] <;> simp_all

theorem decode_encode (text : List Char) : decode (encode text) = text := by
  induction text with
  | nil => rfl
  | cons c cs ih =>
    by_cases h : c = '"' ∨ c = '\\'
    · rcases h with rfl | rfl <;> simp [encode, decode, escaped?, ih]
    · obtain ⟨hq, hb⟩ := not_or.mp h
      rw [encode, if_neg h, decode] <;> simp_all

end FrappeSyntax.StringLiteral
