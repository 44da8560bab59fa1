import FrappeSyntax.Token

/-!
# Token streams

A stream hands out the tokens of a list one by one, and after the last of them the end token, over
and over. A token can be handed back at any time: the tokens handed back come out again before all
others, the latest first. This is the `TokenStream` of `frappe::lexer::stream`, which tells by an
index what it has drawn from its list; here the list loses what was drawn.

* `TokenStream.kind_finalOf`: what is yielded after the last token ends the source.
-/

namespace FrappeSyntax

/-- Model of `TokenStream`: a stream of tokens with a stack of tokens handed back. -/
structure TokenStream where
  /-- The tokens handed back and not taken again, the latest first. -/
  pushed : List Token
  /-- The tokens of the source that were not drawn yet. -/
  ahead : List Token
  /-- The token that the stream yields when nothing is left. -/
  final : Token
  /-- The most tokens that ever waited on the stack at once, which is counted here alone. -/
  mostPending : Nat
  /-- What the stream yields when nothing is left ends the source. -/
  final_kind : final.kind = .eof
deriving DecidableEq

namespace TokenStream

/-- Model of `TokenStream::eof`: the end token of a list. It is the last token if that is of kind
`eof`, else a new one where the last token stops, or at the start of `file` if there is no token. -/
def finalOf (tokens : List Token) (file : String) : Token :=
  match tokens.getLast? with
  | some last => if last.kind = .eof then last else Token.endAt last.span.stop
  | none => Token.endAt ⟨0, file⟩

theorem kind_finalOf (tokens : List Token) (file : String) :
    (finalOf tokens file).kind = .eof := by
  unfold finalOf
  cases tokens.getLast? with
  | none => rfl
  | some last =>
    dsimp only
    split
    · assumption
    · rfl

/-- Model of `TokenStream::new`: the stream over a list of tokens read from `file`. -/
def ofTokens (tokens : List Token) (file : String) : TokenStream :=
  ⟨[], tokens, finalOf tokens file, 0, kind_finalOf tokens file⟩

/-- Model of `TokenStream::pending`: the number of tokens handed back and not taken again. -/
def pending (stream : TokenStream) : Nat := stream.pushed.length

/-- Model of `TokenStream::is_drained`: holds when every token of the source was drawn and none
waits to be taken again. -/
def isDrained (stream : TokenStream) : Bool := stream.pushed.isEmpty && stream.ahead.isEmpty

/-- The tokens still to come, before the end token is repeated. -/
def upcoming (stream : TokenStream) : List Token := stream.pushed ++ stream.ahead

/-- Model of `TokenStream::next_token`: takes the next token. -/
def next (stream : TokenStream) : Token × TokenStream :=
  match stream.pushed, stream.ahead with
  | token :: rest, _ => (token, { stream with pushed := rest })
  | [], token :: rest => (token, { stream with ahead := rest })
  | [], [] => (stream.final, stream)

/-- Model of `TokenStream::push_back`: hands a token back. -/
def pushBack (stream : TokenStream) (token : Token) : TokenStream :=
  { stream with
    pushed := token :: stream.pushed
    mostPending := max stream.mostPending (stream.pushed.length + 1) }

end TokenStream

end FrappeSyntax
