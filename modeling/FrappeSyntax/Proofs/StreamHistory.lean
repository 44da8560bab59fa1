import FrappeSyntax.Proofs.Sequence

/-!
# The history of a stream

Whoever remembers what was done with a stream knows what it will yield: the tokens that were handed
back and not taken again, the latest first, then the tokens of the list that were never drawn, and
then one end token over and over. The history of a stream is what has to be remembered for this.

* `TokenStream.yields`: what is got by taking token after token.
* `TokenStream.History`: the tokens that wait, and how many were drawn.
* `TokenStream.Represents.after`: a stream is as its history tells, whatever the moves were.
* `TokenStream.accords_after`: what a stream yields, what its operations do to this, and what it
  says of itself.
-/

namespace FrappeSyntax.TokenStream

/-! ## Taking token after token -/

/-- The tokens that are got if `next` is called over and over. -/
def yields (stream : TokenStream) : Stream' Token :=
  Stream'.corec (fun stream => stream.next.1) (fun stream => stream.next.2) stream

theorem yields_eq (stream : TokenStream) :
    stream.yields = [stream.next.1] ++ₛ stream.next.2.yields :=
  Stream'.corec_eq _ _ stream

/-- What is got by taking token after token is the sequence that the stream stands for. -/
theorem yields_eq_sequence (stream : TokenStream) : stream.yields = stream.sequence := by
  apply Stream'.ext
  intro n
  induction n generalizing stream with
  | zero =>
    rw [yields_eq, sequence_eq]
    rfl
  | succ n ih =>
    rw [yields_eq, sequence_eq]
    exact ih stream.next.2

/-- If nothing is left, a stream yields its end token only. -/
theorem sequence_of_isDrained {stream : TokenStream} (h : stream.isDrained = true) :
    stream.sequence = Stream'.const stream.final := by
  unfold isDrained at h
  rw [Bool.and_eq_true, List.isEmpty_iff, List.isEmpty_iff] at h
  simp [sequence, upcoming, h.1, h.2]

/-! ## The end token -/

/-- The end token that follows a list of tokens of a file: the last of the list if this is an end
token, else one where the last token stops, and at the start of the file if there is none. -/
inductive IsEndOf (file : String) : List Token → Token → Prop
  | own (front : List Token) {last : Token} : last.kind = .eof → IsEndOf file (front ++ [last]) last
  | added (front : List Token) {last : Token} : last.kind ≠ .eof →
    IsEndOf file (front ++ [last]) ⟨⟨.eof, "EOF"⟩, ⟨last.span.stop, last.span.stop⟩⟩
  | alone : IsEndOf file [] ⟨⟨.eof, "EOF"⟩, ⟨⟨0, file⟩, ⟨0, file⟩⟩⟩

theorem isEndOf_finalOf (tokens : List Token) (file : String) :
    IsEndOf file tokens (finalOf tokens file) := by
  unfold finalOf
  rcases List.eq_nil_or_concat tokens with rfl | ⟨front, last, rfl⟩
  · exact .alone
  · rw [List.concat_eq_append, List.getLast?_concat]
    show IsEndOf file _ (if last.kind = .eof then last else Token.endAt last.span.stop)
    by_cases h : last.kind = .eof
    · rw [if_pos h]
      exact .own front h
    · rw [if_neg h]
      exact .added front h

/-! ## Moves -/

/-- What can be done with a stream. -/
inductive Move
  /-- Takes the next token. -/
  | next
  /-- Hands any token back. -/
  | pushBack (token : Token)

/-- The stream after a move. -/
def Move.apply (stream : TokenStream) : Move → TokenStream
  | next => stream.next.2
  | pushBack token => stream.pushBack token

/-- The stream after moves, one after the other. -/
def after (stream : TokenStream) (moves : List Move) : TokenStream :=
  moves.foldl Move.apply stream

theorem after_append (stream : TokenStream) (moves more : List Move) :
    stream.after (moves ++ more) = (stream.after moves).after more :=
  List.foldl_append

/-- Each token that is taken is one less to come. -/
theorem sequence_after_next (stream : TokenStream) (k : Nat) :
    (stream.after (List.replicate k .next)).sequence = Stream'.drop k stream.sequence := by
  induction k generalizing stream with
  | zero => rfl
  | succ k ih =>
    rw [List.replicate_succ, stream.sequence_eq]
    show (stream.next.2.after (List.replicate k .next)).sequence = _
    rw [ih]
    rfl

/-- The tokens that are handed back come out in the opposite order. -/
theorem sequence_after_pushBack (stream : TokenStream) (tokens : List Token) :
    (stream.after (tokens.map .pushBack)).sequence = tokens.reverse ++ₛ stream.sequence := by
  rw [← sequence_foldr_pushBack, List.foldr_reverse, after, List.foldl_map]
  rfl

/-- Tokens that are taken and then handed back, the last of them first, are to come again. -/
theorem sequence_after_reread (stream : TokenStream) (k : Nat) :
    (stream.after (List.replicate k .next ++
      (stream.sequence.take k).reverse.map .pushBack)).sequence = stream.sequence := by
  rw [after_append, sequence_after_pushBack, sequence_after_next, List.reverse_reverse,
    Stream'.append_take_drop]

/-! ## Histories -/

/-- What is remembered of the moves on a stream. -/
structure History where
  /-- The tokens handed back and not taken again, the latest first. -/
  waiting : List Token
  /-- How often a token was taken while none was waiting. -/
  drawn : Nat

namespace History

/-- Nothing was done yet. -/
def start : History := ⟨[], 0⟩

/-- The history with one move more. A waiting token is taken before any other. -/
def extend (history : History) : Move → History
  | .next =>
    match history.waiting with
    | [] => { history with drawn := history.drawn + 1 }
    | _ :: waiting => { history with waiting }
  | .pushBack token => { history with waiting := token :: history.waiting }

/-- The history of moves on a stream that was just made. -/
def ofMoves (moves : List Move) : History := moves.foldl extend start

end History

/-- A stream over a list of tokens of a file has the history for its state. -/
structure Represents (tokens : List Token) (file : String) (history : History)
    (stream : TokenStream) : Prop where
  pushed_eq : stream.pushed = history.waiting
  ahead_eq : stream.ahead = tokens.drop history.drawn
  final_eq : stream.final = finalOf tokens file

namespace Represents

variable {tokens : List Token} {file : String} {history : History} {stream : TokenStream}

theorem ofTokens (tokens : List Token) (file : String) :
    Represents tokens file .start (ofTokens tokens file) :=
  ⟨rfl, rfl, rfl⟩

theorem next (h : Represents tokens file history stream) :
    Represents tokens file (history.extend .next) stream.next.2 := by
  obtain ⟨pushed, ahead, final, most, hkind⟩ := stream
  obtain ⟨waiting, drawn⟩ := history
  obtain ⟨hpushed, hahead, hfinal⟩ := h
  dsimp only at hpushed hahead hfinal
  subst hpushed
  cases pushed with
  | cons token pushed => exact ⟨rfl, hahead, hfinal⟩
  | nil =>
    -- one token of the list less, unless none was left
    have htail : ahead.tail = tokens.drop (drawn + 1) := by rw [hahead, List.tail_drop]
    cases ahead with
    | nil => exact ⟨rfl, htail, hfinal⟩
    | cons token ahead => exact ⟨rfl, htail, hfinal⟩

theorem pushBack (h : Represents tokens file history stream) (token : Token) :
    Represents tokens file (history.extend (.pushBack token)) (stream.pushBack token) :=
  ⟨congrArg (token :: ·) h.pushed_eq, h.ahead_eq, h.final_eq⟩

/-- Each move does to the stream what it does to the history. -/
theorem apply (h : Represents tokens file history stream) (move : Move) :
    Represents tokens file (history.extend move) (move.apply stream) := by
  cases move with
  | next => exact h.next
  | pushBack token => exact h.pushBack token

/-- And so do moves, one after the other. -/
theorem after (h : Represents tokens file history stream) (moves : List Move) :
    Represents tokens file (moves.foldl History.extend history) (stream.after moves) := by
  induction moves generalizing history stream with
  | nil => exact h
  | cons move moves ih => exact ih (h.apply move)

theorem sequence_eq (h : Represents tokens file history stream) :
    stream.sequence =
      history.waiting ++ₛ (tokens.drop history.drawn ++ₛ Stream'.const (finalOf tokens file)) := by
  rw [TokenStream.sequence, upcoming, h.pushed_eq, h.ahead_eq, h.final_eq,
    Stream'.append_append_stream]

theorem pending_eq (h : Represents tokens file history stream) :
    stream.pending = history.waiting.length :=
  congrArg List.length h.pushed_eq

theorem isDrained_iff (h : Represents tokens file history stream) :
    stream.isDrained = true ↔ stream.pending = 0 ∧ tokens.length ≤ history.drawn := by
  rw [isDrained, Bool.and_eq_true, List.isEmpty_iff, List.isEmpty_iff, h.ahead_eq,
    List.drop_eq_nil_iff, pending, List.length_eq_zero_iff]

end Represents

/-! ## What the history tells -/

/-- A stream over a list of tokens of a file is as its history tells. -/
structure Accords (tokens : List Token) (file : String) (history : History)
    (stream : TokenStream) : Prop where
  /-- The waiting tokens come first, then those of the list that were not drawn, then the end. -/
  yields_eq : ∃ final, IsEndOf file tokens final ∧
    stream.yields = history.waiting ++ₛ (tokens.drop history.drawn ++ₛ Stream'.const final)
  /-- Taking a token gives the first of those to come, and leaves the others. -/
  yields_next : stream.yields = [stream.next.1] ++ₛ stream.next.2.yields
  /-- A token that is handed back comes before those to come. -/
  yields_pushBack : ∀ token, (stream.pushBack token).yields = [token] ++ₛ stream.yields
  pending_eq : stream.pending = history.waiting.length
  isDrained_iff : stream.isDrained = true ↔ stream.pending = 0 ∧ tokens.length ≤ history.drawn
  /-- Only end tokens are to come if nothing is left. -/
  kind_of_isDrained : stream.isDrained = true → ∀ n, (stream.yields.get n).kind = .eof
  /-- Taking any number of tokens, and handing them back with the last of them first, changes
  nothing of what is to come. -/
  yields_reread : ∀ k, (stream.after (List.replicate k .next ++
    (stream.yields.take k).reverse.map .pushBack)).yields = stream.yields

/-- After any moves, a stream is as the history of these moves tells. -/
theorem accords_after (tokens : List Token) (file : String) (moves : List Move) :
    Accords tokens file (.ofMoves moves) ((ofTokens tokens file).after moves) := by
  have h := (Represents.ofTokens tokens file).after moves
  refine ⟨⟨_, isEndOf_finalOf tokens file, ?_⟩, yields_eq _, fun token => ?_, h.pending_eq,
    h.isDrained_iff, fun hdrained n => ?_, fun k => ?_⟩
  · rw [yields_eq_sequence]
    exact h.sequence_eq
  · rw [yields_eq_sequence, yields_eq_sequence, sequence_pushBack]
  · rw [yields_eq_sequence, sequence_of_isDrained hdrained, Stream'.get_const]
    exact final_kind _
  · rw [yields_eq_sequence, yields_eq_sequence, sequence_after_reread]

/-- The end token is drawn, drawn once more, and handed back: it is waiting, then comes again. -/
example :
    let final := Token.endAt ⟨3, "a"⟩
    let stream := (ofTokens [final] "a").after [.next, .next, .pushBack final]
    stream.pending = 1 ∧ stream.isDrained = false ∧ stream.next.2.isDrained = true := by
  decide

end FrappeSyntax.TokenStream
