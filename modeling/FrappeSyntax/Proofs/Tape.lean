import FrappeSyntax.Proofs.Acceptance

/-!
# Parsers on a tape

A stream that was just made has all its tokens before it, and the end token behind them: a tape. As
long as no other tokens are handed back than were taken, a parser is at a spot of this tape. How many
tokens it took, and how many of these wait to be taken again, tells where all its tokens are.

* `Spot.on`: the parser that is at a spot of a tape.
* `Spot.next_on`, `Spot.pushBack_on`, `Spot.peek_on`: single tokens, as moves on the tape.
* `Spot.sequence_on`: the tokens that a parser at a spot will read.
-/

namespace FrappeSyntax

/-- The end token that a list has already is the one that follows. -/
theorem TokenStream.finalOf_append_eof {final : Token} (h : final.kind = .eof) (front : List Token)
    (file : String) : finalOf (front ++ [final]) file = final := by
  rw [finalOf, List.getLast?_concat]
  exact if_pos h

/-- The tokens of a source, and the end token that follows them over and over. -/
structure Tape where
  tokens : List Token
  final : Token
  final_kind : final.kind = .eof

namespace Tape

/-- The tape of a stream over a list of tokens. -/
def ofTokens (tokens : List Token) (file : String) : Tape :=
  ⟨tokens, TokenStream.finalOf tokens file, TokenStream.kind_finalOf tokens file⟩

/-- The token with a given index. All indices after the last token of the source are those of the
end token. -/
def get (tape : Tape) (index : Nat) : Token := tape.tokens[index]?.getD tape.final

/-- A stream that was just made, with the tokens of a tape before it. -/
def stream (tape : Tape) : TokenStream := ⟨[], tape.tokens, tape.final, 0, tape.final_kind⟩

theorem stream_ofTokens (tokens : List Token) (file : String) :
    (ofTokens tokens file).stream = .ofTokens tokens file := rfl

/-- All the tokens of a tape, one after the other. -/
def sequence (tape : Tape) : Stream' Token := tape.tokens ++ₛ Stream'.const tape.final

theorem get_of_le {tape : Tape} {index : Nat} (h : tape.tokens.length ≤ index) :
    tape.get index = tape.final := by
  rw [get, List.getElem?_eq_none h, Option.getD_none]

theorem getElem_eq_get {tape : Tape} {index : Nat} (h : index < tape.tokens.length) :
    tape.tokens[index] = tape.get index := by
  rw [get, List.getElem?_eq_getElem h, Option.getD_some]

theorem getElem?_of_lt {tape : Tape} {index : Nat} (h : index < tape.tokens.length) :
    tape.tokens[index]? = some (tape.get index) := by
  rw [List.getElem?_eq_getElem h, getElem_eq_get h]

/-- If a list has an end token already, its tape has no other tokens. -/
theorem get_mem_of_eof {final : Token} (h : final.kind = .eof) (front : List Token) (file : String)
    (index : Nat) : (ofTokens (front ++ [final]) file).get index ∈ front ++ [final] := by
  let tape := ofTokens (front ++ [final]) file
  rcases Nat.lt_or_ge index tape.tokens.length with hlt | hge
  · exact List.mem_of_getElem? (getElem?_of_lt hlt)
  · have hfinal : tape.final = final := TokenStream.finalOf_append_eof h front file
    rw [get_of_le hge, hfinal]
    exact List.mem_append_right front List.mem_cons_self

theorem lt_of_kind_ne {tape : Tape} {index : Nat} (h : (tape.get index).kind ≠ .eof) :
    index < tape.tokens.length := by
  by_contra hge
  rw [get_of_le (Nat.le_of_not_lt hge)] at h
  exact h tape.final_kind

theorem get_of_drop_eq_cons {tape : Tape} {index : Nat} {token : Token} {rest : List Token}
    (h : tape.tokens.drop index = token :: rest) : tape.get index = token := by
  have hget : (tape.tokens.drop index)[0]? = some token := by rw [h]; rfl
  rw [List.getElem?_drop, Nat.add_zero] at hget
  rw [get, hget, Option.getD_some]

/-- A token of the source stands between those before it and those after it. -/
theorem tokens_eq_of_lt {tape : Tape} {index : Nat} (h : index < tape.tokens.length) :
    tape.tokens = tape.tokens.take index ++ tape.get index :: tape.tokens.drop (index + 1) := by
  rw [← getElem_eq_get h, List.getElem_cons_drop h, List.take_append_drop]

/-- The token with an index is one of the source, or the end token that follows the last of them. -/
theorem tokens_eq_or (tape : Tape) (index : Nat) :
    tape.tokens = tape.tokens.take index ++ tape.get index :: tape.tokens.drop (index + 1) ∨
      tape.tokens = tape.tokens.take index ∧ tape.get index = tape.final ∧
        tape.tokens.drop (index + 1) = [] := by
  rcases Nat.lt_or_ge index tape.tokens.length with hlt | hge
  · exact .inl (tokens_eq_of_lt hlt)
  · exact .inr ⟨(List.take_of_length_le hge).symm, get_of_le hge,
      List.drop_eq_nil_of_le (Nat.le_succ_of_le hge)⟩

/-- No token of the source is left after the one with an index. -/
theorem drop_succ_eq_nil_iff (tape : Tape) (index : Nat) :
    tape.tokens.drop (index + 1) = [] ↔
      tape.tokens = tape.tokens.take index ++ [tape.get index] ∨
        tape.tokens = tape.tokens.take index := by
  constructor
  · intro hnil
    rcases tape.tokens_eq_or index with h | ⟨h, -⟩
    · rw [hnil] at h
      exact .inl h
    · exact .inr h
  · rintro (h | h) <;> have hlength := congrArg List.length h
    · rw [List.length_append, List.length_take, List.length_singleton] at hlength
      exact List.drop_eq_nil_of_le (by omega)
    · rw [List.length_take] at hlength
      exact List.drop_eq_nil_of_le (by omega)

end Tape

/-- The state of a parser that is on a tape, but for the tape. -/
structure Spot where
  /-- The number of tokens taken, less those that wait to be taken again: the index of the token
  that comes next. -/
  index : Nat
  /-- The number of tokens that wait to be taken again. -/
  pending : Nat
  /-- The most tokens that ever waited at once. -/
  mostPending : Nat
  limits : Limits
  looks : Nat
  depth : Nat
  log : List Event

namespace Spot

/-- The parser that is at a spot of a tape. -/
def on (spot : Spot) (tape : Tape) : Parser where
  stream :=
    { pushed := (List.range' spot.index spot.pending).map tape.get
      ahead := tape.tokens.drop (spot.index + spot.pending)
      final := tape.final
      mostPending := spot.mostPending
      final_kind := tape.final_kind }
  limits := spot.limits
  looks := spot.looks
  depth := spot.depth
  log := spot.log

/-- The number of tokens that were drawn from the tape, whether they were handed back or not. -/
def drawn (spot : Spot) : Nat := spot.index + spot.pending

/-- The spot where a parse starts. -/
def start (limits : Limits) : Spot := ⟨0, 0, 0, limits, 0, 0, [.started]⟩

/-! ## Moves -/

/-- The spot after the next token was taken. -/
def taken (spot : Spot) : Spot :=
  { spot with index := spot.index + 1, pending := spot.pending - 1 }

/-- The spot after the token before it was handed back. -/
def handedBack (spot : Spot) : Spot :=
  { spot with
    index := spot.index - 1
    pending := spot.pending + 1
    mostPending := max spot.mostPending (spot.pending + 1) }

/-- The spot after a look at the next token. -/
def peeked (spot : Spot) : Spot :=
  { spot with
    pending := max spot.pending 1
    mostPending := max spot.mostPending (max spot.pending 1) }

/-- The spot after an event was logged. -/
def note (event : Event) (spot : Spot) : Spot := { spot with log := event :: spot.log }

/-- The spot after one level more was counted. -/
def raise (spot : Spot) : Spot := { spot with depth := spot.depth + 1 }

/-- The spot after one level less was counted. -/
def lower (spot : Spot) : Spot := { spot with depth := spot.depth - 1 }

/-- The spot after a level was opened. -/
def opened (spot : Spot) : Spot := { spot.raise with looks := spot.looks + 1 }

section

variable (spot : Spot) (tape : Tape)

theorem start_on (limits : Limits) : (start limits).on tape = .started tape.stream limits := rfl

@[simp] theorem lower_on : spot.lower.on tape = (spot.on tape).lower := rfl

theorem pending_on : (spot.on tape).stream.pending = spot.pending := by
  simp [TokenStream.pending, on]

/-- A stream is drained where no token waits, and the last of the source was drawn. -/
theorem isDrained_on : (spot.on tape).stream.isDrained = true ↔
    spot.pending = 0 ∧ tape.tokens.length ≤ spot.drawn := by
  simp [TokenStream.isDrained, on, drawn]

/-- The next token is the one with the index of the spot. -/
theorem stream_next_on :
    (spot.on tape).stream.next = (tape.get spot.index, (spot.taken.on tape).stream) := by
  obtain ⟨index, pending, most, limits, looks, depth, log⟩ := spot
  cases pending with
  | succ pending =>
    simp only [on, taken, List.range'_succ, List.map_cons, TokenStream.next, Nat.add_sub_cancel,
      Prod.mk.injEq, TokenStream.mk.injEq, true_and, and_true]
    congr 1
    omega
  | zero =>
    cases hdrop : tape.tokens.drop index with
    | nil =>
      have hlast := List.drop_eq_nil_iff.mp hdrop
      have hmore : tape.tokens.drop (index + 1) = [] := List.drop_eq_nil_of_le (by omega)
      simp [on, taken, TokenStream.next, hdrop, hmore, Tape.get_of_le hlast]
    | cons token rest =>
      have hmore : tape.tokens.drop (index + 1) = rest := by
        rw [← List.drop_drop, hdrop]
        rfl
      simp [on, taken, TokenStream.next, hdrop, hmore, Tape.get_of_drop_eq_cons hdrop]

theorem next_on :
    Routine.next (spot.on tape) = .ok (tape.get spot.index) (spot.taken.on tape) := by
  rw [Routine.next, stream_next_on]
  rfl

/-- The token before a spot is handed back. -/
theorem pushBack_on {index : Nat} (h : spot.index = index + 1) :
    Routine.pushBack (tape.get index) (spot.on tape) = .ok () (spot.handedBack.on tape) := by
  obtain ⟨index', pending, most, limits, looks, depth, log⟩ := spot
  obtain rfl : index' = index + 1 := h
  have hahead : index + 1 + pending = index + (pending + 1) := by omega
  simp [on, handedBack, Routine.pushBack, TokenStream.pushBack, List.range'_succ, hahead]

theorem peeked_on : (spot.on tape).peeked = spot.peeked.on tape := by
  have hback : Routine.pushBack (tape.get spot.index) (spot.taken.on tape) =
      .ok () (spot.taken.handedBack.on tape) := spot.taken.pushBack_on tape rfl
  have hspot : spot.taken.handedBack = spot.peeked := by
    obtain ⟨index, pending, most, limits, looks, depth, log⟩ := spot
    have hpending : pending - 1 + 1 = max pending 1 := by omega
    simp [taken, handedBack, peeked, hpending]
  rw [Parser.peeked, stream_next_on]
  rw [hspot] at hback
  exact (EStateM.Result.ok.inj hback).2

/-- A parser at a spot will read the tokens of the tape from the spot on. -/
theorem get_sequence_on (n : Nat) :
    (spot.on tape).sequence.get n = tape.get (spot.index + n) := by
  induction n generalizing spot with
  | zero =>
    rw [Parser.sequence, TokenStream.sequence_eq, stream_next_on]
    rfl
  | succ n ih =>
    rw [Parser.sequence, TokenStream.sequence_eq, stream_next_on]
    refine (ih spot.taken).trans (congrArg tape.get ?_)
    exact Nat.succ_add_eq_add_succ spot.index n

theorem head_sequence_on : (spot.on tape).sequence.head = tape.get spot.index :=
  spot.get_sequence_on tape 0

theorem sequence_on : (spot.on tape).sequence = Stream'.drop spot.index tape.sequence := by
  have hstart : tape.sequence = ((start {}).on tape).sequence := rfl
  refine Stream'.ext fun n => ?_
  rw [get_sequence_on, Stream'.get_drop, hstart, get_sequence_on]
  exact congrArg tape.get (Nat.zero_add _).symm

theorem expect_on_of_kind {kind : Kind} (production : String)
    (h : (tape.get spot.index).kind = kind) :
    Routine.expect kind production (spot.on tape) =
      .ok (tape.get spot.index) (spot.taken.on tape) := by
  rw [Routine.expect, Routine.bind_apply, next_on]
  simp only [Token.expectKind, Token.isKind, h, beq_self_eq_true, if_true]
  rfl

theorem expect_on_of_kind_ne {kind : Kind} (production : String)
    (h : (tape.get spot.index).kind ≠ kind) :
    Routine.expect kind production (spot.on tape) =
      .error (.unexpectedKind production kind (tape.get spot.index)) (spot.taken.on tape) := by
  rw [Routine.expect, Routine.bind_apply, next_on]
  simp only [Token.expectKind, Token.isKind, beq_eq_false_iff_ne.mpr h, Bool.false_eq_true, if_false]
  rfl

theorem peek_on :
    Routine.peek (spot.on tape) = .ok (tape.get spot.index) (spot.peeked.on tape) := by
  rw [Routine.peek_eq, head_sequence_on, peeked_on]

end

end Spot

end FrappeSyntax
