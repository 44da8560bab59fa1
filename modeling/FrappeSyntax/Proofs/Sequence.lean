import FrappeSyntax.Parser
import Mathlib.Data.Stream.Init

/-!
# The sequence that a stream will yield

However its tokens are divided between those handed back and those not drawn yet, a stream stands
for one endless sequence: the tokens to come, and then the end token over and over. Taking a token
removes the head of this sequence, handing one back puts it in front.

* `TokenStream.sequence_eq`, `TokenStream.sequence_pushBack`: the two operations on the sequence.
* `TokenStream.endsWithin`: the first end token is no further off than the tokens to come.
-/

namespace FrappeSyntax

/-! ## Sequences that end -/

/-- At most `bound` tokens can be taken from a sequence without taking an end token, and not even
`bound` of them. -/
def EndsWithin (sequence : Stream' Token) (bound : Nat) : Prop :=
  ∀ taken rest, sequence = taken ++ₛ rest → (∀ token ∈ taken, token.kind ≠ .eof) →
    taken.length < bound

theorem not_endsWithin_zero (sequence : Stream' Token) : ¬ EndsWithin sequence 0 := by
  intro h
  have := h [] sequence rfl (by simp)
  omega

/-- Taking tokens that do not end the sequence brings its end closer. -/
theorem EndsWithin.after {sequence rest : Stream' Token} {taken : List Token} {bound : Nat}
    (h : EndsWithin sequence (bound + 1)) (hseq : sequence = taken ++ₛ rest) (hne : taken ≠ [])
    (hkind : ∀ token ∈ taken, token.kind ≠ .eof) : EndsWithin rest bound := by
  intro more rest' hrest hmore
  have hlen := h (taken ++ more) rest' (by rw [Stream'.append_append_stream, ← hrest, hseq])
    (by simpa [or_imp, forall_and] using ⟨hkind, hmore⟩)
  have := List.length_pos_iff.mpr hne
  rw [List.length_append] at hlen
  omega

theorem endsWithin_append_const {final : Token} (hfinal : final.kind = .eof) (tokens : List Token) :
    EndsWithin (tokens ++ₛ Stream'.const final) (tokens.length + 1) := by
  induction tokens with
  | nil =>
    intro taken rest hseq hkind
    cases taken with
    | nil => simp
    | cons token taken =>
      have hhead : final = token := congrArg Stream'.head hseq
      exact absurd hfinal (hhead ▸ hkind token (by simp))
  | cons first tokens ih =>
    intro taken rest hseq hkind
    cases taken with
    | nil => simp
    | cons token taken =>
      have htail : tokens ++ₛ Stream'.const final = taken ++ₛ rest := congrArg Stream'.tail hseq
      have := ih taken rest htail fun t ht => hkind t (by simp [ht])
      simp only [List.length_cons]
      omega

/-! ## Streams -/

namespace TokenStream

/-- All that a stream will yield: the tokens to come, then the end token forever. -/
def sequence (stream : TokenStream) : Stream' Token :=
  stream.upcoming ++ₛ Stream'.const stream.final

/-- The next token is the head of the sequence, which loses it. -/
theorem sequence_eq (stream : TokenStream) :
    stream.sequence = [stream.next.1] ++ₛ stream.next.2.sequence := by
  obtain ⟨_ | ⟨token, pushed⟩, _ | ⟨token', ahead⟩, final, most, hfinal⟩ := stream
  · exact Stream'.const_eq final
  · rfl
  · rfl
  · rfl

@[simp] theorem sequence_pushBack (stream : TokenStream) (token : Token) :
    (stream.pushBack token).sequence = [token] ++ₛ stream.sequence := rfl

/-- Tokens that are handed back, the last of them first, come in their own order. -/
theorem sequence_foldr_pushBack (tokens : List Token) (stream : TokenStream) :
    (tokens.foldr (fun token stream => stream.pushBack token) stream).sequence =
      tokens ++ₛ stream.sequence := by
  induction tokens with
  | nil => rfl
  | cons token tokens ih =>
    rw [List.foldr_cons, sequence_pushBack, ih]
    rfl

theorem sequence_ofTokens (tokens : List Token) (file : String) :
    (ofTokens tokens file).sequence = tokens ++ₛ Stream'.const (finalOf tokens file) := rfl

theorem endsWithin (stream : TokenStream) :
    EndsWithin stream.sequence (stream.final :: stream.upcoming).length :=
  endsWithin_append_const stream.final_kind stream.upcoming

end TokenStream

/-- All that a parser will read. -/
def Parser.sequence (parser : Parser) : Stream' Token := parser.stream.sequence

end FrappeSyntax
