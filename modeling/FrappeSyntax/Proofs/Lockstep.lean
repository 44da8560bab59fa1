import FrappeSyntax.Proofs.Depth
import FrappeSyntax.Proofs.Matching
import FrappeSyntax.Proofs.Tape
import FrappeSyntax.Series.Parser

/-!
# Runs in lockstep

Two tapes are twins if their tokens agree in kind, index by index, and punctuation agrees in its text
too. A routine for a production cannot tell them apart: it takes the same steps on both, and ends at
the same spot, with results whose parts come from tokens of the same index, or with errors about such
tokens.

At each of these steps few tokens wait to be taken again: never more than three, one at most when a
routine for a production gives a result, none after a syntax error, and the next token alone after a
refusal. No token that ends the source is taken before such an end.

* `TwinTapes.Abreast`: two runs that end in the same way.
* `TwinTapes.InStep`: two routines that run in lockstep from any spot.
* `TwinTapes.StepsFrom.next_bind`, `TwinTapes.StepsFrom.pushBack_bind`, `TwinTapes.InStep.bind`,
  `TwinTapes.InStep.repeatWhile`, `TwinTapes.InStep.deeper`: each way to put routines together.
-/

namespace FrappeSyntax

/-! ## Twins -/

/-- Two tokens that have the same index in two lists. -/
def Token.Paired (tokens tokens' : List Token) (token token' : Token) : Prop :=
  ∃ index : Nat, tokens[index]? = some token ∧ tokens'[index]? = some token'

/-- The texts of two tokens that have the same index in two lists. -/
def Token.TextsPaired (tokens tokens' : List Token) (text text' : String) : Prop :=
  ∃ token token', Paired tokens tokens' token token' ∧ text = token.text ∧ text' = token'.text

/-- Two tapes whose tokens agree, index by index, in their kinds, and in their texts where they are
punctuation. -/
structure TwinTapes where
  one : Tape
  other : Tape
  length_eq : one.tokens.length = other.tokens.length
  kind_eq : ∀ index, (one.get index).kind = (other.get index).kind
  text_eq : ∀ index, (one.get index).kind = .single → (one.get index).text = (other.get index).text

/-- What a syntax error says, but for the token that it is about. -/
inductive Complaint
  | kind (production : String) (expected : Kind)
  | text (production : String) (expected : Word)
  | alternative (production expected : String)

/-- The syntax error about a token. -/
def Complaint.about : Complaint → Token → Error
  | kind production expected, token => .unexpectedKind production expected token
  | text production expected, token => .unexpectedText production expected token
  | alternative production expected, token => .unexpectedAlternative production expected token

theorem Complaint.isAbout (complaint : Complaint) (token : Token) :
    (complaint.about token).IsAbout token := by
  cases complaint <;> exact ⟨rfl, rfl⟩

/-- A spot with a given index, where at most a given number of tokens wait, and where never more than
three did. -/
structure Spot.IsAt (index waiting : Nat) (spot : Spot) : Prop where
  index_eq : spot.index = index
  pending_le : spot.pending ≤ waiting
  mostPending_le : spot.mostPending ≤ 3

/-- No token from one index up to another ends the source. -/
def Tape.EndlessBetween (tape : Tape) (first last : Nat) : Prop :=
  ∀ index, first ≤ index → index < last → (tape.get index).kind ≠ .eof

theorem Tape.endlessBetween_self (tape : Tape) (index : Nat) : tape.EndlessBetween index index :=
  fun _ hfirst hlast => absurd hfirst (Nat.not_le_of_lt hlast)

theorem Tape.EndlessBetween.trans {tape : Tape} {first middle last : Nat}
    (h : tape.EndlessBetween first middle) (h' : tape.EndlessBetween middle last) :
    tape.EndlessBetween first last := by
  intro index hfirst hlast
  rcases Nat.lt_or_ge index middle with hlt | hge
  · exact h index hfirst hlt
  · exact h' index hge hlast

theorem Tape.EndlessBetween.succ {tape : Tape} {first last : Nat}
    (h : tape.EndlessBetween first last) (hlast : (tape.get last).kind ≠ .eof) :
    tape.EndlessBetween first (last + 1) := by
  refine h.trans fun index hfirst hlt => ?_
  obtain rfl : index = last := Nat.le_antisymm (Nat.le_of_lt_succ hlt) hfirst
  exact hlast

theorem Tape.EndlessBetween.le_length {tape : Tape} {index : Nat} (h : tape.EndlessBetween 0 index) :
    index ≤ tape.tokens.length := by
  by_contra hlt
  refine h tape.tokens.length (Nat.zero_le _) (Nat.lt_of_not_le hlt) ?_
  rw [get_of_le le_rfl]
  exact tape.final_kind

theorem Tape.EndlessBetween.kind_ne {tape : Tape} {index : Nat} (h : tape.EndlessBetween 0 index)
    {token : Token} (hmem : token ∈ tape.tokens.take index) : token.kind ≠ .eof := by
  obtain ⟨i, hi, rfl⟩ := List.getElem_of_mem hmem
  rw [List.length_take] at hi
  have hget : tape.get i = (tape.tokens.take index)[i] := by
    rw [get, List.getElem_take, List.getElem?_eq_getElem (by omega), Option.getD_some]
  exact hget ▸ h i (Nat.zero_le i) (by omega)

namespace TwinTapes

variable (twins : TwinTapes)

/-- Two tokens of the sources that have the same index. -/
def PairsTokens (token token' : Token) : Prop :=
  Token.Paired twins.one.tokens twins.other.tokens token token'

/-- The texts of two tokens of the sources that have the same index. -/
def PairsTexts (text text' : String) : Prop :=
  Token.TextsPaired twins.one.tokens twins.other.tokens text text'

theorem pairsTokens_of_kind_ne {twins : TwinTapes} {index : Nat}
    (h : (twins.one.get index).kind ≠ .eof) :
    twins.PairsTokens (twins.one.get index) (twins.other.get index) :=
  have hlt := twins.one.lt_of_kind_ne h
  ⟨index, twins.one.getElem?_of_lt hlt, twins.other.getElem?_of_lt (twins.length_eq ▸ hlt)⟩

theorem PairsTokens.text {twins : TwinTapes} {token token' : Token}
    (h : twins.PairsTokens token token') : twins.PairsTexts token.text token'.text :=
  ⟨token, token', h, rfl, rfl⟩

theorem isKind_eq (index : Nat) (kind : Kind) :
    (twins.one.get index).isKind kind = (twins.other.get index).isKind kind := by
  rw [Token.isKind, Token.isKind, twins.kind_eq]

theorem isSingle_eq (index : Nat) (text : String) :
    (twins.one.get index).isSingle text = (twins.other.get index).isSingle text := by
  rw [Word.isSingle, Word.isSingle, ← twins.kind_eq]
  by_cases h : (twins.one.get index).kind = .single
  · rw [twins.text_eq index h]
  · rw [beq_eq_false_iff_ne.mpr h, Bool.false_and, Bool.false_and]

/-! ## The ends of two runs -/

/-- Two runs, which began at the token with the index `origin`, end at the same spot: with results
that are related, at a spot where runs may end so, with syntax errors about the token taken last, or
with refusals of a level. -/
inductive Abreast (origin : Nat) (settled : Spot → Prop) (rel : α → β → Prop) :
    EStateM.Result Error Parser α → EStateM.Result Error Parser β → Prop
  | ok {a : α} {b : β} {spot : Spot} : rel a b → settled spot →
    Abreast origin settled rel (.ok a (spot.on twins.one)) (.ok b (spot.on twins.other))
  | complains {spot : Spot} {index : Nat} (complaint : Complaint) : spot.IsAt (index + 1) 0 →
    twins.one.EndlessBetween origin index →
    Abreast origin settled rel (.error (complaint.about (twins.one.get index)) (spot.on twins.one))
      (.error (complaint.about (twins.other.get index)) (spot.on twins.other))
  | refuses {spot : Spot} {cause : Cause} : cause.isRefusal = true → spot.pending = 1 →
    spot.mostPending ≤ 3 → twins.one.EndlessBetween origin spot.index →
    Abreast origin settled rel
      (.error ⟨cause, (twins.one.get spot.index).position⟩ (spot.on twins.one))
      (.error ⟨cause, (twins.other.get spot.index).position⟩ (spot.on twins.other))

/-- A spot where a routine for a production may end that began at the token with the index
`origin`: one token waits at most, and no token that ends the source was taken. -/
structure Calm (origin : Nat) (spot : Spot) : Prop where
  pending_le : spot.pending ≤ 1
  mostPending_le : spot.mostPending ≤ 3
  endless : twins.one.EndlessBetween origin spot.index

/-- Two routines, one on each tape, run in lockstep from the spots with a given index where at most
`waiting` tokens wait. They belong to a run that began at the token with the index `origin`. -/
def StepsFrom (origin index waiting : Nat) (rel : α → β → Prop) (routine : Routine α)
    (routine' : Routine β) : Prop :=
  ∀ spot : Spot, spot.IsAt index waiting →
    twins.Abreast origin (twins.Calm origin) rel (routine (spot.on twins.one))
      (routine' (spot.on twins.other))

/-- Two routines, one on each tape, run in lockstep from all spots where at most one token waits. -/
def InStep (rel : α → β → Prop) (routine : Routine α) (routine' : Routine β) : Prop :=
  ∀ index, twins.StepsFrom index index 1 rel routine routine'

section

variable {twins} {origin index waiting : Nat} {rel : α → β → Prop} {rel' : γ → δ → Prop}
  {routine : Routine α} {routine' : Routine β}

theorem Calm.of_isAt {spot : Spot} (h : spot.IsAt index 1)
    (hendless : twins.one.EndlessBetween origin index) : twins.Calm origin spot :=
  ⟨h.pending_le, h.mostPending_le, h.index_eq ▸ hendless⟩

theorem Calm.isAt {spot : Spot} (h : twins.Calm origin spot) : spot.IsAt spot.index 1 :=
  ⟨rfl, h.pending_le, h.mostPending_le⟩

theorem Abreast.of_later {later : Nat} {outcome : EStateM.Result Error Parser α}
    {outcome' : EStateM.Result Error Parser β} (hendless : twins.one.EndlessBetween origin later)
    (h : twins.Abreast later (twins.Calm later) rel outcome outcome') :
    twins.Abreast origin (twins.Calm origin) rel outcome outcome' := by
  cases h with
  | ok hrel hcalm =>
    exact .ok hrel ⟨hcalm.pending_le, hcalm.mostPending_le, hendless.trans hcalm.endless⟩
  | complains complaint hspot hlater => exact .complains complaint hspot (hendless.trans hlater)
  | refuses hcause hpending hmost hlater =>
    exact .refuses hcause hpending hmost (hendless.trans hlater)

/-- A result is the start of another run, and an error stays what it is. -/
theorem Abreast.bind {settled : Spot → Prop} {f : α → Routine γ} {g : β → Routine δ} {spot : Spot}
    (h : twins.Abreast origin (twins.Calm origin) rel (routine (spot.on twins.one))
      (routine' (spot.on twins.other)))
    (hf : ∀ a b spot, rel a b → twins.Calm origin spot →
      twins.Abreast origin settled rel' (f a (spot.on twins.one)) (g b (spot.on twins.other))) :
    twins.Abreast origin settled rel' ((routine >>= f) (spot.on twins.one))
      ((routine' >>= g) (spot.on twins.other)) := by
  rw [Routine.bind_apply, Routine.bind_apply]
  revert h
  generalize routine (spot.on twins.one) = outcome, routine' (spot.on twins.other) = outcome'
  intro h
  cases h with
  | ok hrel hcalm => exact hf _ _ _ hrel hcalm
  | complains complaint hspot hendless => exact .complains complaint hspot hendless
  | refuses hcause hpending hmost hendless => exact .refuses hcause hpending hmost hendless

/-! ## Single steps -/

theorem StepsFrom.pure {a : α} {b : β} (hrel : rel a b) (hwaiting : waiting ≤ 1)
    (hendless : twins.one.EndlessBetween origin index) :
    twins.StepsFrom origin index waiting rel (Pure.pure a) (Pure.pure b) := by
  intro spot hspot
  have hcalm : spot.IsAt index 1 :=
    ⟨hspot.index_eq, Nat.le_trans hspot.pending_le hwaiting, hspot.mostPending_le⟩
  exact .ok hrel (.of_isAt hcalm hendless)

/-- What is in step from anywhere is so at a spot where few tokens wait. -/
theorem InStep.stepsFrom (h : twins.InStep rel routine routine') (hwaiting : waiting ≤ 1)
    (hendless : twins.one.EndlessBetween origin index) :
    twins.StepsFrom origin index waiting rel routine routine' := by
  intro spot hspot
  have hcalm : spot.IsAt index 1 :=
    ⟨hspot.index_eq, Nat.le_trans hspot.pending_le hwaiting, hspot.mostPending_le⟩
  exact .of_later hendless (h index spot hcalm)

theorem StepsFrom.bind {f : α → Routine γ} {g : β → Routine δ}
    (h : twins.StepsFrom origin index waiting rel routine routine')
    (hf : ∀ a b, rel a b → twins.InStep rel' (f a) (g b)) :
    twins.StepsFrom origin index waiting rel' (routine >>= f) (routine' >>= g) :=
  fun spot hspot => (h spot hspot).bind fun a b after hrel hcalm =>
    .of_later hcalm.endless (hf a b hrel after.index after hcalm.isAt)

/-- The next token is taken. -/
theorem StepsFrom.next_bind {f : Token → Routine α} {g : Token → Routine β}
    (h : twins.StepsFrom origin (index + 1) (waiting - 1) rel (f (twins.one.get index))
      (g (twins.other.get index))) :
    twins.StepsFrom origin index waiting rel (Routine.next >>= f) (Routine.next >>= g) := by
  intro spot hspot
  obtain rfl := hspot.index_eq
  rw [Routine.bind_apply, Routine.bind_apply, Spot.next_on, Spot.next_on]
  exact h spot.taken ⟨rfl, Nat.sub_le_sub_right hspot.pending_le 1, hspot.mostPending_le⟩

/-- The token taken last is handed back. -/
theorem StepsFrom.pushBack_bind (hwaiting : waiting < 3)
    (h : twins.StepsFrom origin index (waiting + 1) rel routine routine') :
    twins.StepsFrom origin (index + 1) waiting rel
      (Routine.pushBack (twins.one.get index) >>= fun _ => routine)
      (Routine.pushBack (twins.other.get index) >>= fun _ => routine') := by
  intro spot hspot
  rw [Routine.bind_apply, Routine.bind_apply, spot.pushBack_on _ hspot.index_eq,
    spot.pushBack_on _ hspot.index_eq]
  have hpending : spot.pending + 1 ≤ waiting + 1 := Nat.succ_le_succ hspot.pending_le
  refine h spot.handedBack ⟨?_, hpending, ?_⟩
  · exact Nat.sub_eq_of_eq_add hspot.index_eq
  · exact Nat.max_le.mpr ⟨hspot.mostPending_le, Nat.le_trans hpending hwaiting⟩

/-- The next token is looked at. -/
theorem StepsFrom.peek_bind {f : Token → Routine α} {g : Token → Routine β} (hwaiting : waiting ≤ 1)
    (h : twins.StepsFrom origin index 1 rel (f (twins.one.get index))
      (g (twins.other.get index))) :
    twins.StepsFrom origin index waiting rel (Routine.peek >>= f) (Routine.peek >>= g) := by
  intro spot hspot
  obtain rfl := hspot.index_eq
  have hpending : max spot.pending 1 ≤ 1 :=
    Nat.max_le.mpr ⟨Nat.le_trans hspot.pending_le hwaiting, le_rfl⟩
  rw [Routine.bind_apply, Routine.bind_apply, Spot.peek_on, Spot.peek_on]
  refine h spot.peeked ⟨rfl, hpending, ?_⟩
  exact Nat.max_le.mpr ⟨hspot.mostPending_le, Nat.le_trans hpending (by decide)⟩

/-- A syntax error about the token taken last. -/
theorem StepsFrom.complain (complaint : Complaint)
    (hendless : twins.one.EndlessBetween origin index) :
    twins.StepsFrom origin (index + 1) 0 rel (throw (complaint.about (twins.one.get index)))
      (throw (complaint.about (twins.other.get index))) :=
  fun _ hspot => .complains complaint hspot hendless

theorem StepsFrom.enter (production : Production)
    (h : twins.StepsFrom origin index waiting rel routine routine') :
    twins.StepsFrom origin index waiting rel (Routine.enter production >>= fun _ => routine)
      (Routine.enter production >>= fun _ => routine') :=
  fun spot hspot => h (spot.note (.entered production))
    ⟨hspot.index_eq, hspot.pending_le, hspot.mostPending_le⟩

/-- One routine after the other. -/
theorem InStep.bind {f : α → Routine γ} {g : β → Routine δ} (h : twins.InStep rel routine routine')
    (hf : ∀ a b, rel a b → twins.InStep rel' (f a) (g b)) :
    twins.InStep rel' (routine >>= f) (routine' >>= g) :=
  fun index => (h index).bind hf

theorem InStep.pure {a : α} {b : β} (hrel : rel a b) :
    twins.InStep rel (Pure.pure a) (Pure.pure b) :=
  fun index => .pure hrel le_rfl (twins.one.endlessBetween_self index)

theorem InStep.enter (production : Production) (h : twins.InStep rel routine routine') :
    twins.InStep rel (Routine.enter production >>= fun _ => routine)
      (Routine.enter production >>= fun _ => routine') :=
  fun index => .enter production (h index)

/-! ## Tokens that are checked -/

/-- A token of a kind. Where it may not come next, at most one token waits. -/
theorem StepsFrom.expect_bind {kind : Kind} {f : Token → Routine α} {g : Token → Routine β}
    (production : String) (hcalm : (twins.one.get index).kind = kind ∨ waiting ≤ 1)
    (hendless : twins.one.EndlessBetween origin index)
    (h : (twins.one.get index).kind = kind → twins.StepsFrom origin (index + 1) (waiting - 1) rel
      (f (twins.one.get index)) (g (twins.other.get index))) :
    twins.StepsFrom origin index waiting rel (Routine.expect kind production >>= f)
      (Routine.expect kind production >>= g) := by
  rw [Routine.expect, bind_assoc, bind_assoc]
  refine .next_bind ?_
  rw [Token.expectKind, Token.expectKind, ← twins.isKind_eq, Token.isKind]
  by_cases hkind : (twins.one.get index).kind = kind
  · rw [beq_iff_eq.mpr hkind]
    exact h hkind
  · have hwaiting : waiting - 1 = 0 := Nat.sub_eq_zero_of_le (hcalm.resolve_left hkind)
    rw [beq_eq_false_iff_ne.mpr hkind, hwaiting]
    exact .complain (.kind production kind) hendless

theorem InStep.expect {kind : Kind} (production : String) (hkind : kind ≠ .eof) :
    twins.InStep twins.PairsTokens (Routine.expect kind production)
      (Routine.expect kind production) := by
  intro index
  have hself := twins.one.endlessBetween_self index
  rw [← bind_pure (Routine.expect kind production)]
  refine .expect_bind production (.inr le_rfl) hself fun htoken => ?_
  have hne : (twins.one.get index).kind ≠ .eof := htoken ▸ hkind
  exact .pure (pairsTokens_of_kind_ne hne) (Nat.zero_le 1) (hself.succ hne)

/-- Where a token is punctuation, the source does not end. -/
theorem kind_ne_of_isSingle {token : Token} {text : String} (h : token.isSingle text = true) :
    token.kind ≠ .eof := by
  rw [Word.isSingle_iff] at h
  rw [h]
  exact Kind.noConfusion

/-- A word of punctuation. -/
theorem InStep.expectSingle (text production : String) :
    twins.InStep twins.PairsTokens (Routine.expectSingle text production)
      (Routine.expectSingle text production) := by
  intro index
  refine .next_bind ?_
  have hself := twins.one.endlessBetween_self index
  have hiff : ∀ token : Token, token.toWord = Word.single text ↔ token.isSingle text = true :=
    fun token => Word.isSingle_iff.symm
  simp only [Token.expectWord, hiff, ← twins.isSingle_eq]
  split
  next h =>
    have hne := kind_ne_of_isSingle h
    exact .pure (pairsTokens_of_kind_ne hne) (Nat.zero_le 1) (hself.succ hne)
  next => exact .complain (.text production (.single text)) hself

/-! ## Levels -/

/-- A level is refused on both tapes. -/
theorem abreast_refuses {spot : Spot} {cause : Cause} (hspot : spot.IsAt index 1)
    (hcause : cause.isRefusal = true) :
    twins.Abreast index (twins.Calm index) rel
      (.error ⟨cause, (twins.one.get spot.index).position⟩ (spot.peeked.on twins.one))
      (.error ⟨cause, (twins.other.get spot.index).position⟩ (spot.peeked.on twins.other)) := by
  obtain rfl := hspot.index_eq
  have hpending : max spot.pending 1 = 1 := Nat.max_eq_right hspot.pending_le
  refine .refuses hcause (show spot.peeked.pending = 1 from hpending) ?_
    (twins.one.endlessBetween_self _)
  exact Nat.max_le.mpr ⟨hspot.mostPending_le, Nat.le_trans (Nat.le_of_eq hpending) (by decide)⟩

theorem InStep.refuse (production : String) :
    twins.InStep rel (Routine.refuse production) (Routine.refuse production) := by
  intro index spot hspot
  let refused := spot.raise.note (.refused production (spot.depth + 1))
  have hrefused : refused.IsAt index 1 := ⟨hspot.index_eq, hspot.pending_le, hspot.mostPending_le⟩
  have hrun : ∀ {α : Type} (tape : Tape), (Routine.refuse production : Routine α) (spot.on tape) =
      .error ⟨.recursionLimitExceeded spot.limits.maxDepth, (tape.get refused.index).position⟩
        (refused.peeked.on tape) := by
    intro α tape
    rw [Routine.refuse_eq, Spot.head_sequence_on, ← Spot.peeked_on]
    rfl
  rw [hrun, hrun]
  exact abreast_refuses hrefused rfl

/-- A level is opened on both tapes, or the time is over on both. -/
theorem InStep.deeper (h : twins.InStep rel routine routine') :
    twins.InStep rel (Routine.deeper routine) (Routine.deeper routine') := by
  intro index spot hspot
  have hopened : spot.opened.IsAt index 1 :=
    ⟨hspot.index_eq, hspot.pending_le, hspot.mostPending_le⟩
  cases hexpired : spot.limits.isExpired spot.looks with
  | true =>
    have hrun : ∀ {α : Type} (routine : Routine α) (tape : Tape),
        Routine.deeper routine (spot.on tape) =
          .error ⟨.deadlineExceeded, (tape.get spot.opened.index).position⟩
            (spot.opened.peeked.on tape) := by
      intro α routine tape
      rw [Routine.deeper_eq_error hexpired, Spot.head_sequence_on, ← Spot.peeked_on]
      rfl
    rw [hrun, hrun]
    exact abreast_refuses hopened rfl
  | false =>
    have hrun : ∀ {α : Type} (routine : Routine α) (tape : Tape),
        Routine.deeper routine (spot.on tape) = Routine.thenLower routine (spot.opened.on tape) :=
      fun routine tape => Routine.deeper_eq_thenLower hexpired routine
    have hinside := h index spot.opened hopened
    rw [hrun, hrun, Routine.thenLower, Routine.thenLower]
    revert hinside
    generalize routine (spot.opened.on twins.one) = outcome,
      routine' (spot.opened.on twins.other) = outcome'
    intro hinside
    cases hinside with
    | @ok _ _ spot hrel hcalm =>
      have hlower : twins.Calm index spot.lower :=
        ⟨hcalm.pending_le, hcalm.mostPending_le, hcalm.endless⟩
      exact .ok hrel hlower
    | @complains spot found complaint hspot hendless =>
      have hlower : spot.lower.IsAt (found + 1) 0 :=
        ⟨hspot.index_eq, hspot.pending_le, hspot.mostPending_le⟩
      exact .complains complaint hlower hendless
    | @refuses spot _ hcause hpending hmost hendless =>
      have hlower : spot.lower.pending = 1 := hpending
      exact .refuses hcause hlower hmost hendless

/-! ## Repetition -/

/-- Items are read for as long as both tapes call for one, which they do at the same tokens. -/
theorem InStep.repeatFor {calls : Token → Bool}
    (hcalls : ∀ index, calls (twins.one.get index) = calls (twins.other.get index))
    (h : ∀ index, calls (twins.one.get index) = true →
      twins.StepsFrom index index 1 rel routine routine')
    {turns turns' : List Token} (hturns : turns.length = turns'.length) {items : List α}
    {items' : List β} (hitems : List.Forall₂ rel items items') :
    twins.InStep (List.Forall₂ rel) (Routine.repeatFor calls routine items turns)
      (Routine.repeatFor calls routine' items' turns') := by
  induction turns generalizing turns' items items' with
  | nil =>
    obtain rfl := List.length_eq_zero_iff.mp hturns.symm
    exact .pure (List.rel_reverse hitems)
  | cons turn turns ih =>
    obtain ⟨turn', turns', rfl⟩ := List.exists_of_length_succ turns' hturns.symm
    intro index
    refine .peek_bind le_rfl ?_
    rw [← hcalls]
    split
    next hcall =>
      refine (h index hcall).bind fun a b hab => ?_
      exact ih (Nat.succ.inj hturns) (.cons hab hitems)
    next => exact InStep.pure (List.rel_reverse hitems) index

theorem InStep.repeatWhile {calls : Token → Bool}
    (hcalls : ∀ index, calls (twins.one.get index) = calls (twins.other.get index))
    (h : ∀ index, calls (twins.one.get index) = true →
      twins.StepsFrom index index 1 rel routine routine') :
    twins.InStep (List.Forall₂ rel) (Routine.repeatWhile calls routine)
      (Routine.repeatWhile calls routine') := by
  intro index spot hspot
  -- the number of turns depends on the number of tokens alone
  refine InStep.repeatFor hcalls h ?_ .nil index spot hspot
  simp [TokenStream.upcoming, Spot.on, twins.length_eq]

/-! ## Series -/

/-- A series with separators, from a spot where its first item is in step. -/
theorem StepsFrom.separated (separator : String)
    (hfirst : twins.StepsFrom origin index waiting rel routine routine')
    (h : twins.InStep rel routine routine') :
    twins.StepsFrom origin index waiting (Series.Matches rel) (Series.parse separator routine)
      (Series.parse separator routine') := by
  refine hfirst.bind fun a b hab => InStep.bind
    (.repeatWhile (fun index => twins.isSingle_eq index separator) fun index hcall => ?_)
    fun as bs hitems => .pure (.cons hab hitems)
  have hself := twins.one.endlessBetween_self index
  exact .next_bind (h.stepsFrom (Nat.zero_le 1) (hself.succ (kind_ne_of_isSingle hcall)))

theorem InStep.separated (separator : String) (h : twins.InStep rel routine routine') :
    twins.InStep (Series.Matches rel) (Series.parse separator routine)
      (Series.parse separator routine') :=
  fun index => .separated separator (h index) h

theorem InStep.run {ends : Token → Bool}
    (hends : ∀ index, ends (twins.one.get index) = ends (twins.other.get index))
    (h : twins.InStep rel routine routine') :
    twins.InStep (Series.Matches rel) (Series.parseUntil ends routine)
      (Series.parseUntil ends routine') := by
  have hcalls : ∀ index, (!ends (twins.one.get index)) = !ends (twins.other.get index) :=
    fun index => congrArg not (hends index)
  exact h.bind fun a b hab => .bind (.repeatWhile hcalls fun index _ => h index)
    fun as bs hitems => .pure (.cons hab hitems)

theorem InStep.between {series : Routine (Series α)} {series' : Routine (Series β)}
    (opening closing production : String) (h : twins.InStep (Series.Matches rel) series series') :
    twins.InStep (List.Forall₂ rel) (Series.parseBetween opening closing production series)
      (Series.parseBetween opening closing production series') := by
  have hunless : twins.InStep (List.Forall₂ rel) (Series.parseUnless closing series)
      (Series.parseUnless closing series') := by
    intro index
    refine .peek_bind le_rfl ?_
    rw [← twins.isSingle_eq]
    split
    · exact InStep.pure .nil index
    · refine (h index).bind fun items items' hitems => ?_
      exact .pure hitems
  exact .bind (.expectSingle opening production) fun _ _ _ => .bind hunless fun _ _ hitems =>
    .bind (.expectSingle closing production) fun _ _ _ => .pure hitems

end

end TwinTapes

end FrappeSyntax
