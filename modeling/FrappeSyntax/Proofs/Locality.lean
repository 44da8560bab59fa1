import FrappeSyntax.Proofs.Pushback
import FrappeSyntax.Proofs.Tape

/-!
# Tokens that were not drawn do not matter

What a routine does on a tape it does on every other tape that has the same tokens up to the last one
that was drawn. What comes after this token, and how much, cannot make a difference.

* `Tape.AgreesBelow`: two tapes with the same tokens up to an index.
* `Spot.Carries`: what a run on one tape tells about the run on another.
* `ComposedAfter.carries`: routines that are put together from tokens and levels behave so.
-/

namespace FrappeSyntax

/-- Two tapes have the same tokens before an index. -/
def Tape.AgreesBelow (tape tape' : Tape) (bound : Nat) : Prop :=
  ∀ index < bound, tape.get index = tape'.get index

namespace Spot

/-- The tokens taken last, up to a spot. -/
def Follows (tape : Tape) (taken : List Token) (spot : Spot) : Prop :=
  ∃ start, spot.index = start + taken.length ∧
    taken = (List.range' start taken.length).map tape.get

theorem follows_nil (tape : Tape) (spot : Spot) : spot.Follows tape [] := ⟨spot.index, rfl, rfl⟩

theorem Follows.taken {tape : Tape} {taken : List Token} {spot : Spot}
    (h : spot.Follows tape taken) :
    spot.taken.Follows tape (taken ++ [tape.get spot.index]) := by
  obtain ⟨start, hindex, htaken⟩ := h
  refine ⟨start, ?_, ?_⟩
  · rw [List.length_append, ← Nat.add_assoc, ← hindex]
    rfl
  · rw [List.length_append, List.length_singleton, List.range'_1_concat, List.map_append, ← htaken,
      ← hindex]
    rfl

/-- The token that was taken last stands right before the spot. -/
theorem Follows.handedBack {tape : Tape} {taken : List Token} {token : Token} {spot : Spot}
    (h : spot.Follows tape (taken ++ [token])) :
    ∃ index, spot.index = index + 1 ∧ token = tape.get index ∧
      spot.handedBack.Follows tape taken := by
  obtain ⟨start, hindex, htaken⟩ := h
  rw [List.length_append, List.length_singleton] at hindex htaken
  rw [List.range'_1_concat, List.map_append, List.map_singleton] at htaken
  obtain ⟨hfront, hlast⟩ := List.append_inj' htaken rfl
  exact ⟨start + taken.length, hindex, (List.cons.inj hlast).1, start,
    Nat.sub_eq_of_eq_add hindex, hfront⟩

/-- How a run ends on one tape, and that it ends in the same way on another one, if both have the
same tokens up to the last one drawn. Before it `origin` tokens were drawn, and after a result the
tokens `left` may be handed back. -/
inductive Carries (one other : Tape) (origin : Nat) (left : α → List Token) :
    EStateM.Result Error Parser α → EStateM.Result Error Parser α → Prop
  | ok {a : α} {after : Spot} {outcome : EStateM.Result Error Parser α} :
    origin ≤ after.drawn → after.Follows one (left a) →
    (one.AgreesBelow other after.drawn → outcome = .ok a (after.on other)) →
    Carries one other origin left (.ok a (after.on one)) outcome
  | error {error : Error} {after : Spot} {outcome : EStateM.Result Error Parser α} :
    origin ≤ after.drawn →
    (one.AgreesBelow other after.drawn → outcome = .error error (after.on other)) →
    Carries one other origin left (.error error (after.on one)) outcome

section

variable {one other : Tape} {spot : Spot}

theorem Carries.bind {routine : Routine α} {f : α → Routine β} {middle : α → List Token}
    {left : β → List Token}
    (h : Carries one other spot.drawn middle (routine (spot.on one)) (routine (spot.on other)))
    (hf : ∀ a {after : Spot}, after.Follows one (middle a) →
      Carries one other after.drawn left (f a (after.on one)) (f a (after.on other))) :
    Carries one other spot.drawn left ((routine >>= f) (spot.on one))
      ((routine >>= f) (spot.on other)) := by
  rw [Routine.bind_apply, Routine.bind_apply]
  revert h
  generalize routine (spot.on one) = outcome, routine (spot.on other) = outcome'
  intro h
  cases h with
  | error hle hother =>
    refine .error hle fun hagrees => ?_
    rw [hother hagrees]
  | @ok a after _ hle hfollows hother =>
    have hnext := hf a hfollows
    revert hnext
    dsimp only
    generalize f a (after.on one) = result, hresult : f a (after.on other) = result'
    intro hnext
    cases hnext with
    | ok hle' hfollows' hother' =>
      refine .ok (Nat.le_trans hle hle') hfollows' fun hagrees => ?_
      rw [hother fun index hlt => hagrees index (Nat.lt_of_lt_of_le hlt hle')]
      exact hresult.trans (hother' hagrees)
    | error hle' hother' =>
      refine .error (Nat.le_trans hle hle') fun hagrees => ?_
      rw [hother fun index hlt => hagrees index (Nat.lt_of_lt_of_le hlt hle')]
      exact hresult.trans (hother' hagrees)

theorem Carries.forget {origin : Nat} {left : α → List Token}
    {outcome outcome' : EStateM.Result Error Parser α}
    (h : Carries one other origin left outcome outcome') :
    Carries one other origin (fun _ => []) outcome outcome' := by
  cases h with
  | ok hle _ hsame => exact .ok hle (follows_nil one _) hsame
  | error hle hsame => exact .error hle hsame

theorem Carries.of_ok {origin : Nat} {left : α → List Token} {a : α} {parser : Parser}
    {outcome : EStateM.Result Error Parser α}
    (h : Carries one other origin left (.ok a parser) outcome) :
    ∃ after : Spot, parser = after.on one ∧
      (one.AgreesBelow other after.drawn → outcome = .ok a (after.on other)) := by
  generalize hresult : EStateM.Result.ok a parser = result at h
  cases h with
  | ok _ _ hsame =>
    cases hresult
    exact ⟨_, rfl, hsame⟩
  | error => cases hresult

theorem Carries.of_error {origin : Nat} {left : α → List Token} {error : Error} {parser : Parser}
    {outcome : EStateM.Result Error Parser α}
    (h : Carries one other origin left (.error error parser) outcome) :
    ∃ after : Spot, parser = after.on one ∧
      (one.AgreesBelow other after.drawn → outcome = .error error (after.on other)) := by
  generalize hresult : EStateM.Result.error error parser = result at h
  cases h with
  | ok => cases hresult
  | error _ hsame =>
    cases hresult
    exact ⟨_, rfl, hsame⟩

theorem drawn_le_drawn_taken (spot : Spot) : spot.drawn ≤ spot.taken.drawn := by
  simp only [drawn, taken]
  omega

theorem drawn_le_drawn_peeked (spot : Spot) : spot.drawn ≤ spot.peeked.drawn := by
  simp only [drawn, peeked]
  omega

theorem index_lt_drawn_peeked (spot : Spot) : spot.index < spot.peeked.drawn := by
  simp only [drawn, peeked]
  omega

theorem index_lt_drawn_taken (spot : Spot) : spot.index < spot.taken.drawn := by
  simp only [drawn, taken]
  omega

/-- A level is refused on both tapes, at a token that was looked at. -/
theorem carries_refused (spot : Spot) {left : α → List Token} (cause : Cause) :
    Carries one other spot.drawn left
      (.error ⟨cause, (one.get spot.index).position⟩ (spot.peeked.on one))
      (.error ⟨cause, (other.get spot.index).position⟩ (spot.peeked.on other)) := by
  refine .error spot.drawn_le_drawn_peeked fun hagrees => ?_
  rw [hagrees spot.index spot.index_lt_drawn_peeked]

theorem Carries.refuse {left : α → List Token} (production : String) :
    Carries one other spot.drawn left ((Routine.refuse production : Routine α) (spot.on one))
      (Routine.refuse production (spot.on other)) := by
  let refused := spot.raise.note (.refused production (spot.depth + 1))
  have hrun : ∀ tape : Tape, (Routine.refuse production : Routine α) (spot.on tape) =
      .error ⟨.recursionLimitExceeded spot.limits.maxDepth, (tape.get spot.index).position⟩
        (refused.peeked.on tape) := by
    intro tape
    rw [Routine.refuse_eq, head_sequence_on, ← peeked_on]
    rfl
  rw [hrun, hrun]
  exact refused.carries_refused _

/-- A level is opened on both tapes, or the time is over on both. -/
theorem Carries.deeper {routine : Routine α} {left : α → List Token}
    (h : Carries one other spot.opened.drawn left (routine (spot.opened.on one))
      (routine (spot.opened.on other))) :
    Carries one other spot.drawn left (Routine.deeper routine (spot.on one))
      (Routine.deeper routine (spot.on other)) := by
  cases hexpired : spot.limits.isExpired spot.looks with
  | true =>
    have hrun : ∀ tape : Tape, Routine.deeper routine (spot.on tape) =
        .error ⟨.deadlineExceeded, (tape.get spot.index).position⟩
          (spot.opened.peeked.on tape) := by
      intro tape
      rw [Routine.deeper_eq_error hexpired, head_sequence_on, ← peeked_on]
      rfl
    rw [hrun, hrun]
    exact spot.opened.carries_refused _
  | false =>
    have hrun : ∀ tape : Tape, Routine.deeper routine (spot.on tape) =
        Routine.thenLower routine (spot.opened.on tape) :=
      fun tape => Routine.deeper_eq_thenLower hexpired routine
    rw [hrun, hrun, Routine.thenLower, Routine.thenLower]
    revert h
    generalize routine (spot.opened.on one) = outcome, routine (spot.opened.on other) = outcome'
    intro h
    cases h with
    | @ok a after _ hle hfollows hsame =>
      have hlower : Follows one (left a) after.lower := hfollows
      show Carries one other spot.drawn left (.ok a (after.lower.on one)) _
      refine .ok hle hlower fun hagrees => ?_
      rw [hsame hagrees, lower_on]
    | @error error after _ hle hsame =>
      have hlower : spot.drawn ≤ after.lower.drawn := hle
      refine .error hlower fun hagrees => ?_
      rw [hsame hagrees, lower_on]

end

end Spot

theorem EndsWithin.mono {sequence : Stream' Token} {bound bound' : Nat}
    (h : EndsWithin sequence bound) (hle : bound ≤ bound') : EndsWithin sequence bound' :=
  fun taken rest hseq hkind => Nat.lt_of_lt_of_le (h taken rest hseq hkind) hle

open Spot in
/-- Routines that are put together from tokens and levels do not depend on tokens they do not
draw. -/
theorem ComposedAfter.carries {taken : List Token} {levels more : Nat} {routine full : Routine α}
    {left : α → List Token} (h : ComposedAfter taken levels more routine full left)
    {one other : Tape} {spot : Spot} (hfollows : spot.Follows one taken) :
    Carries one other spot.drawn left (routine (spot.on one)) (routine (spot.on other)) := by
  induction h generalizing spot with
  | pure hleft => exact .ok le_rfl (hleft ▸ hfollows) fun _ => rfl
  | fail => exact .error le_rfl fun _ => rfl
  | next =>
    rw [next_on, next_on]
    refine .ok spot.drawn_le_drawn_taken hfollows.taken fun hagrees => ?_
    rw [hagrees spot.index spot.index_lt_drawn_taken]
  | pushBack =>
    obtain ⟨index, hindex, rfl, hback⟩ := hfollows.handedBack
    have hdrawn : spot.handedBack.drawn = spot.drawn := by
      simp only [drawn, handedBack, hindex]
      omega
    rw [spot.pushBack_on one hindex]
    refine .ok (Nat.le_of_eq hdrawn.symm) hback fun hagrees => ?_
    have hlt : index < spot.handedBack.drawn := by
      rw [hdrawn, drawn, hindex]
      omega
    rw [hagrees index hlt, spot.pushBack_on other hindex]
  | @enter taken _ _ production =>
    have hnote : (spot.note (.entered production)).Follows one taken := hfollows
    show Carries one other spot.drawn _ (.ok () ((spot.note (.entered production)).on one)) _
    exact .ok le_rfl hnote fun _ => rfl
  | forget _ ih => exact (ih (spot.follows_nil one)).forget
  | bind _ _ ih ih' => exact .bind (ih hfollows) fun a _ hafter => ih' a hafter
  | @repeatWhile _ _ _ calls item _ _ _ hadvances ih =>
    -- the turns of both loops together are enough for each of them
    let turns (tape : Tape) := tape.final :: (spot.on tape).stream.upcoming
    have hturns : ∀ tape : Tape, (turns tape).length ≤ (turns one ++ turns other).length →
        Routine.repeatWhile calls item (spot.on tape) =
          Routine.repeatFor calls item [] (turns one ++ turns other) (spot.on tape) :=
      fun tape hle => Routine.repeatFor_congr_turns hadvances (spot.on tape).stream.endsWithin
        ((spot.on tape).stream.endsWithin.mono hle)
    rw [hturns one (by simp), hturns other (by simp)]
    exact ih _ (spot.follows_nil one)
  | deeper _ ih => exact .deeper (ih (spot.opened.follows_nil one))
  | refuse | cut => exact .refuse _

end FrappeSyntax
