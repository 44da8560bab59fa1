import FrappeSyntax.Proofs.Form
import FrappeSyntax.Proofs.Repetition
import FrappeSyntax.Series.Parser

/-!
# How routines are put together

The routines for productions take tokens and hand them back, fail at a token, repeat items, and open
levels. They do nothing else, and what they do does not depend on anything else. So what all of
these keep, every routine for a production keeps.

A routine that may open some more levels is put together in the same way, except that it opens a
level where the other one is refused it.

* `ComposedAfter`: the ways to put two such routines together.
* `Composed.separated`, `Composed.run`, `Composed.between`: the routines for series.
-/

namespace FrappeSyntax

/-- Where the next token calls for an item, a result takes at least one token, and none that ends
the source. -/
def Routine.Advances (calls : Token → Bool) (item : Routine α) : Prop :=
  ∀ parser a after, calls parser.sequence.head = true → item parser = .ok a after →
    ∃ tokens, tokens ≠ [] ∧ parser.sequence = tokens ++ₛ after.sequence ∧
      ∀ token ∈ tokens, token.kind ≠ .eof

/-- A routine that opens at most `levels` levels inside each other, and the same routine with `more`
levels. Before them the tokens `taken` were taken that may still be handed back, and after a result
these are the tokens `left`. -/
inductive ComposedAfter : {α : Type} → (taken : List Token) → (levels more : Nat) →
    (routine full : Routine α) → (left : α → List Token) → Prop
  | pure {α : Type} {taken : List Token} {levels more : Nat} {result : α} {left : α → List Token} :
    left result = taken → ComposedAfter taken levels more (Pure.pure result) (Pure.pure result) left
  | fail {α : Type} {taken : List Token} {levels more : Nat} {error : Error}
    {left : α → List Token} : error.IsSyntax →
    ComposedAfter taken levels more (throw error) (throw error) left
  | next {taken : List Token} {levels more : Nat} :
    ComposedAfter taken levels more Routine.next Routine.next fun token => taken ++ [token]
  | pushBack {taken : List Token} {levels more : Nat} {token : Token} :
    ComposedAfter (taken ++ [token]) levels more (Routine.pushBack token) (Routine.pushBack token)
      fun _ => taken
  | enter {taken : List Token} {levels more : Nat} {production : Production} :
    ComposedAfter taken levels more (Routine.enter production) (Routine.enter production)
      fun _ => taken
  /-- Tokens are not handed back any more. -/
  | forget {α : Type} {taken : List Token} {levels more : Nat} {routine full : Routine α}
    {left : α → List Token} : ComposedAfter [] levels more routine full left →
    ComposedAfter taken levels more routine full fun _ => []
  | bind {α β : Type} {taken : List Token} {levels more : Nat} {routine full : Routine α}
    {f g : α → Routine β} {middle : α → List Token} {left : β → List Token} :
    ComposedAfter taken levels more routine full middle →
    (∀ a, ComposedAfter (middle a) levels more (f a) (g a) left) →
    ComposedAfter taken levels more (routine >>= f) (full >>= g) left
  | repeatWhile {α : Type} {levels more : Nat} {calls : Token → Bool} {item full : Routine α} :
    (∀ turns, ComposedAfter [] levels more (Routine.repeatFor calls item [] turns)
      (Routine.repeatFor calls full [] turns) fun _ => []) →
    ComposedAfter [] levels more item full (fun _ => []) → Routine.Advances calls item →
    ComposedAfter [] levels more (Routine.repeatWhile calls item) (Routine.repeatWhile calls full)
      fun _ => []
  | deeper {α : Type} {levels more : Nat} {routine full : Routine α} :
    ComposedAfter [] levels more routine full (fun _ => []) →
    ComposedAfter [] (levels + 1) (more + 1) (Routine.deeper routine) (Routine.deeper full)
      fun _ => []
  | refuse {α : Type} {production : String} :
    ComposedAfter [] 0 0 (Routine.refuse production : Routine α) (Routine.refuse production)
      fun _ => []
  /-- With more levels, one is opened where otherwise it is refused. -/
  | cut {α : Type} {more : Nat} {production : String} {full : Routine α} :
    ComposedAfter [] more more full full (fun _ => []) →
    ComposedAfter [] 0 (more + 1) (Routine.refuse production) (Routine.deeper full) fun _ => []

/-- A routine that opens at most `levels` levels inside each other, and the same routine with `more`
levels. Before and after them no tokens are there to be handed back. -/
abbrev Composed (levels more : Nat) (routine full : Routine α) : Prop :=
  ComposedAfter [] levels more routine full fun _ => []

section

variable {taken : List Token} {levels more : Nat} {routine full : Routine α}

/-- One routine after the other. -/
theorem Composed.bind {f g : α → Routine β} (h : Composed levels more routine full)
    (hf : ∀ a, Composed levels more (f a) (g a)) :
    Composed levels more (routine >>= f) (full >>= g) :=
  ComposedAfter.bind h hf

/-- The note that a production is entered. -/
theorem Composed.enter (production : Production) (h : Composed levels more routine full) :
    Composed levels more (Routine.enter production >>= fun _ => routine)
      (Routine.enter production >>= fun _ => full) :=
  ComposedAfter.bind .enter fun _ => h

/-- Tokens that were taken before are not handed back. -/
theorem ComposedAfter.of_composed (h : Composed levels more routine full) :
    ComposedAfter taken levels more routine full fun _ => [] :=
  .forget h

/-! ## Single tokens -/

/-- A token that is checked on the spot. -/
theorem ComposedAfter.check {check : Token → Except Error Token}
    (h : ∀ token, check token = .ok token ∨ ∃ error, check token = .error error ∧ error.IsSyntax) :
    ComposedAfter taken levels more (do ofExcept (check (← Routine.next)))
      (do ofExcept (check (← Routine.next))) fun token => taken ++ [token] := by
  refine .bind .next fun token => ?_
  rcases h token with hok | ⟨error, herror, hsyn⟩
  · rw [hok]
    exact .pure rfl
  · rw [herror]
    exact .fail hsyn

theorem ComposedAfter.expect (kind : Kind) (production : String) :
    ComposedAfter taken levels more (Routine.expect kind production)
      (Routine.expect kind production) fun token => taken ++ [token] := by
  refine .check fun token => ?_
  unfold Token.expectKind
  split
  · exact .inl rfl
  · exact .inr ⟨_, rfl, rfl⟩

theorem ComposedAfter.expectSingle (text production : String) :
    ComposedAfter taken levels more (Routine.expectSingle text production)
      (Routine.expectSingle text production) fun token => taken ++ [token] := by
  refine .check fun token => ?_
  unfold Token.expectWord
  split
  · exact .inl rfl
  · exact .inr ⟨_, rfl, rfl⟩

theorem ComposedAfter.peek :
    ComposedAfter taken levels more Routine.peek Routine.peek fun _ => taken :=
  .bind .next fun _ => .bind .pushBack fun _ => .pure rfl

/-- No alternative starts with the token taken last. -/
theorem ComposedAfter.noAlternative (production : Production) (expected : String) (token : Token)
    {left : α → List Token} :
    ComposedAfter taken levels more (Routine.noAlternative production expected token)
      (Routine.noAlternative production expected token) left :=
  .fail rfl

theorem Composed.expect (kind : Kind) (production : String) :
    Composed levels more (Routine.expect kind production) (Routine.expect kind production) :=
  .forget (.expect kind production)

theorem Composed.expectSingle (text production : String) :
    Composed levels more (Routine.expectSingle text production)
      (Routine.expectSingle text production) :=
  .forget (.expectSingle text production)

/-! ## Repetition -/

theorem Composed.repeatFor (h : Composed levels more routine full) (calls : Token → Bool)
    (items : List α) (turns : List Token) :
    Composed levels more (Routine.repeatFor calls routine items turns)
      (Routine.repeatFor calls full items turns) := by
  induction turns generalizing items with
  | nil => exact .pure rfl
  | cons turn turns ih =>
    refine ComposedAfter.bind .peek fun next => ?_
    split
    · exact .bind h fun a => ih (a :: items)
    · exact .pure rfl

theorem Composed.repeatWhile {calls : Token → Bool} (h : Composed levels more routine full)
    (hadvances : Routine.Advances calls routine) :
    Composed levels more (Routine.repeatWhile calls routine) (Routine.repeatWhile calls full) :=
  ComposedAfter.repeatWhile (h.repeatFor calls []) h hadvances

/-- What is given under a name. -/
theorem Composed.map (h : Composed levels more routine full) (make : α → β) :
    Composed levels more (make <$> routine) (make <$> full) :=
  .bind (g := fun a => pure (make a)) h fun _ => .pure rfl

/-! ## Series -/

theorem Reads.advances {form : Form α} {calls : Token → Bool}
    (h : Reads levels more routine full form.reading) (hendless : form.Endless)
    (hne : ∀ tree, form.words tree ≠ []) : routine.Advances calls := by
  intro parser tree after _ hrun
  obtain ⟨tokens, hseq, hwords, -⟩ := h.sound hrun
  refine ⟨tokens, ?_, hseq, fun token hmem => hendless.kind_ne hwords hmem⟩
  rintro rfl
  exact hne tree hwords.symm

/-- A separator and an item after it. -/
theorem Reads.advances_separator {form : Form α}
    (h : Reads levels more routine full form.reading) (hendless : form.Endless)
    (separator : String) :
    Routine.Advances (·.isSingle separator) (Routine.next >>= fun _ => routine) := by
  intro parser tree after hcalls hrun
  obtain ⟨token, p, hp, hseq, -⟩ := Routine.next_apply parser
  rw [Routine.bind_apply, hp] at hrun
  obtain ⟨tokens, htokens, hwords, -⟩ := h.sound hrun
  rw [Stream'.nil_append_stream] at htokens
  refine ⟨token :: tokens, List.cons_ne_nil _ _, ?_, List.forall_mem_cons.mpr
    ⟨?_, fun token hmem => hendless.kind_ne hwords hmem⟩⟩
  · rw [hseq, htokens]
    rfl
  · have hhead : parser.sequence.head = token := congrArg Stream'.head hseq
    rw [hhead, Word.isSingle_iff] at hcalls
    rw [hcalls]
    exact Kind.noConfusion

theorem Composed.separated {form : Form α} (separator : String)
    (h : Composed levels more routine full) (hreads : Reads levels more routine full form.reading)
    (hendless : form.Endless) :
    Composed levels more (Series.parse separator routine) (Series.parse separator full) :=
  .bind h fun _ => .bind (.repeatWhile (ComposedAfter.bind .next fun _ => .of_composed h)
    (hreads.advances_separator hendless separator)) fun _ => .pure rfl

theorem Composed.run {form : Form α} (ends : Token → Bool) (h : Composed levels more routine full)
    (hreads : Reads levels more routine full form.reading) (hendless : form.Endless)
    (hne : ∀ tree, form.words tree ≠ []) :
    Composed levels more (Series.parseUntil ends routine) (Series.parseUntil ends full) :=
  .bind h fun _ => .bind (.repeatWhile h (hreads.advances hendless hne)) fun _ => .pure rfl

theorem Composed.between {routine full : Routine (Series α)} (opening closing production : String)
    (h : Composed levels more routine full) :
    Composed levels more (Series.parseBetween opening closing production routine)
      (Series.parseBetween opening closing production full) := by
  have hunless : Composed levels more (Series.parseUnless closing routine)
      (Series.parseUnless closing full) := by
    refine ComposedAfter.bind .peek fun next => ?_
    split
    · exact .pure rfl
    · exact .bind h fun _ => .pure rfl
  exact .bind (.expectSingle opening production) fun _ => .bind hunless fun _ =>
    .bind (.expectSingle closing production) fun _ => .pure rfl

/-! ## Levels -/

/-- A routine is put together in this way if it is so with a level less inside. -/
theorem Composed.of_inside (routines inner : Nat → Routine α)
    (hzero : Composed 0 0 (routines 0) (routines 0))
    (hcut : ∀ {m}, Composed m m (inner m) (inner m) →
      Composed 0 (m + 1) (routines 0) (routines (m + 1)))
    (hdeeper : ∀ {n m}, Composed n m (inner n) (inner m) →
      Composed (n + 1) (m + 1) (routines (n + 1)) (routines (m + 1)))
    (hle : levels ≤ more)
    (hinner : ∀ {n m}, n ≤ m → m < more → Composed n m (inner n) (inner m)) :
    Composed levels more (routines levels) (routines more) := by
  cases more with
  | zero =>
    obtain rfl := Nat.le_zero.mp hle
    exact hzero
  | succ more =>
    cases levels with
    | zero => exact hcut (hinner le_rfl (Nat.lt_succ_self more))
    | succ levels =>
      exact hdeeper (hinner (Nat.le_of_succ_le_succ hle) (Nat.lt_succ_self more))

end

end FrappeSyntax
