import FrappeSyntax.Proofs.ProductionComposition
import FrappeSyntax.Session

/-!
# The depth of a parser

The depth counts the levels that are open and those that were refused. A routine for a production
closes the levels that it opens, whether it fails or not. It refuses at most one level, and fails if
it does; the depth is then one more than before, however deep the refusal was.

* `Routine.Balanced`: a routine leaves the depth as this says.
* `ComposedAfter.balanced`: routines that are put together from tokens and levels do so.
* `Routine.Reaches`, `Step.Reaches`: a point of a run and of a session, with the levels that are
  open there.
* `Step.depth_of_reaches`: the depth at each point of a session.
-/

namespace FrappeSyntax

/-! ## Refusals -/

/-- Holds for the causes that tell that a level was refused. -/
def Cause.isRefusal : Cause → Bool
  | recursionLimitExceeded _ => true
  | deadlineExceeded => true
  | _ => false

/-- Holds for the events that tell that a level was refused. -/
def Event.isRefusal : Event → Bool
  | refused .. => true
  | _ => false

/-- The number of levels that an error tells were refused. -/
def Error.refusals (error : Error) : Nat := if error.cause.isRefusal then 1 else 0

/-- The number of levels that were refused so far. Those that were too deep are in the log; for the
others the clock was looked at, and the time was over. -/
def Parser.refused (parser : Parser) : Nat :=
  parser.log.countP Event.isRefusal + (List.range parser.looks).countP parser.limits.isExpired

theorem Error.IsSyntax.refusals_eq {error : Error} (h : error.IsSyntax) : error.refusals = 0 := by
  obtain ⟨cause, position⟩ := error
  cases cause with
  | recursionLimitExceeded | deadlineExceeded => cases h
  | _ => rfl

namespace Parser

theorem refused_note (parser : Parser) (event : Event) :
    (parser.note event).refused = parser.refused + if event.isRefusal then 1 else 0 := by
  show List.countP _ (event :: parser.log) + _ = _
  rw [List.countP_cons, Nat.add_right_comm]
  rfl

/-- At a look at the clock a level is refused if the time is over. -/
theorem refused_opened (parser : Parser) :
    parser.opened.refused =
      parser.refused + if parser.limits.isExpired parser.looks then 1 else 0 := by
  show _ + List.countP _ (List.range (parser.looks + 1)) = _
  rw [List.range_succ, List.countP_append, List.countP_singleton, ← Nat.add_assoc]
  rfl

/-! ## Balance -/

/-- Between two states of a parser `count` levels were refused, and all that were opened are closed
again. -/
structure Spent (before after : Parser) (count : Nat) : Prop where
  limits : after.limits = before.limits
  depth : after.depth = before.depth + count
  refused : after.refused = before.refused + count

theorem Spent.refl (parser : Parser) : parser.Spent parser 0 := ⟨rfl, rfl, rfl⟩

theorem Spent.trans {before middle after : Parser} {count count' : Nat}
    (h : before.Spent middle count) (h' : middle.Spent after count') :
    before.Spent after (count + count') where
  limits := h'.limits.trans h.limits
  depth := by rw [h'.depth, h.depth, Nat.add_assoc]
  refused := by rw [h'.refused, h.refused, Nat.add_assoc]

/-- A level was opened in time, and is closed. -/
theorem Spent.lower {parser after : Parser} {count : Nat}
    (hexpired : parser.limits.isExpired parser.looks = false)
    (h : parser.opened.Spent after count) : parser.Spent after.lower count where
  limits := h.limits
  depth := by
    show after.depth - 1 = _
    rw [h.depth]
    show parser.depth + 1 + count - 1 = _
    omega
  refused := by
    show after.refused = _
    rw [h.refused, refused_opened, hexpired]
    rfl

end Parser

namespace Routine

/-- A routine that gives a result refuses no level, and one that fails refuses one level if the
error tells so, else none. All levels that it opens it closes. -/
structure Balanced (routine : Routine α) : Prop where
  ok : ∀ {parser result after}, routine parser = .ok result after → parser.Spent after 0
  error : ∀ {parser error after}, routine parser = .error error after →
    parser.Spent after error.refusals

/-- A level is refused because of the limit. -/
theorem spent_refused (production : String) (parser : Parser) :
    parser.Spent (parser.raise.note (.refused production (parser.depth + 1))).peeked 1 :=
  ⟨rfl, rfl, parser.raise.refused_note _⟩

/-- A level is refused because of the time. -/
theorem spent_opened {parser : Parser} (h : parser.limits.isExpired parser.looks = true) :
    parser.Spent parser.opened.peeked 1 := by
  refine ⟨rfl, rfl, ?_⟩
  show parser.opened.refused = _
  rw [Parser.refused_opened, h]
  rfl

theorem Balanced.refuse (production : String) : (refuse production : Routine α).Balanced where
  ok h := by
    rw [refuse_eq] at h
    cases h
  error := by
    intro parser error after h
    rw [refuse_eq] at h
    cases h
    exact spent_refused production parser

theorem Balanced.bind {routine : Routine α} {f : α → Routine β} (h : routine.Balanced)
    (hf : ∀ a, (f a).Balanced) : (routine >>= f).Balanced where
  ok := by
    intro parser result after hrun
    obtain ⟨a, p, hr, hrun⟩ := ok_of_bind hrun
    exact (h.ok hr).trans ((hf a).ok hrun)
  error := by
    intro parser error after hrun
    rcases error_of_bind hrun with hr | ⟨a, p, hr, hrun⟩
    · exact h.error hr
    · have hspent := (h.ok hr).trans ((hf a).error hrun)
      rwa [Nat.zero_add] at hspent

/-- A level is opened and closed, or refused because of the time. -/
theorem Balanced.deeper {routine : Routine α} (h : routine.Balanced) :
    (deeper routine).Balanced where
  ok := by
    intro parser result after hrun
    obtain ⟨hexpired, inside, hinside, rfl⟩ := ok_of_deeper hrun
    exact (h.ok hinside).lower hexpired
  error := by
    intro parser error after hrun
    rcases error_of_deeper hrun with ⟨hexpired, rfl, rfl⟩ | ⟨hexpired, inside, hinside, rfl⟩
    · exact spent_opened hexpired
    · exact (h.error hinside).lower hexpired

/-- A routine that never fails and touches nothing but the tokens and what is not counted. -/
theorem Balanced.of_ok {routine : Routine α}
    (h : ∀ parser, ∃ result after, routine parser = .ok result after ∧ parser.Spent after 0) :
    routine.Balanced where
  ok := by
    intro parser result after hrun
    obtain ⟨_, _, hok, hspent⟩ := h parser
    rw [hok] at hrun
    cases hrun
    exact hspent
  error := by
    intro parser error after hrun
    obtain ⟨_, _, hok, -⟩ := h parser
    rw [hok] at hrun
    cases hrun

end Routine

/-- Routines that are put together from tokens and levels are balanced. -/
theorem ComposedAfter.balanced {taken : List Token} {levels more : Nat} {routine full : Routine α}
    {left : α → List Token} (h : ComposedAfter taken levels more routine full left) :
    routine.Balanced := by
  induction h with
  | pure => exact .of_ok fun parser => ⟨_, _, rfl, .refl parser⟩
  | fail hsyn =>
    refine ⟨?_, ?_⟩
    · rintro parser result after ⟨⟩
    · rintro parser error after ⟨⟩
      rw [hsyn.refusals_eq]
      exact .refl parser
  | next | pushBack => exact .of_ok fun parser => ⟨_, _, rfl, rfl, rfl, rfl⟩
  | enter =>
    exact .of_ok fun parser => ⟨_, _, rfl, rfl, rfl, parser.refused_note (.entered _)⟩
  | forget _ ih => exact ih
  | bind _ _ ih ih' => exact .bind ih ih'
  | repeatWhile _ _ _ ih =>
    -- the tokens to come decide how many turns there are
    exact ⟨fun hrun => (ih _).ok hrun, fun hrun => (ih _).error hrun⟩
  | deeper _ ih => exact .deeper ih
  | refuse | cut => exact .refuse _

theorem Routine.pushBack_balanced (token : Token) : (pushBack token).Balanced :=
  .of_ok fun _ => ⟨_, _, rfl, rfl, rfl, rfl⟩

theorem Routine.peek_balanced : peek.Balanced := .of_ok fun _ => ⟨_, _, rfl, rfl, rfl, rfl⟩

theorem Routine.expect_balanced (kind : Kind) (production : String) :
    (expect kind production).Balanced :=
  have h : Composed 0 0 (expect kind production) (expect kind production) := .expect kind production
  h.balanced

theorem Routine.expectSingle_balanced (text production : String) :
    (expectSingle text production).Balanced :=
  have h : Composed 0 0 (expectSingle text production) (expectSingle text production) :=
    .expectSingle text production
  h.balanced

/-- A routine that may open all the levels there are is balanced, if it is with any number of
levels. -/
theorem Routine.Balanced.withLevels {routine : Nat → Routine α}
    (h : ∀ levels, (routine levels).Balanced) : (withLevels routine).Balanced :=
  ⟨fun {parser} _ _ hrun => (h parser.levels).ok hrun,
    fun {parser} _ _ hrun => (h parser.levels).error hrun⟩

theorem Production.balanced (production : Production) : production.parse.Balanced :=
  .withLevels fun _ => (production.composed le_rfl).balanced

theorem Fragment.block_balanced (label : String) : (parseBlock label).Balanced := by
  rw [parseBlock_eq]
  exact .withLevels fun _ => ((Statement.block_composed le_rfl label).map _).balanced

/-! ## Points of a run -/

namespace Routine

/-- Running a routine from a parser comes to running `inner` from `point`, with `opened` of the
levels open that the run has opened. -/
inductive Reaches {β : Type} (inner : Routine β) (point : Parser) :
    {α : Type} → Routine α → Parser → (opened : Nat) → Prop
  | here : Reaches inner point inner point 0
  | first {α γ : Type} {routine : Routine α} {f : α → Routine γ} {parser : Parser} {opened : Nat} :
    Reaches inner point routine parser opened → Reaches inner point (routine >>= f) parser opened
  /-- A routine is a function, and one function is put together from two parts in many ways: it can
  be cut anywhere, be it right after a level is counted and before it is open. Only where the first
  part is balanced does `opened` tell the levels that are open at the cut. -/
  | rest {α γ : Type} {routine : Routine α} {f : α → Routine γ} {parser after : Parser} {result : α}
    {opened : Nat} : routine.Balanced → routine parser = .ok result after →
    Reaches inner point (f result) after opened → Reaches inner point (routine >>= f) parser opened
  | inside {α : Type} {routine : Routine α} {parser : Parser} {opened : Nat} :
    parser.limits.isExpired parser.looks = false →
    Reaches inner point routine parser.opened opened →
    Reaches inner point (deeper routine) parser (opened + 1)

variable {β : Type} {inner : Routine β} {routine : Routine α} {parser point : Parser} {opened : Nat}

/-- Up to each of its points a run has counted the levels that are open, and refused none. -/
theorem Reaches.counts (h : Reaches inner point routine parser opened) :
    point.limits = parser.limits ∧ point.depth = parser.depth + opened ∧
      point.refused = parser.refused := by
  induction h with
  | here => exact ⟨rfl, rfl, rfl⟩
  | first _ ih => exact ih
  | rest hbalanced hrun _ ih =>
    obtain ⟨hlimits, hdepth, hrefused⟩ := ih
    have hspent := hbalanced.ok hrun
    exact ⟨hlimits.trans hspent.limits, by rw [hdepth, hspent.depth, Nat.add_zero],
      hrefused.trans hspent.refused⟩
  | @inside _ _ parser opened hexpired _ ih =>
    obtain ⟨hlimits, hdepth, hrefused⟩ := ih
    refine ⟨hlimits, ?_, ?_⟩
    · rw [hdepth]
      show parser.depth + 1 + opened = _
      omega
    · rw [hrefused, Parser.refused_opened, hexpired]
      rfl

theorem Reaches.limits_eq (h : Reaches inner point routine parser opened) :
    point.limits = parser.limits := h.counts.1

theorem Reaches.depth_eq (h : Reaches inner point routine parser opened) :
    point.depth = parser.depth + opened := h.counts.2.1

theorem Reaches.refused_eq (h : Reaches inner point routine parser opened) :
    point.refused = parser.refused := h.counts.2.2

end Routine

/-! ## Sessions -/

theorem Routine.nested_of_levels_eq_zero {parser : Parser} (h : parser.levels = 0)
    (production : String) (routine : Routine α) :
    nested production routine parser = refuse production parser := by
  have hget : (get : Routine Parser) parser = .ok parser parser := rfl
  rw [nested, bind_apply, hget]
  dsimp only
  rw [h]

theorem Routine.nested_of_levels_eq_succ {parser : Parser} {levels : Nat}
    (h : parser.levels = levels + 1) (production : String) (routine : Routine α) :
    nested production routine parser = deeper routine parser := by
  have hget : (get : Routine Parser) parser = .ok parser parser := rfl
  rw [nested, bind_apply, hget]
  dsimp only
  rw [h]

namespace Step

/-- A session comes to a point, with `opened` of the levels open that it has opened: at the start,
after each step, inside a step that runs one level deeper, and within the routine for a production
or for a block. -/
inductive Reaches : List Token → Parser → List Step → Nat → Parser → Prop
  | here {held : List Token} {parser : Parser} {steps : List Step} :
    Reaches held parser steps 0 parser
  | later {held : List Token} {parser point : Parser} {step : Step} {steps : List Step}
    {opened : Nat} :
    Reaches (run held parser step).2.1 (run held parser step).2.2 steps opened point →
    Reaches held parser (step :: steps) opened point
  | inside {held : List Token} {parser point : Parser} {production : String}
    {inner steps : List Step} {opened : Nat} : parser.levels ≠ 0 →
    parser.limits.isExpired parser.looks = false → Reaches [] parser.opened inner opened point →
    Reaches held parser (nested production inner :: steps) (opened + 1) point
  | within {β : Type} {routine : Routine β} {held : List Token} {parser point : Parser}
    {production : Production} {steps : List Step} {opened : Nat} :
    routine.Reaches point (production.parseAt parser.levels) parser opened →
    Reaches held parser (parse production :: steps) opened point
  | withinBlock {β : Type} {routine : Routine β} {held : List Token} {parser point : Parser}
    {label : String} {steps : List Step} {opened : Nat} :
    routine.Reaches point (Statement.parseBlock parser.levels label) parser opened →
    Reaches held parser (parseBlock label :: steps) opened point

theorem exists_spent_perform {routine : Routine α} (h : routine.Balanced)
    (outcome : α → StepOutcome) (held : List Token) (parser : Parser) :
    ∃ count, parser.Spent (perform routine outcome held parser).2.2 count := by
  unfold perform
  cases hr : routine parser with
  | ok result after => exact ⟨0, h.ok hr⟩
  | error error after => exact ⟨error.refusals, h.error hr⟩

/-- Steps that run one level deeper never fail themselves, so the levels that they refused are
counted, and the one that was opened is closed. -/
theorem exists_spent_nested {routine : Routine α} (production : String) (parser : Parser)
    (h : ∃ result after count, routine parser.opened = .ok result after ∧
      parser.opened.Spent after count) (outcome : α → StepOutcome) (held : List Token) :
    ∃ count, parser.Spent
      (perform (Routine.nested production routine) outcome held parser).2.2 count := by
  unfold perform
  cases hlevels : parser.levels with
  | zero =>
    rw [Routine.nested_of_levels_eq_zero hlevels, Routine.refuse_eq]
    exact ⟨1, Routine.spent_refused production parser⟩
  | succ levels =>
    rw [Routine.nested_of_levels_eq_succ hlevels]
    cases hexpired : parser.limits.isExpired parser.looks with
    | true =>
      rw [Routine.deeper_eq_error hexpired]
      exact ⟨1, Routine.spent_opened hexpired⟩
    | false =>
      obtain ⟨result, after, count, hrun, hspent⟩ := h
      rw [Routine.deeper_eq_thenLower hexpired, Routine.thenLower, hrun]
      exact ⟨count, hspent.lower hexpired⟩

mutual

/-- A step refuses some levels, and closes those that it opens. -/
theorem exists_spent_run (held : List Token) (parser : Parser) :
    ∀ step : Step, ∃ count, parser.Spent (run held parser step).2.2 count
  | next => ⟨0, rfl, rfl, rfl⟩
  | unread => by
    cases held with
    | nil => exact ⟨0, .refl parser⟩
    | cons token held =>
      exact exists_spent_perform (Routine.pushBack_balanced token) _ held parser
  | peek => exists_spent_perform Routine.peek_balanced _ held parser
  | pushBack token => exists_spent_perform (Routine.pushBack_balanced token) _ held parser
  | expect kind production =>
    exists_spent_perform (Routine.expect_balanced kind production) _ held parser
  | expectSingle text production =>
    exists_spent_perform (Routine.expectSingle_balanced text production) _ held parser
  | parse production => exists_spent_perform production.balanced _ held parser
  | parseBlock production =>
    exists_spent_perform (Fragment.block_balanced production) _ held parser
  | nested production steps => by
    obtain ⟨count, hspent⟩ := exists_spent_runAll [] parser.opened steps
    let inner : Routine (List (StepRecord StepOutcome)) := fun parser =>
      .ok (runAll [] parser steps).1 (runAll [] parser steps).2
    have hinner : ∃ result after count, inner parser.opened = .ok result after ∧
      parser.opened.Spent after count := ⟨_, _, count, rfl, hspent⟩
    exact exists_spent_nested production parser hinner .steps held

theorem exists_spent_runAll (held : List Token) (parser : Parser) :
    ∀ steps : List Step, ∃ count, parser.Spent (runAll held parser steps).2 count
  | [] => ⟨0, .refl parser⟩
  | step :: steps => by
    obtain ⟨count, hstep⟩ := exists_spent_run held parser step
    obtain ⟨count', hsteps⟩ :=
      exists_spent_runAll (run held parser step).2.1 (run held parser step).2.2 steps
    exact ⟨count + count', hstep.trans hsteps⟩

end

/-- From any state on, the depth rises with the levels that are open and those that are refused. -/
theorem Reaches.exists_depth_eq {held : List Token} {parser point : Parser} {steps : List Step}
    {opened : Nat} (h : Reaches held parser steps opened point) :
    ∃ count, point.depth = parser.depth + opened + count ∧
      point.refused = parser.refused + count := by
  induction h with
  | here => exact ⟨0, rfl, rfl⟩
  | @later held parser point step steps opened _ ih =>
    obtain ⟨count, hspent⟩ := exists_spent_run held parser step
    obtain ⟨count', hdepth, hrefused⟩ := ih
    refine ⟨count + count', ?_, ?_⟩
    · rw [hdepth, hspent.depth]
      omega
    · rw [hrefused, hspent.refused, Nat.add_assoc]
  | @inside held parser point production inner steps opened _ hexpired _ ih =>
    obtain ⟨count, hdepth, hrefused⟩ := ih
    refine ⟨count, ?_, ?_⟩
    · rw [hdepth]
      show parser.depth + 1 + opened + count = _
      omega
    · rw [hrefused, Parser.refused_opened, hexpired]
      rfl
  | within h | withinBlock h => exact ⟨0, h.depth_eq, h.refused_eq⟩

/-- At each point of a session with a fresh parser the depth is the number of open levels and of
those that were refused so far. Each routine for a production, and for a block, leaves the depth as
it was, unless its error tells that it refused a level: then it refused one, and the depth is one
more. -/
theorem depth_of_reaches (stream : TokenStream) (limits : Limits) :
    (∀ steps opened point, Reaches [] (.ofStream stream limits) steps opened point →
      point.depth = opened + point.refused) ∧
    (∀ production : Production, production.parse.Balanced) ∧
    ∀ label, (Fragment.parseBlock label).Balanced := by
  refine ⟨?_, Production.balanced, Fragment.block_balanced⟩
  intro steps opened point h
  obtain ⟨count, hdepth, hrefused⟩ := h.exists_depth_eq
  have hfresh : (Parser.ofStream stream limits).depth = 0 ∧
    (Parser.ofStream stream limits).refused = 0 := ⟨rfl, rfl⟩
  omega

/-- Where one level may be open, the steps inside a level are refused a second one. Two levels are
counted then: the one that is open and the one that was refused. -/
theorem depth_of_reaches_refused :
    ∃ point, Reaches [] (.ofStream (.ofTokens [] "a") { maxDepth := 1 })
        [nested "outer" [parse .expression]] 1 point ∧
      point.depth = 1 + point.refused ∧ point.depth = 2 := by
  let start : Parser := .ofStream (.ofTokens [] "a") { maxDepth := 1 }
  let point : Parser := (run [] start.opened (parse .expression)).2.2
  have hreaches : Reaches [] start [nested "outer" [parse .expression]] 1 point :=
    .inside (by decide) rfl (.later .here)
  exact ⟨point, hreaches, (depth_of_reaches _ _).1 _ _ _ hreaches, by decide +kernel⟩

end Step

end FrappeSyntax
