import FrappeSyntax.Proofs.Acceptance
import FrappeSyntax.Proofs.Consumption
import FrappeSyntax.Proofs.ProductionComposition

/-!
# Tokens handed back

A token that was handed back is as good as one that was never taken. Two parsers that will read the
same tokens, with the same levels and the same time left, give the same, log the same, and are again
two such parsers afterwards. How many tokens were handed back, and how many of the source are not
drawn yet, does not matter.

* `Parser.Alike`: two parsers that differ only in where their tokens are.
* `Parser.Agree`: what two runs have in common.
* `Routine.repeatFor_congr_turns`: a loop does not depend on its turns, if there are enough of them.
* `ComposedAfter.agrees`: routines that are put together from tokens and levels do the same from
  parsers that are alike.
* `Parser.agree_of_alike`: the routines for all productions do so, and a parse of tokens that were
  handed back is a parse of these tokens.
-/

namespace FrappeSyntax

/-! ## Parsers that are alike -/

/-- Two parsers will read the same tokens, with the same limit on depth, the same depth, and a clock
that will show at the same looks that the time is over. -/
structure Parser.Alike (parser parser' : Parser) : Prop where
  sequence : parser.sequence = parser'.sequence
  maxDepth : parser.limits.maxDepth = parser'.limits.maxDepth
  depth : parser.depth = parser'.depth
  clock : ∀ looks, parser.limits.isExpired (parser.looks + looks) =
    parser'.limits.isExpired (parser'.looks + looks)

/-- With the same limits and the same depth, it is enough that no deadline is set, or that the clock
was looked at as often. -/
theorem Parser.alike_of_limits_eq {parser parser' : Parser}
    (hsequence : parser.sequence = parser'.sequence) (hlimits : parser.limits = parser'.limits)
    (hdepth : parser.depth = parser'.depth)
    (hclock : parser.limits.deadline = none ∨ parser.looks = parser'.looks) :
    parser.Alike parser' := by
  refine ⟨hsequence, congrArg Limits.maxDepth hlimits, hdepth, fun looks => ?_⟩
  rw [← hlimits]
  rcases hclock with hfree | hlooks
  · rw [Limits.isExpired_of_deadline_eq_none hfree, Limits.isExpired_of_deadline_eq_none hfree]
  · rw [hlooks]

/-- Two runs, from two parsers, give the same and log the same, and the parsers afterwards are
alike. -/
def Parser.Agree (parser parser' : Parser) (outcome outcome' : Except Error α × Parser) : Prop :=
  outcome.1 = outcome'.1 ∧ outcome.2.Alike outcome'.2 ∧
    ∃ events, outcome.2.log = events ++ parser.log ∧ outcome'.2.log = events ++ parser'.log

/-- The same for what routines give. -/
inductive Routine.Agrees (parser parser' : Parser) :
    EStateM.Result Error Parser α → EStateM.Result Error Parser α → Prop
  | ok {result : α} {after after' : Parser} (events : List Event) : after.Alike after' →
    after.log = events ++ parser.log → after'.log = events ++ parser'.log →
    Agrees parser parser' (.ok result after) (.ok result after')
  | error {error : Error} {after after' : Parser} (events : List Event) : after.Alike after' →
    after.log = events ++ parser.log → after'.log = events ++ parser'.log →
    Agrees parser parser' (.error error after) (.error error after')

namespace Parser.Alike

variable {parser parser' : Parser}

theorem refl (parser : Parser) : parser.Alike parser := ⟨rfl, rfl, rfl, fun _ => rfl⟩

theorem trans {parser'' : Parser} (h : parser.Alike parser') (h' : parser'.Alike parser'') :
    parser.Alike parser'' :=
  ⟨h.sequence.trans h'.sequence, h.maxDepth.trans h'.maxDepth, h.depth.trans h'.depth,
    fun looks => (h.clock looks).trans (h'.clock looks)⟩

theorem levels (h : parser.Alike parser') : parser.levels = parser'.levels := by
  rw [Parser.levels, Parser.levels, h.maxDepth, h.depth]

theorem isExpired (h : parser.Alike parser') :
    parser.limits.isExpired parser.looks = parser'.limits.isExpired parser'.looks := h.clock 0

theorem note (h : parser.Alike parser') (event : Event) :
    (parser.note event).Alike (parser'.note event) :=
  ⟨h.sequence, h.maxDepth, h.depth, h.clock⟩

theorem peeked (h : parser.Alike parser') : parser.peeked.Alike parser'.peeked := by
  refine ⟨?_, h.maxDepth, h.depth, h.clock⟩
  rw [parser.sequence_peeked, parser'.sequence_peeked, h.sequence]

theorem raise (h : parser.Alike parser') : parser.raise.Alike parser'.raise :=
  ⟨h.sequence, h.maxDepth, congrArg (· + 1) h.depth, h.clock⟩

theorem lower (h : parser.Alike parser') : parser.lower.Alike parser'.lower :=
  ⟨h.sequence, h.maxDepth, congrArg (· - 1) h.depth, h.clock⟩

theorem opened (h : parser.Alike parser') : parser.opened.Alike parser'.opened := by
  refine ⟨h.sequence, h.maxDepth, congrArg (· + 1) h.depth, fun looks => ?_⟩
  show parser.limits.isExpired (parser.looks + 1 + looks) =
    parser'.limits.isExpired (parser'.looks + 1 + looks)
  rw [Nat.add_assoc, Nat.add_assoc]
  exact h.clock (1 + looks)

end Parser.Alike

/-! ## Loops -/

namespace Routine

/-- The items that were read before come first. -/
theorem repeatFor_eq_map (calls : Token → Bool) (item : Routine α) (items : List α)
    (turns : List Token) :
    repeatFor calls item items turns = (items.reverse ++ ·) <$> repeatFor calls item [] turns := by
  induction turns generalizing items with
  | nil => simp [repeatFor]
  | cons turn turns ih =>
    rw [repeatFor, repeatFor, map_bind]
    refine congrArg (peek >>= ·) (funext fun next => ?_)
    split
    · rw [map_bind]
      refine congrArg (item >>= ·) (funext fun a => ?_)
      rw [ih (a :: items), ih [a], Functor.map_map]
      simp
    · simp

theorem repeatFor_eq_of_calls {calls : Token → Bool} {parser : Parser}
    (h : calls parser.sequence.head = true) (item : Routine α) (items : List α) (turn : Token)
    (turns : List Token) :
    repeatFor calls item items (turn :: turns) parser =
      (item >>= fun a => repeatFor calls item (a :: items) turns) parser.peeked := by
  rw [repeatFor, bind_apply, peek_eq]
  dsimp only
  rw [if_pos h]

/-- As long as the turns last, a loop does not depend on their number. -/
theorem repeatFor_congr_turns {calls : Token → Bool} {item : Routine α} (h : item.Advances calls)
    {turns turns' : List Token} {items : List α} {parser : Parser}
    (hend : EndsWithin parser.sequence turns.length)
    (hend' : EndsWithin parser.sequence turns'.length) :
    repeatFor calls item items turns parser = repeatFor calls item items turns' parser := by
  induction turns generalizing turns' items parser with
  | nil => exact absurd hend (not_endsWithin_zero _)
  | cons turn turns ih =>
    cases turns' with
    | nil => exact absurd hend' (not_endsWithin_zero _)
    | cons turn' turns' =>
      rw [repeatFor, repeatFor, bind_apply, bind_apply, peek_eq]
      dsimp only
      split
      case isFalse => rfl
      case isTrue hcalls =>
        rw [bind_apply, bind_apply]
        rw [← parser.sequence_peeked] at hcalls hend hend'
        cases hr : item parser.peeked with
        | error error after => rfl
        | ok a after =>
          -- each item brings the end closer
          obtain ⟨tokens, hne, hseq, hkind⟩ := h _ _ _ hcalls hr
          exact ih (hend.after hseq hne hkind) (hend'.after hseq hne hkind)

variable {parser parser' : Parser}

/-! ## One routine after the other -/

/-- What two runs log adds to what was logged before. -/
theorem Agrees.after {outcome outcome' : EStateM.Result Error Parser α} {after after' : Parser}
    {events : List Event} (hlog : after.log = events ++ parser.log)
    (hlog' : after'.log = events ++ parser'.log) (h : Agrees after after' outcome outcome') :
    Agrees parser parser' outcome outcome' := by
  rcases h with ⟨more, halike, hmore, hmore'⟩ | ⟨more, halike, hmore, hmore'⟩
  · exact .ok (more ++ events) halike (by rw [hmore, hlog, List.append_assoc])
      (by rw [hmore', hlog', List.append_assoc])
  · exact .error (more ++ events) halike (by rw [hmore, hlog, List.append_assoc])
      (by rw [hmore', hlog', List.append_assoc])

theorem Agrees.bind {routine : Routine α} {f : α → Routine β}
    (h : Agrees parser parser' (routine parser) (routine parser'))
    (hf : ∀ result {after after' : Parser}, after.Alike after' →
      Agrees after after' (f result after) (f result after')) :
    Agrees parser parser' ((routine >>= f) parser) ((routine >>= f) parser') := by
  rw [bind_apply, bind_apply]
  revert h
  generalize routine parser = outcome, routine parser' = outcome'
  rintro (⟨events, halike, hlog, hlog'⟩ | ⟨events, halike, hlog, hlog'⟩)
  · exact .after hlog hlog' (hf _ halike)
  · exact .error events halike hlog hlog'

/-! ## Levels -/

/-- A level is refused to both parsers. -/
theorem Agrees.refuse (h : parser.Alike parser') (production : String) :
    Agrees parser parser' ((refuse production : Routine α) parser) (refuse production parser') := by
  rw [refuse_eq, refuse_eq, h.maxDepth, h.sequence, h.depth]
  exact .error [_] (h.raise.note _).peeked rfl rfl

/-- Both parsers open a level, or the time is over for both. -/
theorem Agrees.deeper {routine routine' : Routine α} (h : parser.Alike parser')
    (hinside : Agrees parser.opened parser'.opened (routine parser.opened)
      (routine' parser'.opened)) :
    Agrees parser parser' (deeper routine parser) (deeper routine' parser') := by
  cases hexpired : parser.limits.isExpired parser.looks with
  | true =>
    rw [deeper_eq_error hexpired, deeper_eq_error (h.isExpired ▸ hexpired), h.sequence]
    exact .error [] h.opened.peeked rfl rfl
  | false =>
    rw [deeper_eq_thenLower hexpired, deeper_eq_thenLower (h.isExpired ▸ hexpired), thenLower,
      thenLower]
    revert hinside
    generalize routine parser.opened = outcome, routine' parser'.opened = outcome'
    rintro (⟨events, halike, hlog, hlog'⟩ | ⟨events, halike, hlog, hlog'⟩)
    · exact .ok events halike.lower hlog hlog'
    · exact .error events halike.lower hlog hlog'

end Routine

/-! ## All routines -/

/-- Routines that are put together from tokens and levels do the same from parsers that are
alike. -/
theorem ComposedAfter.agrees {taken : List Token} {levels more : Nat} {routine full : Routine α}
    {left : α → List Token} (h : ComposedAfter taken levels more routine full left)
    {parser parser' : Parser} (halike : parser.Alike parser') :
    Routine.Agrees parser parser' (routine parser) (routine parser') := by
  induction h generalizing parser parser' with
  | pure => exact .ok [] halike rfl rfl
  | fail => exact .error [] halike rfl rfl
  | next =>
    obtain ⟨token, after, hnext, hseq, -⟩ := Routine.next_apply parser
    have hsequence := halike.sequence
    rw [Parser.sequence, Parser.sequence, parser.stream.sequence_eq, parser'.stream.sequence_eq,
      cons_append_stream_inj] at hsequence
    have htoken : Routine.next parser' = .ok parser.stream.next.1
        { parser' with stream := parser'.stream.next.2 } := by
      rw [hsequence.1]
      rfl
    rw [htoken]
    exact .ok [] ⟨hsequence.2, halike.maxDepth, halike.depth, halike.clock⟩ rfl rfl
  | @pushBack _ _ _ token =>
    exact .ok [] ⟨congrArg ([token] ++ₛ ·) halike.sequence, halike.maxDepth, halike.depth,
      halike.clock⟩ rfl rfl
  | enter => exact .ok [_] (halike.note _) rfl rfl
  | forget _ ih => exact ih halike
  | bind _ _ ih ih' => exact .bind (ih halike) fun result _ _ halike => ih' result halike
  | @repeatWhile _ _ _ calls item _ _ _ hadvances ih =>
    -- the two loops may have turns of different number
    let turns := parser.stream.final :: parser.stream.upcoming
    have hturns : Routine.repeatWhile calls item parser' =
        Routine.repeatFor calls item [] turns parser' :=
      Routine.repeatFor_congr_turns hadvances parser'.stream.endsWithin
        (halike.sequence ▸ parser.stream.endsWithin)
    rw [hturns]
    exact ih turns halike
  | deeper _ ih => exact .deeper halike (ih halike.opened)
  | refuse | cut => exact .refuse halike _

namespace Parser

variable {parser parser' : Parser}

theorem Agree.of_agrees {start start' : Parser} {routine routine' : Routine α}
    (h : Routine.Agrees start start' (routine parser) (routine' parser')) :
    Agree start start' (parser.run routine) (parser'.run routine') := by
  unfold run
  revert h
  generalize routine parser = outcome, routine' parser' = outcome'
  rintro (⟨events, halike, hlog, hlog'⟩ | ⟨events, halike, hlog, hlog'⟩)
  · exact ⟨rfl, halike, events, hlog, hlog'⟩
  · exact ⟨rfl, halike, events, hlog, hlog'⟩

/-- A routine that may open all the levels there are does the same from parsers that are alike, if
it is put together in this way with any number of levels. -/
theorem Agree.withLevels {routine : Nat → Routine α} (h : parser.Alike parser')
    (hcomposed : ∀ levels, Composed levels levels (routine levels) (routine levels)) :
    Agree parser parser' (parser.run (Routine.withLevels routine))
      (parser'.run (Routine.withLevels routine)) := by
  refine .of_agrees ?_
  have hrun : Routine.withLevels routine parser' = routine parser.levels parser' := by
    rw [h.levels]
    rfl
  rw [hrun]
  exact (hcomposed parser.levels).agrees h

theorem Agree.parse (h : parser.Alike parser') (production : Production) :
    Agree parser parser' (parser.run production.parse) (parser'.run production.parse) :=
  .withLevels h fun _ => production.composed le_rfl

theorem Agree.parseBlock (h : parser.Alike parser') (label : String) :
    Agree parser parser' (parser.run (Fragment.parseBlock label))
      (parser'.run (Fragment.parseBlock label)) := by
  rw [Fragment.parseBlock_eq]
  exact .withLevels h fun _ => (Statement.block_composed le_rfl label).map _

end Parser

/-! ## Parses -/

/-- Fresh parsers are alike if their streams stand for the same sequence. -/
theorem Parser.alike_ofStream {stream stream' : TokenStream}
    (h : stream.sequence = stream'.sequence) (limits : Limits) :
    (ofStream stream limits).Alike (ofStream stream' limits) :=
  alike_of_limits_eq h rfl rfl (.inr rfl)

/-- Parses of streams that stand for the same sequence are the same. -/
theorem parseWith_agrees {stream stream' : TokenStream} (h : stream.sequence = stream'.sequence)
    (limits : Limits) :
    (parseWith stream limits).1 = (parseWith stream' limits).1 ∧
      (parseWith stream limits).2.log = (parseWith stream' limits).2.log ∧
      (parseWith stream limits).2.Alike (parseWith stream' limits).2 := by
  have halike : (Parser.started stream limits).Alike (.started stream' limits) :=
    (Parser.alike_ofStream h limits).note .started
  have hrun := (Program.composed (le_refl limits.maxDepth)).agrees halike
  rw [parseWith_eq, parseWith_eq]
  revert hrun
  generalize Program.parse limits.maxDepth (.started stream limits) = outcome,
    Program.parse limits.maxDepth (.started stream' limits) = outcome'
  rintro (⟨events, hafter, hlog, hlog'⟩ | ⟨events, hafter, hlog, hlog'⟩)
  · exact ⟨rfl, congrArg (_ :: ·) (hlog.trans hlog'.symm), hafter.note _⟩
  · exact ⟨rfl, congrArg (_ :: ·) (hlog.trans hlog'.symm), hafter.note _⟩

/-- From parsers that are alike, the routines for all productions and blocks, the checks of the next
token and a look at it do the same. A parse of tokens that were handed back to a stream at its end,
the last of them first, is a parse of these tokens. -/
theorem Parser.agree_of_alike :
    (∀ parser parser' : Parser, parser.Alike parser' →
      (∀ production : Production,
        Agree parser parser' (parser.run production.parse) (parser'.run production.parse)) ∧
      (∀ label, Agree parser parser' (parser.run (Fragment.parseBlock label))
        (parser'.run (Fragment.parseBlock label))) ∧
      (∀ kind label, Agree parser parser' (parser.run (Routine.expect kind label))
        (parser'.run (Routine.expect kind label))) ∧
      (∀ text label, Agree parser parser' (parser.run (Routine.expectSingle text label))
        (parser'.run (Routine.expectSingle text label))) ∧
      Agree parser parser' (parser.run Routine.peek) (parser'.run Routine.peek)) ∧
    ∀ (tokens : List Token) (file : String) (limits : Limits) (stream : TokenStream),
      stream.sequence = Stream'.const (TokenStream.finalOf tokens file) →
      let pushed := tokens.foldr (fun token stream => stream.pushBack token) stream
      let drawn := TokenStream.ofTokens tokens file
      (ofStream pushed limits).Alike (ofStream drawn limits) ∧
        (parseWith pushed limits).1 = (parseWith drawn limits).1 ∧
        (parseWith pushed limits).2.log = (parseWith drawn limits).2.log ∧
        (parseWith pushed limits).2.Alike (parseWith drawn limits).2 := by
  constructor
  · intro parser parser' h
    refine ⟨.parse h, .parseBlock h, fun kind label => ?_, fun text label => ?_, ?_⟩
    · exact Agree.withLevels h fun _ => .expect kind label
    · exact Agree.withLevels h fun _ => .expectSingle text label
    · exact Agree.withLevels h fun _ => .peek
  · intro tokens file limits stream hend
    have hsequence : (tokens.foldr (fun token stream => stream.pushBack token) stream).sequence =
        (TokenStream.ofTokens tokens file).sequence := by
      rw [TokenStream.sequence_foldr_pushBack, hend, TokenStream.sequence_ofTokens]
    exact ⟨alike_ofStream hsequence limits, parseWith_agrees hsequence limits⟩

/-- The tokens of the chain `this . x )`, none of which was drawn. -/
def Parser.drawingChain : Parser :=
  .ofStream (TokenStream.ofTokens [⟨⟨.this, "this"⟩, ⟨⟨0, "a"⟩, ⟨4, "a"⟩⟩⟩,
    ⟨.single ".", ⟨⟨4, "a"⟩, ⟨5, "a"⟩⟩⟩, ⟨⟨.name, "x"⟩, ⟨⟨5, "a"⟩, ⟨6, "a"⟩⟩⟩,
    ⟨.single ")", ⟨⟨6, "a"⟩, ⟨7, "a"⟩⟩⟩] "a") {}

/-- A chain whose first token was handed back is read as one that was never drawn, and `class`
before the end gives the same error if both were handed back. -/
theorem Parser.agree_of_alike_chain :
    beforeChain.Alike drawingChain ∧ beforeChain.stream.pending ≠ drawingChain.stream.pending ∧
      Agree beforeChain drawingChain (beforeChain.run Production.expression.parse)
        (drawingChain.run Production.expression.parse) ∧
      (parseWith (((TokenStream.ofTokens [.endAt ⟨5, "a"⟩] "a").pushBack (.endAt ⟨5, "a"⟩)).pushBack
          ⟨⟨.classWord, "class"⟩, ⟨⟨0, "a"⟩, ⟨5, "a"⟩⟩⟩) {}).1 =
        (parseWith (.ofTokens [⟨⟨.classWord, "class"⟩, ⟨⟨0, "a"⟩, ⟨5, "a"⟩⟩⟩, .endAt ⟨5, "a"⟩] "a")
          {}).1 := by
  have halike : beforeChain.Alike drawingChain := alike_of_limits_eq rfl rfl rfl (.inl rfl)
  have hend : (TokenStream.ofTokens [.endAt ⟨5, "a"⟩] "a").sequence = Stream'.const
      (TokenStream.finalOf [⟨⟨.classWord, "class"⟩, ⟨⟨0, "a"⟩, ⟨5, "a"⟩⟩⟩, .endAt ⟨5, "a"⟩] "a") :=
    (Stream'.const_eq _).symm
  exact ⟨halike, by decide, (agree_of_alike.1 _ _ halike).1 .expression,
    (agree_of_alike.2 _ _ {} _ hend).2.1⟩

end FrappeSyntax
