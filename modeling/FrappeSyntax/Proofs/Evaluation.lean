import FrappeSyntax.Proofs.DepthLimit
import FrappeSyntax.Proofs.Pushback

/-!
# Evaluation

A loop is given turns, one for each token to come and one more. Here a routine is evaluated without
such a bound: it ends if a finite number of steps leads to its end, and a loop goes on for as long as
the next token calls for an item. Each step tells which tokens were taken and not handed back.

Every routine that is put together from tokens and levels ends, from every parser, and with what it
gives when its turns are counted. What it takes is decided by a finite number of the tokens to come:
from a parser that will read these tokens first and then others, it takes the same. So what holds of
the tokens between two states of a parser, in all runs of a routine, holds of the tokens that it
takes, also where the end token is repeated and the states do not tell how often it was taken.

* `Routine.Ends`: the evaluation of a routine.
* `Routine.repeatWhile_eq_turn`: a loop is its first turn and the loop after it.
* `Routine.EndsAlike`, `ComposedAfter.endsAlike`: what a routine takes is decided by a finite number
  of tokens.
* `Routine.EndsAlike.exists_consumed`: what a routine takes, from what holds between two states.
-/

namespace FrappeSyntax

namespace Routine

/-! ## Evaluation -/

/-- One turn of a loop, with `loop` for the turns after it. -/
def turn (calls : Token → Bool) (item : Routine α) (loop : Routine (List α)) : Routine (List α) :=
  peek >>= fun token =>
    if calls token then item >>= fun a => loop >>= fun rest => pure (a :: rest) else pure []

/-- Lowers the depth of the parser that is left. -/
def lowered : EStateM.Result Error Parser α → EStateM.Result Error Parser α
  | .ok result after => .ok result after.lower
  | .error error after => .error error after.lower

/-- Evaluated step by step from a parser, a routine comes to an end. Before it, the tokens `consumed`
were taken and not handed back, the latest last; after it, these are the tokens of the last
argument. -/
inductive Ends : {α : Type} → Routine α → Parser → (consumed : List Token) →
    EStateM.Result Error Parser α → List Token → Prop
  | pure {α : Type} {result : α} {parser : Parser} {consumed : List Token} :
    Ends (Pure.pure result) parser consumed (.ok result parser) consumed
  | fail {α : Type} {error : Error} {parser : Parser} {consumed : List Token} :
    Ends (throw error : Routine α) parser consumed (.error error parser) consumed
  | next {parser : Parser} {consumed : List Token} :
    Ends next parser consumed (.ok parser.stream.next.1 { parser with stream := parser.stream.next.2 })
      (consumed ++ [parser.stream.next.1])
  | pushBack {token : Token} {parser : Parser} {consumed : List Token} :
    Ends (pushBack token) parser (consumed ++ [token])
      (.ok () { parser with stream := parser.stream.pushBack token }) consumed
  | enter {production : Production} {parser : Parser} {consumed : List Token} :
    Ends (enter production) parser consumed (.ok () (parser.note (.entered production))) consumed
  | bind {α β : Type} {routine : Routine α} {f : α → Routine β} {parser after : Parser} {result : α}
    {consumed middle consumed' : List Token} {outcome : EStateM.Result Error Parser β} :
    Ends routine parser consumed (.ok result after) middle →
    Ends (f result) after middle outcome consumed' →
    Ends (routine >>= f) parser consumed outcome consumed'
  | bindError {α β : Type} {routine : Routine α} {f : α → Routine β} {parser after : Parser}
    {error : Error} {consumed consumed' : List Token} :
    Ends routine parser consumed (.error error after) consumed' →
    Ends (routine >>= f) parser consumed (.error error after) consumed'
  | repeatWhile {α : Type} {calls : Token → Bool} {item : Routine α} {parser : Parser}
    {consumed consumed' : List Token} {outcome : EStateM.Result Error Parser (List α)} :
    Ends (turn calls item (repeatWhile calls item)) parser consumed outcome consumed' →
    Ends (repeatWhile calls item) parser consumed outcome consumed'
  | withLevels {α : Type} {routine : Nat → Routine α} {parser : Parser}
    {consumed consumed' : List Token} {outcome : EStateM.Result Error Parser α} :
    Ends (routine parser.levels) parser consumed outcome consumed' →
    Ends (withLevels routine) parser consumed outcome consumed'
  /-- The time is not over. -/
  | deeper {α : Type} {routine : Routine α} {parser : Parser} {consumed consumed' : List Token}
    {outcome : EStateM.Result Error Parser α} :
    parser.limits.isExpired parser.looks = false →
    Ends routine parser.opened consumed outcome consumed' →
    Ends (deeper routine) parser consumed (lowered outcome) consumed'
  /-- The time is over. -/
  | expired {α : Type} {routine : Routine α} {parser : Parser} {consumed : List Token} :
    parser.limits.isExpired parser.looks = true →
    Ends (Routine.deeper routine) parser consumed
      (.error ⟨.deadlineExceeded, parser.sequence.head.position⟩ parser.opened.peeked) consumed
  | refuse {α : Type} {production : String} {parser : Parser} {consumed : List Token} :
    Ends (refuse production : Routine α) parser consumed
      (.error ⟨.recursionLimitExceeded parser.limits.maxDepth, parser.sequence.head.position⟩
        (parser.raise.note (.refused production (parser.depth + 1))).peeked) consumed

variable {routine : Routine α} {parser : Parser} {consumed consumed' : List Token}

/-- The tokens that were taken, and those that are left, are the ones that were there. -/
theorem Ends.append_sequence {outcome : EStateM.Result Error Parser α}
    (h : Ends routine parser consumed outcome consumed') :
    consumed ++ₛ parser.sequence = consumed' ++ₛ remaining (fun _ => []) outcome := by
  induction h with
  | pure | fail | enter => rfl
  | @next parser consumed =>
    rw [Stream'.append_append_stream, Parser.sequence, parser.stream.sequence_eq]
    rfl
  | pushBack => rw [Stream'.append_append_stream]; rfl
  | bind _ _ ih ih' => exact ih.trans ih'
  | bindError _ ih | repeatWhile _ ih | withLevels _ ih => exact ih
  | @deeper _ _ _ _ _ outcome _ _ ih => cases outcome <;> exact ih
  | @expired _ _ parser => exact congrArg _ parser.opened.sequence_peeked.symm
  | @refuse _ _ parser =>
    exact congrArg _ (parser.raise.note (.refused _ (parser.depth + 1))).sequence_peeked.symm

/-! ## Loops -/

/-- A loop whose items advance is its first turn and the loop after it. -/
theorem repeatWhile_eq_turn {calls : Token → Bool} {item : Routine α} (h : item.Advances calls) :
    repeatWhile calls item = turn calls item (repeatWhile calls item) := by
  funext parser
  show repeatFor calls item [] (parser.stream.final :: parser.stream.upcoming) parser = _
  rw [repeatFor, turn, bind_apply, bind_apply, peek_eq]
  dsimp only
  split
  case isFalse => rfl
  case isTrue hcalls =>
    rw [bind_apply, bind_apply]
    cases hitem : item parser.peeked with
    | error error after => rfl
    | ok a after =>
      dsimp only
      -- the turns that are left are enough for the rest of the loop
      have hend : EndsWithin after.sequence parser.stream.upcoming.length := by
        rw [← parser.sequence_peeked] at hcalls
        obtain ⟨tokens, hne, hseq, hkind⟩ := h _ _ _ hcalls hitem
        rw [parser.sequence_peeked] at hseq
        exact parser.stream.endsWithin.after hseq hne hkind
      rw [repeatFor_eq_map, ← bind_pure_comp, bind_apply, bind_apply,
        repeatFor_congr_turns h hend after.stream.endsWithin]
      rfl

end Routine

/-! ## Parsers with the same tokens ahead -/

/-- Two parsers will read the same tokens up to a number of them. They have the same limits, and are
the same but for what they will read then, and for what they logged. -/
structure Parser.AgreesFor (count : Nat) (parser parser' : Parser) : Prop where
  get : ∀ index < count, parser.sequence.get index = parser'.sequence.get index
  limits : parser.limits = parser'.limits
  looks : parser.looks = parser'.looks
  depth : parser.depth = parser'.depth

namespace Parser.AgreesFor

variable {count : Nat} {parser parser' : Parser}

theorem levels (h : parser.AgreesFor count parser') : parser.levels = parser'.levels := by
  rw [Parser.levels, Parser.levels, h.limits, h.depth]

theorem isExpired (h : parser.AgreesFor count parser') :
    parser.limits.isExpired parser.looks = parser'.limits.isExpired parser'.looks := by
  rw [h.limits, h.looks]

theorem note (h : parser.AgreesFor count parser') (event : Event) :
    (parser.note event).AgreesFor count (parser'.note event) :=
  ⟨h.get, h.limits, h.looks, h.depth⟩

theorem opened (h : parser.AgreesFor count parser') : parser.opened.AgreesFor count parser'.opened :=
  ⟨h.get, h.limits, congrArg (· + 1) h.looks, congrArg (· + 1) h.depth⟩

theorem lower (h : parser.AgreesFor count parser') : parser.lower.AgreesFor count parser'.lower :=
  ⟨h.get, h.limits, h.looks, congrArg (· - 1) h.depth⟩

/-- The next token is the same. -/
theorem next_eq (h : parser.AgreesFor (count + 1) parser') :
    parser.stream.next.1 = parser'.stream.next.1 := by
  have hhead := h.get 0 (Nat.succ_pos count)
  rwa [sequence, sequence, parser.stream.sequence_eq, parser'.stream.sequence_eq] at hhead

/-- After the next token was taken, there is one token less that is known to be the same. -/
theorem next (h : parser.AgreesFor (count + 1) parser') :
    ({ parser with stream := parser.stream.next.2 } : Parser).AgreesFor count
      { parser' with stream := parser'.stream.next.2 } := by
  refine ⟨fun index hlt => ?_, h.limits, h.looks, h.depth⟩
  have hget := h.get (index + 1) (Nat.succ_lt_succ hlt)
  rwa [sequence, sequence, parser.stream.sequence_eq, parser'.stream.sequence_eq] at hget

theorem pushBack (h : parser.AgreesFor count parser') (token : Token) :
    ({ parser with stream := parser.stream.pushBack token } : Parser).AgreesFor count
      { parser' with stream := parser'.stream.pushBack token } := by
  refine ⟨fun index hlt => ?_, h.limits, h.looks, h.depth⟩
  cases index with
  | zero => rfl
  | succ index => exact h.get index (Nat.lt_of_succ_lt hlt)

end Parser.AgreesFor

namespace Routine

/-! ## What a routine takes -/

/-- Two runs give the same, and a number of the tokens to come are then the same; or both fail. -/
inductive Concurs (spare : Nat) :
    EStateM.Result Error Parser α → EStateM.Result Error Parser α → Prop
  | ok {result : α} {after after' : Parser} : after.AgreesFor spare after' →
    Concurs spare (.ok result after) (.ok result after')
  | error {error error' : Error} {after after' : Parser} :
    Concurs spare (.error error after) (.error error' after')

/-- A routine ends, and what it takes is decided by a finite number of the tokens to come. After a
result the latest tokens that can be handed back are those of `left`. -/
def EndsAlike (routine : Routine α) (parser : Parser) (consumed : List Token)
    (left : α → List Token) : Prop :=
  ∃ bound consumed',
    (∀ result after, routine parser = .ok result after →
      ∃ front, consumed' = front ++ left result) ∧
    ∀ spare parser', parser.AgreesFor (bound + spare) parser' →
      routine.Ends parser' consumed (routine parser') consumed' ∧
        Concurs spare (routine parser) (routine parser')

namespace EndsAlike

variable {routine : Routine α} {parser : Parser} {consumed : List Token} {left : α → List Token}

/-- A routine that does not look at the tokens. -/
theorem of_agrees (consumed' : List Token)
    (hleft : ∀ result after, routine parser = .ok result after →
      ∃ front, consumed' = front ++ left result)
    (hends : ∀ spare parser', parser.AgreesFor spare parser' →
      routine.Ends parser' consumed (routine parser') consumed' ∧
        Concurs spare (routine parser) (routine parser')) :
    routine.EndsAlike parser consumed left :=
  ⟨0, consumed', hleft, fun spare parser' h => hends spare parser' (Nat.zero_add spare ▸ h)⟩

theorem pure (result : α) (parser : Parser) (front : List Token) (left : α → List Token) :
    (Pure.pure result : Routine α).EndsAlike parser (front ++ left result) left := by
  refine .of_agrees (front ++ left result) ?_ fun _ _ h => ⟨.pure, .ok h⟩
  rintro _ _ ⟨⟩
  exact ⟨front, rfl⟩

theorem fail (error : Error) (parser : Parser) (consumed : List Token) (left : α → List Token) :
    (throw error : Routine α).EndsAlike parser consumed left :=
  .of_agrees consumed nofun fun _ _ _ => ⟨.fail, .error⟩

theorem refuse (production : String) (parser : Parser) (consumed : List Token)
    (left : α → List Token) :
    (Routine.refuse production : Routine α).EndsAlike parser consumed left := by
  refine .of_agrees consumed ?_ fun _ _ _ => ?_
  · intro result after hrun
    rw [refuse_eq] at hrun
    cases hrun
  · rw [refuse_eq, refuse_eq]
    exact ⟨.refuse, .error⟩

theorem enter (production : Production) (parser : Parser) (front taken : List Token) :
    (Routine.enter production).EndsAlike parser (front ++ taken) fun _ => taken :=
  .of_agrees _ (fun _ _ _ => ⟨front, rfl⟩) fun _ _ h => ⟨.enter, .ok (h.note _)⟩

theorem next (parser : Parser) (front taken : List Token) :
    Routine.next.EndsAlike parser (front ++ taken) fun token => taken ++ [token] := by
  refine ⟨1, front ++ taken ++ [parser.stream.next.1], ?_, fun spare parser' h => ?_⟩
  · rintro _ _ ⟨⟩
    exact ⟨front, List.append_assoc ..⟩
  · rw [Nat.add_comm] at h
    refine ⟨?_, ?_⟩
    · rw [h.next_eq]
      exact .next
    · rw [Routine.next, Routine.next, h.next_eq]
      exact .ok h.next

theorem pushBack (token : Token) (parser : Parser) (front taken : List Token) :
    (Routine.pushBack token).EndsAlike parser (front ++ (taken ++ [token])) fun _ => taken := by
  rw [← List.append_assoc]
  exact .of_agrees _ (fun _ _ _ => ⟨front, rfl⟩) fun _ _ h => ⟨.pushBack, .ok (h.pushBack token)⟩

/-- Tokens are not handed back any more. -/
theorem forget (h : routine.EndsAlike parser consumed left) :
    routine.EndsAlike parser consumed fun _ => [] := by
  obtain ⟨bound, consumed', -, hends⟩ := h
  exact ⟨bound, consumed', fun _ _ _ => ⟨consumed', (List.append_nil _).symm⟩, hends⟩

/-- One routine after the other: the tokens that decide what they take come one after the other
too. -/
theorem bind {f : α → Routine β} {left' : β → List Token}
    (h : routine.EndsAlike parser consumed left)
    (hf : ∀ result after front, routine parser = .ok result after →
      (f result).EndsAlike after (front ++ left result) left') :
    (routine >>= f).EndsAlike parser consumed left' := by
  obtain ⟨bound, middle, hleft, hends⟩ := h
  cases hrun : routine parser with
  | error error after =>
    refine ⟨bound, middle, ?_, fun spare parser' hagrees => ?_⟩
    · intro result after hbind
      rw [bind_apply, hrun] at hbind
      cases hbind
    · obtain ⟨hfirst, hconcurs⟩ := hends spare parser' hagrees
      rw [bind_apply, bind_apply, hrun]
      rw [hrun] at hconcurs
      revert hfirst hconcurs
      generalize routine parser' = outcome
      intro hfirst hconcurs
      cases hconcurs with
      | error => exact ⟨.bindError hfirst, .error⟩
  | ok result after =>
    obtain ⟨front, rfl⟩ := hleft result after hrun
    obtain ⟨bound', consumed', hleft', hends'⟩ := hf result after front hrun
    refine ⟨bound + bound', consumed', ?_, fun spare parser' hagrees => ?_⟩
    · intro result' after' hbind
      rw [bind_apply, hrun] at hbind
      exact hleft' result' after' hbind
    · rw [Nat.add_assoc] at hagrees
      obtain ⟨hfirst, hconcurs⟩ := hends (bound' + spare) parser' hagrees
      rw [bind_apply, bind_apply, hrun]
      rw [hrun] at hconcurs
      revert hfirst hconcurs
      generalize routine parser' = outcome
      intro hfirst hconcurs
      cases hconcurs with
      | ok hafter =>
        obtain ⟨hsecond, hconcurs'⟩ := hends' spare _ hafter
        exact ⟨.bind hfirst hsecond, hconcurs'⟩

theorem peek (parser : Parser) (consumed : List Token) :
    Routine.peek.EndsAlike parser consumed fun _ => [] := by
  have hnext : Routine.next.EndsAlike parser consumed fun token => [] ++ [token] := by
    have h := next parser consumed []
    rwa [List.append_nil] at h
  exact hnext.bind fun token after front _ => (pushBack token after front []).bind
    fun _ after' front' _ => pure token after' front' fun _ => []

/-- A level is opened, if the time is not over. -/
theorem deeper (h : routine.EndsAlike parser.opened consumed left) :
    (Routine.deeper routine).EndsAlike parser consumed left := by
  cases hexpired : parser.limits.isExpired parser.looks with
  | true =>
    refine .of_agrees consumed ?_ fun spare parser' hagrees => ?_
    · intro result after hrun
      rw [deeper_eq_error hexpired] at hrun
      cases hrun
    · rw [hagrees.isExpired] at hexpired
      rw [deeper_eq_error hexpired, deeper_eq_error (hagrees.isExpired.trans hexpired)]
      exact ⟨.expired hexpired, .error⟩
  | false =>
    have hlowered : ∀ parser : Parser, parser.limits.isExpired parser.looks = false →
        Routine.deeper routine parser = lowered (routine parser.opened) := by
      intro parser hexpired
      rw [deeper_eq_thenLower hexpired, thenLower]
      cases routine parser.opened <;> rfl
    obtain ⟨bound, consumed', hleft, hends⟩ := h
    refine ⟨bound, consumed', ?_, fun spare parser' hagrees => ?_⟩
    · intro result after hrun
      rw [hlowered parser hexpired] at hrun
      cases hinside : routine parser.opened with
      | error error after => rw [hinside] at hrun; cases hrun
      | ok result after =>
        rw [hinside] at hrun
        cases hrun
        exact hleft _ _ hinside
    · have hexpired' := hagrees.isExpired.symm.trans hexpired
      obtain ⟨hinside, hconcurs⟩ := hends spare parser'.opened hagrees.opened
      rw [hlowered parser hexpired, hlowered parser' hexpired']
      refine ⟨.deeper hexpired' hinside, ?_⟩
      revert hconcurs
      generalize routine parser.opened = outcome, routine parser'.opened = outcome'
      intro hconcurs
      cases hconcurs with
      | ok hafter => exact .ok hafter.lower
      | error => exact .error

/-- All the levels there are may be opened. -/
theorem withLevels {routine : Nat → Routine α}
    (h : (routine parser.levels).EndsAlike parser consumed left) :
    (Routine.withLevels routine).EndsAlike parser consumed left := by
  obtain ⟨bound, consumed', hleft, hends⟩ := h
  refine ⟨bound, consumed', hleft, fun spare parser' hagrees => ?_⟩
  have hlevels := hagrees.levels
  obtain ⟨hinside, hconcurs⟩ := hends spare parser' hagrees
  rw [hlevels] at hinside hconcurs
  refine ⟨.withLevels hinside, ?_⟩
  show Concurs spare (routine parser.levels parser) (routine parser'.levels parser')
  rwa [hlevels]

/-- A loop ends, since each of its items brings the end of the tokens closer. -/
theorem repeatWhile {calls : Token → Bool} {item : Routine α} (hadvances : item.Advances calls)
    (h : ∀ parser consumed, item.EndsAlike parser consumed fun _ => []) (parser : Parser)
    (consumed : List Token) :
    (Routine.repeatWhile calls item).EndsAlike parser consumed fun _ => [] := by
  suffices hloop : ∀ bound parser consumed, EndsWithin parser.sequence bound →
      (Routine.repeatWhile calls item).EndsAlike parser consumed fun _ => [] from
    hloop _ parser consumed parser.stream.endsWithin
  intro bound
  induction bound with
  | zero => exact fun parser _ hend => absurd hend (not_endsWithin_zero _)
  | succ bound ih =>
    intro parser consumed hend
    have hturn : (turn calls item (Routine.repeatWhile calls item)).EndsAlike parser consumed
        fun _ => [] := by
      refine bind (peek parser consumed) fun token start front hpeek => ?_
      rw [peek_eq] at hpeek
      cases hpeek
      rw [← parser.sequence_peeked] at hend ⊢
      split
      case isTrue hcalls =>
        refine bind (h _ _) fun a after front' hitem => ?_
        obtain ⟨tokens, hne, hseq, hkind⟩ := hadvances _ _ _ hcalls hitem
        refine bind (ih after _ (hend.after hseq hne hkind)) fun rest after' front'' _ => ?_
        exact pure (a :: rest) after' front'' fun _ => []
      case isFalse => exact pure [] _ front fun _ => []
    have hrun : ∀ parser, Routine.repeatWhile calls item parser =
        turn calls item (Routine.repeatWhile calls item) parser :=
      congrFun (repeatWhile_eq_turn hadvances)
    obtain ⟨count, consumed', hleft, hends⟩ := hturn
    rw [← hrun parser] at hleft
    refine ⟨count, consumed', hleft, fun spare parser' hagrees => ?_⟩
    rw [hrun parser, hrun parser']
    obtain ⟨hfirst, hconcurs⟩ := hends spare parser' hagrees
    exact ⟨.repeatWhile hfirst, hconcurs⟩

end EndsAlike

end Routine

/-- What a routine takes that is put together from tokens and levels is decided by a finite number of
tokens. -/
theorem ComposedAfter.endsAlike {taken : List Token} {levels more : Nat} {routine full : Routine α}
    {left : α → List Token} (h : ComposedAfter taken levels more routine full left)
    (parser : Parser) (front : List Token) :
    routine.EndsAlike parser (front ++ taken) left := by
  induction h generalizing parser front with
  | pure hleft => exact hleft ▸ .pure _ parser front _
  | fail => exact .fail _ parser _ _
  | next => exact .next parser front _
  | pushBack => exact .pushBack _ parser front _
  | enter => exact .enter _ parser front _
  | @forget _ taken _ _ _ _ _ _ ih =>
    have hforget := (ih parser (front ++ taken)).forget
    rwa [List.append_nil] at hforget
  | bind _ _ ih ih' => exact .bind (ih parser front) fun a after front' _ => ih' a after front'
  | repeatWhile _ _ hadvances _ ih =>
    refine .repeatWhile hadvances (fun parser consumed => ?_) parser _
    have hitem := ih parser consumed
    rwa [List.append_nil] at hitem
  | deeper _ ih => exact .deeper (ih parser.opened front)
  | refuse | cut => exact .refuse _ parser _ _

/-! ## Where the end token is repeated -/

/-- If a sequence has a last token that does not end it, what is left of it tells how many tokens
were taken, as long as this token is not among them. -/
theorem eq_of_append_stream_eq {sequence rest : Stream' Token} {tokens tokens' : List Token}
    {last : Nat} (hlast : (sequence.get last).kind ≠ .eof)
    (hend : ∀ index, last < index → (sequence.get index).kind = .eof)
    (h : sequence = tokens ++ₛ rest) (h' : sequence = tokens' ++ₛ rest)
    (hle : tokens.length ≤ last) : tokens = tokens' := by
  have hget : ∀ k, sequence.get (tokens.length + k) = sequence.get (tokens'.length + k) := by
    intro k
    have hright : sequence.get (tokens.length + k) = rest.get k := by
      rw [h, Stream'.get_append_right]
    rw [hright, h', Stream'.get_append_right]
  -- the last token has the same place after both
  have hplace : ∀ k, (sequence.get k).kind ≠ .eof → k ≤ last := fun k hk =>
    Nat.le_of_not_lt fun hlt => hk (hend k hlt)
  have hle' : tokens'.length + (last - tokens.length) ≤ last := by
    refine hplace _ ?_
    rwa [← hget, Nat.add_sub_cancel' hle]
  have hge : tokens.length + (last - tokens'.length) ≤ last := by
    refine hplace _ ?_
    rwa [hget, Nat.add_sub_cancel' (by omega)]
  exact Stream'.append_left_injective _ _ _ _ (h.symm.trans h') (by omega)

/-- A parser that will read the first tokens that another one will, then a token that does not end
the source, and then the end token over and over. -/
def Parser.cutAfter (count : Nat) (parser : Parser) : Parser :=
  { parser with
    stream :=
      { pushed := []
        ahead := parser.sequence.take count ++ [⟨.single "", .null, .null⟩]
        final := parser.stream.final
        mostPending := 0
        final_kind := parser.stream.final_kind } }

namespace Parser

variable {parser : Parser} {count : Nat}

/-- What a parser that is cut will read after the tokens it has in common with the other. -/
theorem get_cutAfter (parser : Parser) (count index : Nat) : (parser.cutAfter count).sequence.get (count + index) =
    ([⟨.single "", .null, .null⟩] ++ₛ Stream'.const parser.stream.final).get index := by
  have hlength := parser.sequence.length_take count
  have hget := Stream'.get_append_right index (parser.sequence.take count)
    ([⟨.single "", .null, .null⟩] ++ₛ Stream'.const parser.stream.final)
  rwa [hlength, ← Stream'.append_append_stream] at hget

theorem agreesFor_cutAfter : parser.AgreesFor count (parser.cutAfter count) := by
  refine ⟨fun index hlt => ?_, rfl, rfl, rfl⟩
  show _ = ((parser.sequence.take count ++ _) ++ₛ _).get index
  rw [Stream'.append_append_stream, Stream'.get_append_left _ _ _ (by rwa [Stream'.length_take]),
    Stream'.take_get]

theorem kind_get_cutAfter : ((parser.cutAfter count).sequence.get count).kind ≠ .eof := by
  have hget := parser.get_cutAfter count 0
  rw [Nat.add_zero] at hget
  rw [hget]
  exact Kind.noConfusion

theorem kind_get_cutAfter_of_lt {index : Nat} (h : count < index) :
    ((parser.cutAfter count).sequence.get index).kind = .eof := by
  obtain ⟨k, rfl⟩ := Nat.exists_eq_add_of_lt h
  rw [Nat.add_assoc, get_cutAfter]
  exact parser.stream.final_kind

end Parser

/-- What holds of some tokens between two states of a parser, in all runs of a routine, holds of the
tokens that the routine takes. -/
theorem Routine.EndsAlike.exists_consumed {routine : Routine α} {parser : Parser}
    {holds : α → List Token → Prop} (h : routine.EndsAlike parser [] fun _ => [])
    (htook : ∀ {parser result after}, routine parser = .ok result after →
      ∃ tokens, parser.sequence = tokens ++ₛ after.sequence ∧ holds result tokens) :
    ∃ consumed, routine.Ends parser [] (routine parser) consumed ∧
      ∀ result after, routine parser = .ok result after →
        parser.sequence = consumed ++ₛ after.sequence ∧ holds result consumed := by
  obtain ⟨bound, consumed, -, hends⟩ := h
  have hself := (hends 0 parser ⟨fun _ _ => rfl, rfl, rfl, rfl⟩).1
  refine ⟨consumed, hself, fun result after hrun => ⟨?_, ?_⟩⟩
  · have hseq := hself.append_sequence
    rwa [hrun] at hseq
  · -- on a parser that tells how often the end token is taken, the routine takes the same
    let cut := parser.cutAfter (bound + consumed.length)
    obtain ⟨hcut, hconcurs⟩ := hends consumed.length cut Parser.agreesFor_cutAfter
    have hseq := hcut.append_sequence
    rw [hrun] at hconcurs
    cases hrun' : routine cut with
    | error error after' => rw [hrun'] at hconcurs; cases hconcurs
    | ok result' after' =>
      rw [hrun'] at hconcurs hseq
      cases hconcurs
      obtain ⟨tokens, htokens, hholds⟩ := htook hrun'
      have hsame : consumed = tokens := eq_of_append_stream_eq Parser.kind_get_cutAfter
        (fun _ => Parser.kind_get_cutAfter_of_lt) hseq htokens (Nat.le_add_left _ _)
      exact hsame ▸ hholds

end FrappeSyntax
