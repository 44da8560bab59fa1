import FrappeSyntax.Proofs.EarliestError
import FrappeSyntax.Proofs.Locality
import FrappeSyntax.Proofs.ProductionLockstep

/-!
# How far a parse reads ahead

At no moment of a parse more than three tokens wait to be taken again. After a program none waits,
and the first token that ends the source is the last one drawn; after a syntax error none waits
either, and the last one drawn is the one that the error is about, so what follows it does not
matter; after a refusal just the next token waits.

* `TokenStream.Leads`: the streams between which tokens are taken and handed back.
* `ComposedAfter.leads`: what a routine does to a stream.
* `parseWith_readAhead`: the tokens that wait at the end of a parse, and those that were drawn.
-/

namespace FrappeSyntax

/-! ## The most tokens that wait -/

namespace TokenStream

/-- One stream becomes another while tokens are taken and handed back, one at a time. -/
inductive Leads (stream : TokenStream) : TokenStream → Prop
  | refl : Leads stream stream
  | next {stream' : TokenStream} : Leads stream stream' → Leads stream stream'.next.2
  | pushBack {stream' : TokenStream} (token : Token) : Leads stream stream' →
    Leads stream (stream'.pushBack token)

theorem Leads.trans {stream stream' stream'' : TokenStream} (h : stream.Leads stream')
    (h' : stream'.Leads stream'') : stream.Leads stream'' := by
  induction h' with
  | refl => exact h
  | next _ ih => exact ih.next
  | pushBack token _ ih => exact ih.pushBack token

theorem pending_next_le (stream : TokenStream) : stream.next.2.pending ≤ stream.pending := by
  obtain ⟨_ | ⟨token, pushed⟩, _ | ⟨token', ahead⟩, final, most, hfinal⟩ := stream
  · exact le_rfl
  · exact le_rfl
  · exact Nat.le_succ _
  · exact Nat.le_succ _

theorem mostPending_next (stream : TokenStream) : stream.next.2.mostPending = stream.mostPending := by
  obtain ⟨_ | _, _ | _, _⟩ := stream <;> rfl

/-- The record of the most tokens that waited is never lowered, and it is kept. -/
theorem Leads.mostPending_le {stream stream' : TokenStream} (h : stream.Leads stream') :
    stream.mostPending ≤ stream'.mostPending ∧
      (stream.pending ≤ stream.mostPending → stream'.pending ≤ stream'.mostPending) := by
  induction h with
  | refl => exact ⟨le_rfl, id⟩
  | @next stream' _ ih =>
    rw [mostPending_next]
    exact ⟨ih.1, fun hstart => Nat.le_trans stream'.pending_next_le (ih.2 hstart)⟩
  | pushBack token _ ih =>
    exact ⟨Nat.le_trans ih.1 (Nat.le_max_left _ _), fun _ => Nat.le_max_right _ _⟩

end TokenStream

theorem TokenStream.leads_peeked (parser : Parser) : parser.stream.Leads parser.peeked.stream :=
  .pushBack _ (.next .refl)

/-- The stream is left alone where a level is refused, but for a look at the next token. -/
theorem Routine.leads_refuse (production : String) (parser : Parser) :
    parser.stream.Leads (parser.run (refuse production : Routine α)).2.stream := by
  rw [Parser.run, refuse_eq]
  exact TokenStream.leads_peeked (parser.raise.note _)

/-- A routine does nothing to the stream but to take tokens and hand them back. -/
theorem ComposedAfter.leads {taken : List Token} {levels more : Nat} {routine full : Routine α}
    {left : α → List Token} (h : ComposedAfter taken levels more routine full left)
    (parser : Parser) : parser.stream.Leads (parser.run routine).2.stream := by
  induction h generalizing parser with
  | pure | fail | enter => exact .refl
  | next => exact .next .refl
  | pushBack => exact .pushBack _ .refl
  | forget _ ih => exact ih parser
  | @bind _ _ _ _ _ routine _ f _ _ _ _ _ ih ih' =>
    have hfirst := ih parser
    rw [Parser.run] at hfirst ⊢
    rw [Routine.bind_apply]
    cases hrun : routine parser with
    | error error after =>
      rw [hrun] at hfirst
      exact hfirst
    | ok a after =>
      rw [hrun] at hfirst
      exact hfirst.trans (ih' a after)
  | repeatWhile _ _ _ ih => exact ih _ parser
  | @deeper _ _ _ routine _ _ ih =>
    cases hexpired : parser.limits.isExpired parser.looks with
    | true =>
      rw [Parser.run, Routine.deeper_eq_error hexpired]
      exact TokenStream.leads_peeked parser.opened
    | false =>
      have hinside := ih parser.opened
      rw [Parser.run] at hinside ⊢
      rw [Routine.deeper_eq_thenLower hexpired, Routine.thenLower]
      cases hrun : routine parser.opened <;> rw [hrun] at hinside <;> exact hinside
  | refuse | cut => exact Routine.leads_refuse _ parser

theorem stream_parseWith (stream : TokenStream) (limits : Limits) :
    (parseWith stream limits).2.stream =
      ((Parser.started stream limits).run (Program.parse limits.maxDepth)).2.stream := by
  rw [parseWith_eq, Parser.run]
  cases Program.parse limits.maxDepth (.started stream limits) <;> rfl

theorem parseWith_leads (stream : TokenStream) (limits : Limits) :
    stream.Leads (parseWith stream limits).2.stream := by
  rw [stream_parseWith]
  exact (Program.composed (le_refl limits.maxDepth)).leads (.started stream limits)

/-! ## One tape -/

namespace Tape

/-- A tape with itself. -/
def twins (tape : Tape) : TwinTapes where
  one := tape
  other := tape
  length_eq := rfl
  kind_eq _ := rfl
  text_eq _ _ := rfl

/-- The same tokens, with the end token once more in the source. -/
def padded (tape : Tape) : Tape := { tape with tokens := tape.tokens ++ [tape.final] }

theorem get_padded (tape : Tape) (index : Nat) : tape.padded.get index = tape.get index := by
  rcases Nat.lt_or_ge index tape.tokens.length with hlt | hge
  · rw [get, get, padded, List.getElem?_append_left hlt]
  · rw [get_of_le hge, get, padded, List.getElem?_append_right hge]
    cases index - tape.tokens.length <;> rfl

/-- A list that begins with the tokens up to one of them. -/
theorem agreesBelow_of_lt {tape : Tape} {index : Nat} (h : index < tape.tokens.length)
    (back : List Token) (file : String) :
    tape.AgreesBelow (ofTokens (tape.tokens.take index ++ tape.get index :: back) file)
      (index + 1) := by
  have hfront : tape.tokens.take index ++ tape.get index :: back =
      tape.tokens.take (index + 1) ++ back := by
    rw [← List.take_append_getElem h, getElem_eq_get h, List.append_assoc, List.singleton_append]
  intro i hi
  have hlt : i < (tape.tokens.take (index + 1)).length := by
    rw [List.length_take]
    omega
  rw [get, get, ofTokens, hfront, List.getElem?_append_left hlt, List.getElem?_take_of_lt hi,
    List.getElem?_eq_getElem (by omega)]
  rfl

end Tape

/-! ## Runs of the routine for programs -/

section

variable {tape : Tape} {limits : Limits} {levels : Nat} {after : Parser}

/-- One of two runs in lockstep, on the same tape. -/
theorem Program.exists_abreast (tape : Tape) (limits : Limits) (levels : Nat) :
    ∃ outcome, tape.twins.Abreast 0 tape.twins.Finished (Matches tape.twins.PairsTexts)
      (parse levels ((Spot.start limits).on tape)) outcome :=
  ⟨_, parse_abreast tape.twins limits levels⟩

theorem Program.mostPending_le (tape : Tape) (limits : Limits) (levels : Nat) :
    (((Spot.start limits).on tape).run (parse levels)).2.stream.mostPending ≤ 3 := by
  obtain ⟨outcome', hparse⟩ := exists_abreast tape limits levels
  rw [Parser.run]
  revert hparse
  generalize parse levels ((Spot.start limits).on tape) = outcome
  intro hparse
  cases hparse with
  | ok _ hfinished =>
    obtain ⟨index, hspot, -⟩ := hfinished
    exact hspot.mostPending_le
  | complains _ hspot => exact hspot.mostPending_le
  | refuses _ _ hmost => exact hmost

/-- After a program the first token that ends the source is the last one drawn. -/
theorem Program.parse_finishes {program : Program}
    (hrun : parse levels ((Spot.start limits).on tape) = .ok program after) :
    ∃ index, tape.EndlessBetween 0 index ∧ (tape.get index).kind = .eof ∧
      after.stream.pushed = [] ∧ after.stream.ahead = tape.tokens.drop (index + 1) := by
  obtain ⟨outcome', hparse⟩ := exists_abreast tape limits levels
  rw [hrun] at hparse
  cases hparse with
  | @ok _ _ spot _ hfinished =>
    obtain ⟨index, hspot, hendless, heof⟩ := hfinished
    have hpending := Nat.le_zero.mp hspot.pending_le
    refine ⟨index, hendless, heof, ?_, ?_⟩
    · exact List.eq_nil_of_length_eq_zero ((spot.pending_on tape).trans hpending)
    · show tape.tokens.drop spot.drawn = _
      rw [Spot.drawn, hspot.index_eq, hpending]

theorem Program.pending_of_refusal {error : Error}
    (hrun : parse levels ((Spot.start limits).on tape) = .error error after)
    (hrefusal : error.cause.isRefusal = true) : after.stream.pending = 1 := by
  obtain ⟨outcome', hparse⟩ := exists_abreast tape limits levels
  rw [hrun] at hparse
  cases hparse with
  | complains complaint => cases complaint <;> cases hrefusal
  | @refuses spot _ _ hpending => exact (spot.pending_on _).trans hpending

end

/-! ## Syntax errors -/

/-- Two spots where a parser with tokens ahead can be are at the same place. -/
theorem Spot.drawn_eq_of_on_eq {spot spot' : Spot} {tape : Tape} (h : spot.on tape = spot'.on tape)
    (hlt : spot.drawn < tape.tokens.length) : spot'.drawn = spot.drawn := by
  have hahead : tape.tokens.drop spot.drawn = tape.tokens.drop spot'.drawn :=
    congrArg (·.stream.ahead) h
  have hlength := congrArg List.length hahead
  rw [List.length_drop, List.length_drop] at hlength
  omega

/-- The token that a syntax error is about is the last one drawn, and no other list of tokens that
has the same tokens up to this one gives anything else. -/
theorem Program.parse_blames {tape : Tape} {limits : Limits} {levels : Nat} {error : Error}
    {after : Parser} (hrun : parse levels ((Spot.start limits).on tape) = .error error after)
    (hsyn : error.cause.isRefusal = false) :
    ∃ index, tape.EndlessBetween 0 index ∧ error.IsAbout (tape.get index) ∧
      after.stream.pushed = [] ∧ after.stream.ahead = tape.tokens.drop (index + 1) ∧
      (index < tape.tokens.length → ∀ tape' : Tape, tape.AgreesBelow tape' (index + 1) →
        ∃ after', parse levels ((Spot.start limits).on tape') = .error error after') := by
  -- with one token more, it can be told how many tokens were drawn
  obtain ⟨outcome', hpadded⟩ := exists_abreast tape.padded limits levels
  have hcarries : ∀ other : Tape, Spot.Carries tape.padded other (Spot.start limits).drawn
      (fun _ => []) (parse levels ((Spot.start limits).on tape.padded))
      (parse levels ((Spot.start limits).on other)) :=
    fun other => (Program.composed le_rfl).carries (Spot.follows_nil _ _)
  have hsame : ∀ bound, tape.padded.AgreesBelow tape bound :=
    fun _ index _ => tape.get_padded index
  have htape := hcarries tape
  rw [hrun] at htape
  revert hpadded hcarries htape
  generalize parse levels ((Spot.start limits).on tape.padded) = outcome
  intro hpadded hcarries htape
  cases hpadded with
  | ok =>
    obtain ⟨_, _, hok⟩ := htape.of_ok
    cases hok (hsame _)
  | refuses hcause =>
    obtain ⟨_, _, herror⟩ := htape.of_error
    cases herror (hsame _)
    cases hsyn.symm.trans hcause
  | @complains spot index complaint hspot hendless =>
    obtain ⟨stop, hstop, herror⟩ := htape.of_error
    cases herror (hsame _)
    have hkind : ∀ i, (tape.padded.get i).kind = (tape.get i).kind :=
      fun i => congrArg (·.kind) (tape.get_padded i)
    have hdrawn : spot.drawn = index + 1 := by
      rw [Spot.drawn, hspot.index_eq, Nat.le_zero.mp hspot.pending_le]
    have hunique : ∀ spot' : Spot, spot.on tape.padded = spot'.on tape.padded →
        index < tape.tokens.length → spot'.drawn = index + 1 := by
      intro spot' hspot' hlt
      rw [← hdrawn]
      refine Spot.drawn_eq_of_on_eq hspot' ?_
      rw [hdrawn, Tape.padded, List.length_append]
      exact Nat.succ_lt_succ hlt
    refine ⟨index, fun i hfirst hlast => hkind i ▸ hendless i hfirst hlast,
      tape.get_padded index ▸ complaint.isAbout _, ?_, ?_, fun hlt tape' hagrees => ?_⟩
    · have hpending : stop.pending = 0 := by
        rw [← stop.pending_on tape.padded, ← hstop]
        exact (spot.pending_on _).trans (Nat.le_zero.mp hspot.pending_le)
      exact List.eq_nil_of_length_eq_zero ((stop.pending_on tape).trans hpending)
    · show tape.tokens.drop stop.drawn = _
      rcases Nat.lt_or_ge index tape.tokens.length with hlt | hge
      · rw [hunique stop hstop hlt]
      · have hlength : (tape.padded.tokens.drop spot.drawn).length =
            (tape.padded.tokens.drop stop.drawn).length :=
          congrArg (·.stream.ahead.length) hstop
        rw [List.length_drop, List.length_drop, Tape.padded, List.length_append, hdrawn,
          List.length_singleton] at hlength
        rw [List.drop_eq_nil_of_le (by omega), List.drop_eq_nil_of_le (by omega)]
    · obtain ⟨stop', hstop', herror'⟩ := (hcarries tape').of_error
      refine ⟨_, herror' fun i hi => ?_⟩
      rw [hunique stop' hstop' hlt] at hi
      rw [tape.get_padded, hagrees i hi]

/-! ## Parses -/

/-- At no moment of a parse more than three tokens wait to be taken again.

After a program none waits, and the first token that ends the source was the last one drawn: a token
of the list or, if there is none, the one that the stream adds. The stream is drained if no token of
the list comes after it. After a syntax error none waits either, and the token that the error is
about was the last one drawn. If it is one of the list, any list that begins with the tokens up to it
gives the same error. After a refusal one token waits. -/
theorem parseWith_readAhead (tokens : List Token) (file : String) (limits : Limits) :
    let run := parseWith (.ofTokens tokens file) limits
    (∀ moment, (TokenStream.ofTokens tokens file).Leads moment → moment.Leads run.2.stream →
      moment.pending ≤ 3) ∧
    (TokenStream.ofTokens tokens file).Leads run.2.stream ∧
    (∀ program, run.1 = .ok program → run.2.stream.pending = 0 ∧
      ∃ front accepted, (∀ token ∈ front, token.kind ≠ .eof) ∧ accepted.kind = .eof ∧
        (tokens = front ++ accepted :: run.2.stream.ahead ∨
          tokens = front ∧ accepted = TokenStream.finalOf tokens file ∧ run.2.stream.ahead = []) ∧
        (run.2.stream.isDrained = true ↔ tokens = front ++ [accepted] ∨ tokens = front)) ∧
    (∀ error, run.1 = .error error → error.cause.isRefusal = false → run.2.stream.pending = 0 ∧
      ∃ front found, (∀ token ∈ front, token.kind ≠ .eof) ∧ error.IsAbout found ∧
        ((tokens = front ++ found :: run.2.stream.ahead ∧ ∀ back file',
            (parseWith (.ofTokens (front ++ found :: back) file') limits).1 = .error error) ∨
          tokens = front ∧ found = TokenStream.finalOf tokens file ∧ run.2.stream.ahead = [])) ∧
    (∀ error, run.1 = .error error → error.cause.isRefusal = true → run.2.stream.pending = 1) := by
  intro run
  let tape := Tape.ofTokens tokens file
  have hstream : run.2.stream =
      (((Spot.start limits).on tape).run (Program.parse limits.maxDepth)).2.stream :=
    stream_parseWith tape.stream limits
  refine ⟨?moments, parseWith_leads _ limits, ?ok, ?syntaxError, ?refusal⟩
  case moments =>
    intro moment hbefore hafter
    have hmost := hstream ▸ Program.mostPending_le tape limits limits.maxDepth
    exact Nat.le_trans (hbefore.mostPending_le.2 (Nat.zero_le _))
      (Nat.le_trans hafter.mostPending_le.1 hmost)
  case ok =>
    intro program hok
    obtain ⟨after, hparse⟩ := parseWith_fst_eq_ok.mp hok
    change Program.parse limits.maxDepth ((Spot.start limits).on tape) = _ at hparse
    obtain ⟨index, hendless, heof, hpushed, hahead⟩ := Program.parse_finishes hparse
    rw [hstream, Parser.run, hparse]
    refine ⟨congrArg List.length hpushed, tokens.take index, tape.get index,
      fun token hmem => hendless.kind_ne hmem, heof, ?_, ?_⟩
    · rw [hahead]
      exact tape.tokens_eq_or index
    · rw [TokenStream.isDrained, hpushed, hahead]
      exact List.isEmpty_iff.trans (tape.drop_succ_eq_nil_iff index)
  case syntaxError =>
    intro error herror hsyn
    obtain ⟨after, hparse, -⟩ := parseWith_fst_eq_error herror
    change Program.parse limits.maxDepth ((Spot.start limits).on tape) = _ at hparse
    obtain ⟨index, hendless, habout, hpushed, hahead, hlocal⟩ := Program.parse_blames hparse hsyn
    rw [hstream, Parser.run, hparse]
    refine ⟨congrArg List.length hpushed, tokens.take index, tape.get index,
      fun token hmem => hendless.kind_ne hmem, habout, ?_⟩
    rw [hahead]
    rcases Nat.lt_or_ge index tape.tokens.length with hlt | hge
    · refine .inl ⟨Tape.tokens_eq_of_lt hlt, fun back file' => ?_⟩
      have hagrees : tape.AgreesBelow
          (.ofTokens (tokens.take index ++ tape.get index :: back) file') (index + 1) :=
        Tape.agreesBelow_of_lt hlt back file'
      obtain ⟨after', hparse'⟩ := hlocal hlt _ hagrees
      rw [parseWith_eq, ← Tape.stream_ofTokens, ← Spot.start_on, hparse']
    · exact .inr ⟨(List.take_of_length_le hge).symm, Tape.get_of_le hge,
        List.drop_eq_nil_of_le (Nat.le_succ_of_le hge)⟩
  case refusal =>
    intro error herror hrefusal
    obtain ⟨after, hparse, -⟩ := parseWith_fst_eq_error herror
    change Program.parse limits.maxDepth ((Spot.start limits).on tape) = _ at hparse
    rw [hstream, Parser.run, hparse]
    exact Program.pending_of_refusal hparse hrefusal

/-- No list that begins with these tokens, which lack `=` before a value, can be parsed: the value is
the last token drawn. -/
theorem parseWith_readAhead_tokensWithoutEquals :
    ∃ error, (parseWith (.ofTokens tokensWithoutEquals "a") {}).1 = .error error ∧
      (parseWith (.ofTokens tokensWithoutEquals "a") {}).2.stream.pending = 0 ∧
      ∀ more file, (parseWith (.ofTokens (tokensWithoutEquals ++ more) file) {}).1 = .error error := by
  have herror : (parseWith (.ofTokens tokensWithoutEquals "a") {}).1 =
      .error ⟨.unexpectedAlternative "member" "`static`, a name or a class name" ⟨.number, "1"⟩,
        ⟨19, "a"⟩⟩ := by
    decide +kernel
  obtain ⟨hpending, front, found, hfront, habout, hfound⟩ :=
    (parseWith_readAhead tokensWithoutEquals "a" {}).2.2.2.1 _ herror rfl
  refine ⟨_, herror, hpending, fun more file => ?_⟩
  rcases hfound with ⟨htokens, hlocal⟩ | ⟨-, hfinal, -⟩
  · rw [htokens, List.append_assoc, List.cons_append]
    exact hlocal _ file
  · have hkind : found.kind = .number := (congrArg Word.kind (Option.some.inj habout.1)).symm
    rw [hfinal, TokenStream.kind_finalOf] at hkind
    cases hkind

end FrappeSyntax
