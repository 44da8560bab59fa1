import FrappeSyntax.Proofs.Evaluation
import FrappeSyntax.Proofs.ProductionFault
import FrappeSyntax.Proofs.ReadAhead

/-!
# Termination

A token stream never ends, since it yields the end token over and over, and a loop goes on for as
long as the next token does not end it. Still every routine for a production comes to an end, from
every parser: each item of a loop takes a token, and none takes the end token, so a routine that
meets it fails. For the same reason no level is refused if there are more levels than tokens to come.

* `Production.Consumes`: what a routine for a production may take.
* `TokenStream.StopsAtEnd`, `Production.stopsAtEnd`: the tokens that are drawn from a fresh stream.
* `Routine.IsUnlimitedBy`: a limit on depth that is never met.
* `Production.parse_terminates`: all routines.
-/

namespace FrappeSyntax

/-! ## What is taken -/

/-- What a routine for a production may take: at least one token, and the end of the source only if
it is the last token of a program. -/
structure Production.Consumes (production : Production) (consumed : List Token) : Prop where
  ne_nil : consumed ≠ []
  inner : production ≠ .program → ∀ token ∈ consumed, token.kind ≠ .eof
  whole : production = .program → ∃ front last, consumed = front ++ [last] ∧ last.kind = .eof ∧
    ∀ token ∈ front, token.kind ≠ .eof

theorem Production.consumes_of_derives {production : Production} {consumed : List Token}
    (h : Derives [.part production] (consumed.map Token.toWord)) : production.Consumes consumed where
  ne_nil := by
    rintro rfl
    exact Nat.not_succ_le_zero _ h.length_le
  inner hne token hmem := by
    have hend : ∀ symbol ∈ [Symbol.part production], symbol.isEnd = false :=
      List.forall_mem_singleton.mpr (beq_eq_false_iff_ne.mpr hne)
    exact h.kind_ne hend token.toWord (List.mem_map_of_mem hmem)
  whole := by
    rintro rfl
    obtain ⟨front, last, hwords, hlast, hfront⟩ := h.exists_of_program
    obtain ⟨tokens, back, rfl, rfl, hback⟩ := List.map_eq_append_iff.mp hwords
    obtain ⟨token, rfl, rfl⟩ := List.map_eq_singleton_iff.mp hback
    exact ⟨tokens, token, rfl, hlast, fun token hmem => hfront _ (List.mem_map_of_mem hmem)⟩

/-! ## The tokens that are drawn -/

namespace TokenStream

/-- Of the tokens of a list a stream drew none that comes after an end token, and at most one more
than there are tokens before the first end token. -/
structure StopsAtEnd (tokens : List Token) (stream : TokenStream) : Prop where
  suffix : ∀ front last back, tokens = front ++ last :: back → last.kind = .eof →
    back <:+ stream.ahead
  drawn : ∃ drawn, tokens = drawn ++ stream.ahead ∧
    drawn.length ≤ (tokens.takeWhile (·.kind != .eof)).length + 1

/-- Tokens that were drawn are not to be drawn any more. -/
theorem Leads.ahead_suffix {stream stream' : TokenStream} (h : stream.Leads stream') :
    stream'.ahead <:+ stream.ahead := by
  induction h with
  | refl => exact List.suffix_rfl
  | @next stream' _ ih =>
    refine List.IsSuffix.trans ?_ ih
    obtain ⟨_ | ⟨token, pushed⟩, _ | ⟨token', ahead⟩, final, most, hfinal⟩ := stream'
    · exact List.suffix_rfl
    · exact List.suffix_cons ..
    · exact List.suffix_rfl
    · exact List.suffix_rfl
  | pushBack _ _ ih => exact ih

/-- What was not drawn in the end was not drawn at any moment. -/
theorem StopsAtEnd.of_leads {tokens : List Token} {file : String} {moment stream : TokenStream}
    (h : stream.StopsAtEnd tokens) (hbefore : (ofTokens tokens file).Leads moment)
    (hafter : moment.Leads stream) : moment.StopsAtEnd tokens where
  suffix front last back htokens hlast :=
    (h.suffix front last back htokens hlast).trans hafter.ahead_suffix
  drawn := by
    obtain ⟨drawn, hdrawn, hle⟩ := h.drawn
    obtain ⟨drawn', hdrawn'⟩ : moment.ahead <:+ tokens := hbefore.ahead_suffix
    refine ⟨drawn', hdrawn'.symm, Nat.le_trans ?_ hle⟩
    have hlength := congrArg List.length (hdrawn'.trans hdrawn)
    have hahead := hafter.ahead_suffix.length_le
    rw [List.length_append, List.length_append] at hlength
    omega

end TokenStream

/-- At a spot where at most one token more is drawn than there are before some token, where none of
them ends the source, no token after an end token is drawn. -/
theorem Spot.stopsAtEnd {tape : Tape} {spot : Spot} {index : Nat}
    (hendless : tape.EndlessBetween 0 index) (hdrawn : spot.drawn ≤ index + 1) :
    (spot.on tape).stream.StopsAtEnd tape.tokens where
  suffix := by
    intro front last back htokens hlast
    have hindex : index ≤ front.length := by
      by_contra hlt
      refine hendless front.length (Nat.zero_le _) (Nat.lt_of_not_le hlt) ?_
      rw [Tape.get, htokens, List.getElem?_append_right le_rfl, Nat.sub_self]
      exact hlast
    have hback : back = tape.tokens.drop (front.length + 1) := by
      rw [htokens, ← List.drop_drop, List.drop_left]
      rfl
    rw [hback]
    exact List.drop_suffix_drop_left _ (Nat.le_trans hdrawn (Nat.succ_le_succ hindex))
  drawn := by
    have htake : index ≤ (tape.tokens.takeWhile (·.kind != .eof)).length := by
      have hfront : ∀ token ∈ tape.tokens.take index, (token.kind != .eof) = true :=
        fun token hmem => bne_iff_ne.mpr (hendless.kind_ne hmem)
      rw [← List.take_append_drop index tape.tokens, List.takeWhile_append_of_pos hfront,
        List.length_append, List.length_take, Nat.min_eq_left hendless.le_length]
      exact Nat.le_add_right _ _
    refine ⟨tape.tokens.take spot.drawn, (List.take_append_drop ..).symm, ?_⟩
    exact Nat.le_trans (List.length_take_le ..) (Nat.le_trans hdrawn (Nat.succ_le_succ htake))

theorem Spot.IsAt.drawn_le {spot : Spot} {index : Nat} (h : spot.IsAt index 0) :
    spot.drawn ≤ index := by
  rw [Spot.drawn, h.index_eq]
  exact Nat.add_le_add_left h.pending_le index

/-- Two runs in step stop at the first token that ends the source. -/
theorem TwinTapes.Abreast.stopsAtEnd {tape : Tape} {settled : Spot → Prop} {rel : α → β → Prop}
    {routine : Routine α} {parser : Parser} {outcome' : EStateM.Result Error Parser β}
    (h : tape.twins.Abreast 0 settled rel (routine parser) outcome')
    (hsettled : ∀ spot, settled spot →
      ∃ index, tape.EndlessBetween 0 index ∧ spot.drawn ≤ index + 1) :
    (parser.run routine).2.stream.StopsAtEnd tape.tokens := by
  rw [Parser.run]
  revert h
  generalize routine parser = outcome
  intro h
  cases h with
  | @ok _ _ spot _ hspot =>
    obtain ⟨index, hendless, hdrawn⟩ := hsettled spot hspot
    exact spot.stopsAtEnd hendless hdrawn
  | @complains spot index _ hspot hendless =>
    exact spot.stopsAtEnd hendless hspot.drawn_le
  | @refuses spot _ _ hpending _ hendless =>
    exact spot.stopsAtEnd hendless (Nat.add_le_add_left (Nat.le_of_eq hpending) _)

/-- From a fresh stream a routine draws no token after an end token. -/
def Routine.StopsAtEnd (routine : Routine α) : Prop :=
  ∀ (parser : Parser) (tokens : List Token) (file : String), parser.stream = .ofTokens tokens file →
    (parser.run routine).2.stream.StopsAtEnd tokens

namespace Routine.StopsAtEnd

variable {routine : Routine α}

/-- A parser with a fresh stream is at the start of a tape. -/
theorem of_spot (h : ∀ (tape : Tape) (spot : Spot), spot.IsAt 0 1 →
    ((spot.on tape).run routine).2.stream.StopsAtEnd tape.tokens) : routine.StopsAtEnd := by
  rintro ⟨_, limits, looks, depth, log⟩ tokens file rfl
  exact h (.ofTokens tokens file) ⟨0, 0, 0, limits, looks, depth, log⟩
    ⟨rfl, Nat.zero_le 1, Nat.zero_le 3⟩

theorem of_inStep {rel : TwinTapes → α → α → Prop}
    (h : ∀ twins : TwinTapes, twins.InStep (rel twins) routine routine) : routine.StopsAtEnd :=
  of_spot fun tape spot hspot => (h tape.twins 0 spot hspot).stopsAtEnd fun spot hcalm =>
    ⟨spot.index, hcalm.endless, Nat.add_le_add_left hcalm.pending_le _⟩

theorem map (h : routine.StopsAtEnd) (make : α → β) : (make <$> routine).StopsAtEnd := by
  intro parser tokens file hstream
  have hrun := h parser tokens file hstream
  rw [Parser.run] at hrun ⊢
  rw [← bind_pure_comp, bind_apply]
  revert hrun
  cases routine parser <;> exact id

theorem withLevels {routine : Nat → Routine α} (h : ∀ levels, (routine levels).StopsAtEnd) :
    (Routine.withLevels routine).StopsAtEnd :=
  fun parser => h parser.levels parser

end Routine.StopsAtEnd

theorem Program.stopsAtEnd (levels : Nat) : (parse levels).StopsAtEnd := by
  refine .of_spot fun tape spot hspot =>
    (parse_abreast_from tape.twins levels hspot).stopsAtEnd ?_
  rintro spot ⟨index, hspot, hendless, -⟩
  exact ⟨index, hendless, hspot.drawn_le⟩

/-- The routine for a production, one case for each. -/
theorem Production.stopsAtEnd (production : Production) (levels : Nat) :
    (production.parseAt levels).StopsAtEnd := by
  have hfrom : ∀ {α : Type} {rel : TwinTapes → α → α → Prop} {routine : Routine α}
      (make : α → Fragment), (∀ twins : TwinTapes, twins.InStep (rel twins) routine routine) →
      (make <$> routine).StopsAtEnd := fun make h => (Routine.StopsAtEnd.of_inStep h).map make
  have hexpression : ∀ twins : TwinTapes, twins.InStep (Expression.Matches twins.PairsTexts)
      (Expression.parse levels) (Expression.parse levels) := fun _ => Expression.parse_inStep levels
  have hstatement : ∀ twins : TwinTapes, twins.InStep (Statement.Matches twins.PairsTexts)
      (Statement.parse levels) (Statement.parse levels) := fun _ => Statement.parse_inStep levels
  have hblock : ∀ (twins : TwinTapes) (label : String),
      twins.InStep (List.Forall₂ (Statement.Matches twins.PairsTexts))
        (Statement.parseBlock levels label) (Statement.parseBlock levels label) :=
    fun _ label => Statement.block_inStep levels label
  cases production with
  | program => exact (Program.stopsAtEnd levels).map _
  | classes => exact hfrom _ fun _ => ClassDef.series_inStep levels
  | classBody => exact hfrom _ fun _ => ClassDef.parse_inStep levels
  | members => exact hfrom _ fun _ => Member.series_inStep levels
  | member => exact hfrom _ fun _ => Member.parse_inStep levels
  | staticField => exact hfrom _ fun _ => Member.staticField_inStep levels
  | staticMethod => exact hfrom _ fun _ => Member.staticMethod_inStep levels
  | instanceField => exact hfrom _ fun _ => Member.instanceField_inStep
  | instanceMethod =>
    exact hfrom _ fun _ => Member.namedMethod_inStep levels _ (by decide) .instanceMethod
  | constructor => exact hfrom _ fun _ => Member.namedMethod_inStep levels _ (by decide) .constructor
  | restOfMethod => exact hfrom _ fun _ => Method.parse_inStep levels
  | params => exact hfrom _ fun _ => Method.params_inStep
  | methodBody => exact hfrom _ fun twins => .enter _ (hblock twins _)
  | statements => exact hfrom _ fun twins => Statement.series_inStep (hstatement twins)
  | statement => exact hfrom _ hstatement
  | whileStatement =>
    exact hfrom _ fun twins =>
      Statement.guarded_inStep _ (by decide) .while (hexpression twins) (hblock twins)
  | ifStatement =>
    exact hfrom _ fun twins =>
      Statement.guarded_inStep _ (by decide) .if (hexpression twins) (hblock twins)
  | loopBody => exact hfrom _ fun twins => .enter _ (hblock twins _)
  | returnStatement => exact hfrom _ fun twins => Statement.return_inStep (hexpression twins)
  | assignment => exact hfrom _ fun twins => Statement.assignment_inStep (hexpression twins)
  | rhs => exact hfrom _ fun twins => Rhs.parse_inStep (hexpression twins)
  | newObject => exact hfrom _ fun twins => NewObject.parse_inStep (hexpression twins)
  | expression => exact hfrom _ hexpression
  | refChain => exact hfrom _ fun twins => Caller.chain_inStep (hexpression twins)
  | caller => exact hfrom _ fun twins => Caller.parse_inStep (hexpression twins)
  | argsPart => exact hfrom _ fun twins => Expression.argsPart_inStep (hexpression twins)
  | args => exact hfrom _ fun twins => Expression.args_inStep (hexpression twins)

theorem Fragment.block_stopsAtEnd (label : String) : (parseBlock label).StopsAtEnd := by
  rw [parseBlock_eq]
  exact .withLevels fun levels =>
    (Routine.StopsAtEnd.of_inStep fun _ => Statement.block_inStep levels label).map _

/-! ## Limits on depth that are never met -/

/-- A limit on depth that leaves more levels than there are tokens to come is as good as none: no
level is refused because of it, and with each higher limit a routine does the same. -/
def Routine.IsUnlimitedBy (limit : Nat) (parser : Parser) (routine : Routine α) : Prop :=
  (∀ error, ((parser.withMaxDepth limit).run routine).1 = .error error → ¬ error.IsTooDeep) ∧
    ∀ more, limit ≤ more → (parser.withMaxDepth more).run routine =
      (((parser.withMaxDepth limit).run routine).1,
        ((parser.withMaxDepth limit).run routine).2.withMaxDepth more)

/-- For each level that is opened a token is taken before the next one is, so the tokens run out
before the levels do. -/
theorem Routine.isUnlimitedBy_of_faults {routine : Nat → Routine α}
    {fault : Nat → List Token → Cause → Prop}
    (hcomposed : ∀ {levels more}, levels ≤ more →
      Composed levels more (routine levels) (routine more))
    (hfaults : ∀ levels, Faults levels (fault levels) (routine levels)) {parser : Parser}
    {limit : Nat} (hlt : parser.depth + parser.stream.upcoming.length < limit) :
    (withLevels routine).IsUnlimitedBy limit parser := by
  let start := parser.withMaxDepth limit
  have hnot : ∀ {error after}, routine start.levels start = .error error after →
      ¬ error.IsTooDeep := by
    intro error after hrun hdeep
    have hbound : limit - parser.depth < parser.stream.upcoming.length + 1 :=
      (hfaults _).refuses hrun hdeep start.stream.endsWithin
    omega
  have hrun : ∀ maxDepth, (parser.withMaxDepth maxDepth).run (withLevels routine) =
      (parser.withMaxDepth maxDepth).run (routine (parser.withMaxDepth maxDepth).levels) :=
    fun _ => rfl
  refine ⟨fun error herror => ?_, fun more hle => ?_⟩
  · rw [hrun, Parser.run] at herror
    cases houtcome : routine start.levels start with
    | ok result after => rw [houtcome] at herror; cases herror
    | error error' after =>
      rw [houtcome] at herror
      cases herror
      exact hnot houtcome
  · have hcut : CutShort more (fun _ => []) (routine start.levels start)
        (routine (parser.withMaxDepth more).levels (parser.withMaxDepth more)) :=
      (hcomposed (Nat.sub_le_sub_right hle _)).cutShort more start
    rw [hrun, hrun, Parser.run, Parser.run]
    revert hcut hnot
    generalize routine start.levels start = outcome,
      routine (parser.withMaxDepth more).levels (parser.withMaxDepth more) = outcome'
    intro hnot hcut
    cases hcut with
    | ok | error => rfl
    | tooDeep _ hdeep => exact absurd hdeep (hnot rfl)

/-! ## All routines -/

/-- A routine comes to an end from every parser, and takes what it may. -/
structure Routine.Terminates (routine : Routine α) (consumes : List Token → Prop) : Prop where
  /-- Evaluated step by step, it ends with what it gives; and after a result the tokens that were
  taken are such as it may take. -/
  ends : ∀ parser : Parser, ∃ consumed, routine.Ends parser [] (routine parser) consumed ∧
    ∀ result after, routine parser = .ok result after →
      parser.sequence = consumed ++ₛ after.sequence ∧ consumes consumed
  /-- Without a limit on depth it ends too. -/
  unlimited : ∀ (parser : Parser) (limit : Nat),
    parser.depth + parser.stream.upcoming.length < limit → routine.IsUnlimitedBy limit parser
  /-- At no moment of a run that started with a fresh stream a token after an end token was drawn. -/
  stopsAtEnd : ∀ (parser : Parser) (tokens : List Token) (file : String),
    parser.stream = .ofTokens tokens file → ∀ moment, parser.stream.Leads moment →
      moment.Leads (parser.run routine).2.stream → moment.StopsAtEnd tokens

theorem Routine.Terminates.of_composed {routine : Nat → Routine α} {consumes : List Token → Prop}
    {fault : Nat → List Token → Cause → Prop}
    (hcomposed : ∀ {levels more}, levels ≤ more →
      Composed levels more (routine levels) (routine more))
    (htook : ∀ {parser result after}, withLevels routine parser = .ok result after →
      ∃ tokens, parser.sequence = tokens ++ₛ after.sequence ∧ consumes tokens)
    (hfaults : ∀ levels, Faults levels (fault levels) (routine levels))
    (hstops : (withLevels routine).StopsAtEnd) : (withLevels routine).Terminates consumes where
  ends parser := by
    have hends : (routine parser.levels).EndsAlike parser [] fun _ => [] :=
      (hcomposed le_rfl).endsAlike parser []
    exact hends.withLevels.exists_consumed htook
  unlimited _ _ hlt := isUnlimitedBy_of_faults hcomposed hfaults hlt
  stopsAtEnd parser tokens file hstream _ hbefore hafter :=
    (hstops parser tokens file hstream).of_leads (hstream ▸ hbefore) hafter

/-- Every routine for a production, and for a block, comes to an end from every parser, whatever was
handed back, and with any limit on depth. A result takes at least one token, and none that ends the
source; but a program takes one, as its last. From a fresh stream no token after an end token is ever
drawn, and at most one more than there are tokens before the first end token. -/
theorem Production.parse_terminates :
    (∀ production : Production, production.parse.Terminates production.Consumes) ∧
    (∀ label, (Fragment.parseBlock label).Terminates Production.methodBody.Consumes) ∧
    ∀ (tokens : List Token) (file : String) (limits : Limits) (moment : TokenStream),
      (TokenStream.ofTokens tokens file).Leads moment →
      moment.Leads (parseWith (.ofTokens tokens file) limits).2.stream → moment.StopsAtEnd tokens := by
  refine ⟨fun production => ?_, fun label => ?_,
    fun tokens file limits moment hbefore hafter => ?_⟩
  · refine .of_composed production.composed ?_ (fun _ => production.faults)
      (.withLevels production.stopsAtEnd)
    intro parser fragment after hrun
    obtain ⟨tokens, hseq, -, hderives⟩ := (took_of_parseAt hrun).1
    exact ⟨tokens, hseq, consumes_of_derives hderives⟩
  · rw [Fragment.parseBlock_eq]
    refine .of_composed (fun hle => (Statement.block_composed hle label).map _) ?_
      (fun levels => ((Statement.faults_and_block_faults levels).2 .loopBody label rfl).map _)
      (Fragment.block_stopsAtEnd label)
    intro parser statements after hrun
    obtain ⟨tokens, hseq, -, hderives⟩ := took_of_parseBlock hrun
    exact ⟨tokens, hseq, consumes_of_derives hderives⟩
  · rw [stream_parseWith] at hafter
    exact (Program.stopsAtEnd limits.maxDepth (.started _ limits) tokens file rfl).of_leads
      hbefore hafter

/-- The chain `this . x` is taken, and with more than four levels it does not matter how many there
are; a parse that fails at an end token does not draw what comes after it. -/
theorem Production.parse_terminates_chain :
    (∃ consumed, Production.expression.parse.Ends Parser.beforeChain []
        (Production.expression.parse Parser.beforeChain) consumed ∧
      consumed ≠ [] ∧ ∀ token ∈ consumed, token.kind ≠ .eof) ∧
    Production.expression.parse.IsUnlimitedBy 5 Parser.beforeChain ∧
    (parseWith (.ofTokens [.endAt ⟨0, "a"⟩, ⟨⟨.classWord, "class"⟩, ⟨⟨0, "a"⟩, ⟨5, "a"⟩⟩⟩] "a") {}
      ).2.stream.StopsAtEnd [.endAt ⟨0, "a"⟩, ⟨⟨.classWord, "class"⟩, ⟨⟨0, "a"⟩, ⟨5, "a"⟩⟩⟩] := by
  have hrun : Parser.beforeChain.run Production.expression.parse =
      (.ok (.expression (.chain (.ref .this "this") [.ref .name "x"])),
        (Parser.beforeChain.run Production.expression.parse).2) := by
    decide +kernel
  obtain ⟨consumed, hends, hok⟩ := (Production.parse_terminates.1 .expression).ends Parser.beforeChain
  obtain ⟨-, hconsumes⟩ := hok _ _ (Routine.eq_ok_of_run hrun)
  exact ⟨⟨consumed, hends, hconsumes.ne_nil, hconsumes.inner (by decide)⟩,
    (Production.parse_terminates.1 .expression).unlimited _ _ (by decide),
    Production.parse_terminates.2.2 _ _ _ _ (parseWith_leads _ _) .refl⟩

end FrappeSyntax
