import FrappeSyntax.Proofs.Acceptance
import FrappeSyntax.Proofs.Depth

/-!
# The limit on depth

The limit on depth does nothing but end a parse early. With a higher limit a parse that was not
ended by it is the same in all respects; and a parse that was ended by it goes on from where it
stopped.

* `ComposedAfter.exists_taken`: what a routine leaves is the end of what was there.
* `Routine.CutShort`: one run is another, or is cut short.
* `ComposedAfter.cutShort`: with fewer levels, a run is cut short at most.
* `ComposedAfter.reaches_refuse`: a run that is cut short has opened all its levels.
* `parseWith_maxDepth`: parses with different limits on depth.
-/

namespace FrappeSyntax

/-- Holds for the error that tells that a level was too deep. -/
def Error.IsTooDeep (error : Error) : Prop := ∃ limit, error.cause = .recursionLimitExceeded limit

theorem Error.IsTooDeep.not_isSyntax {error : Error} (h : error.IsTooDeep) : ¬ error.IsSyntax := by
  obtain ⟨limit, hcause⟩ := h
  simp [IsSyntax, hcause, Cause.found?]

theorem Error.IsTooDeep.refusals_eq {error : Error} (h : error.IsTooDeep) : error.refusals = 1 := by
  obtain ⟨limit, hcause⟩ := h
  simp [refusals, hcause, Cause.isRefusal]

/-- The same limits, but for the one on depth. -/
def Limits.withMaxDepth (maxDepth : Nat) (limits : Limits) : Limits :=
  { limits with maxDepth := maxDepth }

/-- The same parser with another limit on depth. -/
def Parser.withMaxDepth (maxDepth : Nat) (parser : Parser) : Parser :=
  { parser with limits := parser.limits.withMaxDepth maxDepth }

/-! ## What is left -/

/-- What is left after a routine, if tokens that it took may be handed back. -/
def Routine.remaining (left : α → List Token) : EStateM.Result Error Parser α → Stream' Token
  | .ok result after => left result ++ₛ after.sequence
  | .error _ after => after.sequence

/-- What is left when tokens are not handed back any more. -/
theorem Routine.exists_remaining_eq (left : α → List Token)
    (outcome : EStateM.Result Error Parser α) :
    ∃ tokens, remaining left outcome = tokens ++ₛ remaining (fun _ => []) outcome := by
  cases outcome with
  | ok result after => exact ⟨left result, rfl⟩
  | error error after => exact ⟨[], rfl⟩

/-- What is left after a routine that opens a level. -/
theorem Routine.remaining_deeper (routine : Routine α) (parser : Parser) (left : α → List Token) :
    remaining left (deeper routine parser) = parser.sequence ∨
      remaining left (deeper routine parser) = remaining left (routine parser.opened) := by
  cases hexpired : parser.limits.isExpired parser.looks with
  | true =>
    rw [deeper_eq_error hexpired]
    exact .inl parser.opened.sequence_peeked
  | false =>
    rw [deeper_eq_thenLower hexpired, thenLower]
    refine .inr ?_
    cases routine parser.opened <;> rfl

/-- A routine takes the first of the tokens that are there, and leaves the others. -/
theorem ComposedAfter.exists_taken {taken : List Token} {levels more : Nat}
    {routine full : Routine α} {left : α → List Token}
    (h : ComposedAfter taken levels more routine full left) (parser : Parser) :
    ∃ tokens, taken ++ₛ parser.sequence = tokens ++ₛ Routine.remaining left (full parser) := by
  induction h generalizing parser with
  | pure hleft => exact ⟨[], by rw [← hleft]; rfl⟩
  | @fail _ taken => exact ⟨taken, rfl⟩
  | @next taken =>
    obtain ⟨token, after, hnext, hseq, -⟩ := Routine.next_apply parser
    refine ⟨[], ?_⟩
    rw [hnext, hseq, ← Stream'.append_append_stream]
    rfl
  | pushBack => exact ⟨[], Stream'.append_append_stream ..⟩
  | enter => exact ⟨[], rfl⟩
  | @forget _ taken _ _ _ full left _ ih =>
    obtain ⟨tokens, htokens⟩ := ih parser
    obtain ⟨tokens', htokens'⟩ := Routine.exists_remaining_eq left (full parser)
    refine ⟨taken ++ tokens ++ tokens', ?_⟩
    rw [Stream'.nil_append_stream] at htokens
    rw [htokens, htokens', List.append_assoc, Stream'.append_append_stream,
      Stream'.append_append_stream]
  | @bind _ _ taken _ _ _ full _ g _ left _ _ ih ih' =>
    obtain ⟨tokens, htokens⟩ := ih parser
    rw [Routine.bind_apply]
    cases hrun : full parser with
    | ok result after =>
      rw [hrun] at htokens
      obtain ⟨tokens', htokens'⟩ := ih' result after
      refine ⟨tokens ++ tokens', ?_⟩
      rw [htokens, Stream'.append_append_stream, ← htokens']
      rfl
    | error error after =>
      rw [hrun] at htokens
      exact ⟨tokens, htokens⟩
  | repeatWhile _ _ _ ih => exact ih _ parser
  | deeper _ ih | cut _ ih =>
    rcases Routine.remaining_deeper _ parser _ with hsame | hinside
    · exact ⟨[], hsame.symm⟩
    · obtain ⟨tokens, htokens⟩ := ih parser.opened
      exact ⟨tokens, by rw [hinside, ← htokens]; rfl⟩
  | refuse =>
    rw [Routine.refuse_eq]
    exact ⟨[], (Parser.sequence_peeked _).symm⟩

/-! ## Runs that are cut short -/

/-- The second run, with a limit on depth of `maxDepth`, gives the same as the first and leaves the
same parser. Or the first one was cut short, and the second one took the same tokens, or more. -/
inductive Routine.CutShort (maxDepth : Nat) (left : α → List Token) :
    EStateM.Result Error Parser α → EStateM.Result Error Parser α → Prop
  | ok {result : α} {after : Parser} :
    CutShort maxDepth left (.ok result after) (.ok result (after.withMaxDepth maxDepth))
  | error {error : Error} {after : Parser} :
    CutShort maxDepth left (.error error after) (.error error (after.withMaxDepth maxDepth))
  | tooDeep {error : Error} {after : Parser} {outcome : EStateM.Result Error Parser α}
    (between : List Token) : error.IsTooDeep →
    after.sequence = between ++ₛ remaining left outcome →
    CutShort maxDepth left (.error error after) outcome

/-- A routine that is refused a level is cut short, whatever it would do. -/
theorem Routine.cutShort_refuse {full : Routine α} {parser : Parser} {maxDepth : Nat}
    {left : α → List Token} (production : String)
    (h : ∃ tokens, parser.sequence =
      tokens ++ₛ remaining left (full (parser.withMaxDepth maxDepth))) :
    CutShort maxDepth left (refuse production parser) (full (parser.withMaxDepth maxDepth)) := by
  obtain ⟨tokens, htokens⟩ := h
  rw [refuse_eq]
  exact .tooDeep tokens ⟨_, rfl⟩ ((Parser.sequence_peeked _).trans htokens)

/-- A level is opened in both runs, or the time is over in both. -/
theorem Routine.CutShort.deeper {routine full : Routine α} {parser : Parser} {maxDepth : Nat}
    {left : α → List Token}
    (h : CutShort maxDepth left (routine parser.opened)
      (full (parser.opened.withMaxDepth maxDepth))) :
    CutShort maxDepth left (Routine.deeper routine parser)
      (Routine.deeper full (parser.withMaxDepth maxDepth)) := by
  cases hexpired : parser.limits.isExpired parser.looks with
  | true =>
    have hexpired' : (parser.withMaxDepth maxDepth).limits.isExpired
      (parser.withMaxDepth maxDepth).looks = true := hexpired
    rw [deeper_eq_error hexpired, deeper_eq_error hexpired']
    exact .error
  | false =>
    have hexpired' : (parser.withMaxDepth maxDepth).limits.isExpired
      (parser.withMaxDepth maxDepth).looks = false := hexpired
    have hopened : (parser.withMaxDepth maxDepth).opened =
      parser.opened.withMaxDepth maxDepth := rfl
    rw [deeper_eq_thenLower hexpired, deeper_eq_thenLower hexpired', thenLower, thenLower, hopened]
    revert h
    generalize routine parser.opened = outcome
    generalize full (parser.opened.withMaxDepth maxDepth) = outcome'
    intro h
    cases h with
    | ok => exact .ok
    | error => exact .error
    | tooDeep between hdeep hseq =>
      refine .tooDeep between hdeep (Eq.trans hseq (congrArg (between ++ₛ ·) ?_))
      cases outcome' <;> rfl

/-- With fewer levels a run is the same as with more, or it is cut short. -/
theorem ComposedAfter.cutShort {taken : List Token} {levels more : Nat} {routine full : Routine α}
    {left : α → List Token} (h : ComposedAfter taken levels more routine full left) (maxDepth : Nat)
    (parser : Parser) :
    Routine.CutShort maxDepth left (routine parser) (full (parser.withMaxDepth maxDepth)) := by
  induction h generalizing parser with
  | pure | next | pushBack | enter => exact .ok
  | fail => exact .error
  | @forget _ _ _ _ routine full left _ ih =>
    have hrun := ih parser
    revert hrun
    generalize routine parser = outcome, full (parser.withMaxDepth maxDepth) = outcome'
    intro hrun
    cases hrun with
    | ok => exact .ok
    | error => exact .error
    | tooDeep between hdeep hseq =>
      obtain ⟨tokens, htokens⟩ := Routine.exists_remaining_eq left outcome'
      refine .tooDeep (between ++ tokens) hdeep ?_
      rw [hseq, htokens, Stream'.append_append_stream]
  | @bind _ _ _ _ _ routine full f g _ left _ h' ih ih' =>
    have hrun := ih parser
    rw [Routine.bind_apply, Routine.bind_apply]
    revert hrun
    generalize routine parser = outcome, full (parser.withMaxDepth maxDepth) = outcome'
    intro hrun
    cases hrun with
    | ok => exact ih' _ _
    | error => exact .error
    | tooDeep between hdeep hseq =>
      cases outcome' with
      | ok result after =>
        -- the other run goes on, and takes more tokens
        obtain ⟨tokens, htokens⟩ := (h' result).exists_taken after
        refine .tooDeep (between ++ tokens) hdeep ?_
        rw [hseq, Stream'.append_append_stream, ← htokens]
        rfl
      | error error after => exact .tooDeep between hdeep hseq
  | repeatWhile _ _ _ ih => exact ih _ parser
  | deeper _ ih => exact .deeper (ih parser.opened)
  | refuse =>
    refine Routine.cutShort_refuse _ ⟨[], ?_⟩
    rw [Routine.refuse_eq]
    exact (Parser.sequence_peeked _).symm
  | cut hfull =>
    obtain ⟨tokens, htokens⟩ :=
      (ComposedAfter.deeper hfull).exists_taken (parser.withMaxDepth maxDepth)
    exact Routine.cutShort_refuse _ ⟨tokens, htokens⟩

/-! ## Levels that are open -/

/-- A routine that fails because of the limit has opened all the levels it may open, and is refused
one more. -/
theorem ComposedAfter.reaches_refuse {taken : List Token} {levels more : Nat}
    {routine full : Routine α} {left : α → List Token}
    (h : ComposedAfter taken levels more routine full left) {parser after : Parser} {error : Error}
    (hrun : routine parser = .error error after) (hdeep : error.IsTooDeep) :
    ∃ (β : Type) (production : String) (point : Parser),
      Routine.Reaches (Routine.refuse production : Routine β) point routine parser levels ∧
        error = ⟨.recursionLimitExceeded point.limits.maxDepth, point.sequence.head.position⟩ := by
  induction h generalizing parser after with
  | pure | next | pushBack | enter => cases hrun
  | fail hsyn =>
    cases hrun
    exact absurd hsyn hdeep.not_isSyntax
  | forget _ ih => exact ih hrun
  | @bind _ _ _ _ _ routine _ f _ _ _ h' _ ih ih' =>
    rcases Routine.error_of_bind hrun with hr | ⟨a, p, hr, hrun⟩
    · obtain ⟨β, production, point, hreaches, herror⟩ := ih hr
      exact ⟨β, production, point, .first hreaches, herror⟩
    · obtain ⟨β, production, point, hreaches, herror⟩ := ih' a hrun
      exact ⟨β, production, point, .rest h'.balanced hr hreaches, herror⟩
  | repeatWhile _ _ _ ih =>
    obtain ⟨β, production, point, hreaches, herror⟩ := ih _ hrun
    have hget : (get : Routine Parser).Balanced := .of_ok fun parser => ⟨_, _, rfl, .refl parser⟩
    exact ⟨β, production, point, .rest hget rfl hreaches, herror⟩
  | @deeper _ _ _ routine _ _ ih =>
    rcases Routine.error_of_deeper hrun with ⟨-, rfl, -⟩ | ⟨hexpired, inside, hinside, rfl⟩
    · obtain ⟨_, ⟨⟩⟩ := hdeep
    · obtain ⟨β, production, point, hreaches, herror⟩ := ih hinside
      exact ⟨β, production, point, .inside hexpired hreaches, herror⟩
  | @refuse β production | @cut β _ production =>
    rw [Routine.refuse_eq] at hrun
    cases hrun
    exact ⟨β, production, parser, .here, rfl⟩

/-! ## Parses -/

/-- Tokens that are read as a program are derived. -/
theorem Program.derives_of_admits {front back : List Token} {program : Program}
    (h : form.reading.admits (front ++ back) program) :
    Derives [.part .program] (front.map Token.toWord ++ back.map Token.toWord) := by
  have hwords : normals (front ++ back) = program.words := h
  refine .of_map_normal ?_
  rw [← List.map_append, map_normal_map_toWord, hwords]
  exact program.derives

section

variable {stream : TokenStream} {limits : Limits} {error : Error}

/-- A parse was ended by the limit on depth. -/
structure EndsTooDeep (stream : TokenStream) (limits : Limits) (error : Error) (after : Parser) :
    Prop where
  cause : error.cause = .recursionLimitExceeded limits.maxDepth
  /-- As many levels were open as may be, and one more was refused. -/
  refused : ∃ (β : Type) (production : String) (point : Parser),
    Routine.Reaches (Routine.refuse production : Routine β) point (Program.parse limits.maxDepth)
      (.started stream limits) limits.maxDepth ∧
    point.depth = limits.maxDepth ∧
    ∃ after', (Routine.refuse production : Routine β) point = .error error after'
  /-- Only the level that was refused is counted afterwards. -/
  depth : after.depth = 1
  /-- The tokens that were taken begin a program. -/
  begins : ∃ front more, stream.sequence = front ++ₛ after.sequence ∧
    Derives [.part .program] (front.map Token.toWord ++ more)
  position : error.position = after.sequence.head.position

theorem endsTooDeep_of_parseWith (h : (parseWith stream limits).1 = .error error)
    (hdeep : error.IsTooDeep) : EndsTooDeep stream limits error (parseWith stream limits).2 := by
  obtain ⟨after, hrun, heq⟩ := parseWith_fst_eq_error h
  rw [heq]
  have hcomposed := Program.composed (le_refl limits.maxDepth)
  obtain ⟨β, production, point, hreaches, herror⟩ := hcomposed.reaches_refuse hrun hdeep
  obtain ⟨front, hseq, hposition, back, program, hadmits⟩ :=
    (Program.reads (le_refl limits.maxDepth)).refuses hrun hdeep.not_isSyntax
  constructor
  case cause =>
    rw [herror, hreaches.limits_eq]
    rfl
  case refused =>
    refine ⟨β, production, point, hreaches, ?_, ?_⟩
    · rw [hreaches.depth_eq]
      exact Nat.zero_add _
    · rw [herror]
      exact ⟨_, Routine.refuse_eq production point⟩
  case depth =>
    have hspent := hcomposed.balanced.error hrun
    rw [hdeep.refusals_eq] at hspent
    exact hspent.depth
  case begins => exact ⟨front, back.map Token.toWord, hseq, Program.derives_of_admits hadmits⟩
  case position => exact hposition

variable {fewer more : Nat}

/-- With a higher limit on depth a parse is the same, or with the lower limit it was cut short. -/
theorem parseWith_withMaxDepth (hle : fewer ≤ more) (stream : TokenStream) (limits : Limits) :
    parseWith stream (limits.withMaxDepth more) =
        ((parseWith stream (limits.withMaxDepth fewer)).1,
          (parseWith stream (limits.withMaxDepth fewer)).2.withMaxDepth more) ∨
      ∃ error between, (parseWith stream (limits.withMaxDepth fewer)).1 = .error error ∧
        error.IsTooDeep ∧ (parseWith stream (limits.withMaxDepth fewer)).2.sequence =
          between ++ₛ (parseWith stream (limits.withMaxDepth more)).2.sequence := by
  let start := fun maxDepth => Parser.started stream (limits.withMaxDepth maxDepth)
  have hruns : Routine.CutShort more (fun _ => [])
      (Program.parse (limits.withMaxDepth fewer).maxDepth (start fewer))
      (Program.parse (limits.withMaxDepth more).maxDepth (start more)) :=
    (Program.composed hle).cutShort more (start fewer)
  rw [parseWith_eq, parseWith_eq]
  revert hruns
  generalize Program.parse (limits.withMaxDepth fewer).maxDepth _ = outcome
  generalize Program.parse (limits.withMaxDepth more).maxDepth _ = outcome'
  intro hruns
  cases hruns with
  | ok | error => exact .inl rfl
  | tooDeep between hdeep hseq =>
    refine .inr ⟨_, between, rfl, hdeep, Eq.trans hseq (congrArg (between ++ₛ ·) ?_)⟩
    cases outcome' <;> rfl

/-- The limit on depth can only end a parse early. With a higher limit a parse that it did not end
is the same: it gives the same, and leaves the parser in the same state. A parse that it ended has
all levels open that it may have, has taken tokens that begin a program, and counts one level
afterwards; with a lower limit it is ended too, at the same token or an earlier one. -/
theorem parseWith_maxDepth (hle : fewer ≤ more) (stream : TokenStream) (limits : Limits) :
    ((∀ error, (parseWith stream (limits.withMaxDepth fewer)).1 = .error error →
        ¬ error.IsTooDeep) →
      parseWith stream (limits.withMaxDepth more) =
        ((parseWith stream (limits.withMaxDepth fewer)).1,
          (parseWith stream (limits.withMaxDepth fewer)).2.withMaxDepth more)) ∧
    ∀ error, (parseWith stream (limits.withMaxDepth more)).1 = .error error → error.IsTooDeep →
      EndsTooDeep stream (limits.withMaxDepth more) error
        (parseWith stream (limits.withMaxDepth more)).2 ∧
      ∃ error' between, (parseWith stream (limits.withMaxDepth fewer)).1 = .error error' ∧
        error'.IsTooDeep ∧ (parseWith stream (limits.withMaxDepth fewer)).2.sequence =
          between ++ₛ (parseWith stream (limits.withMaxDepth more)).2.sequence := by
  rcases parseWith_withMaxDepth hle stream limits with hsame | ⟨error', between, herror', hcut⟩
  · refine ⟨fun _ => hsame, fun error herror hdeep => ⟨endsTooDeep_of_parseWith herror hdeep, ?_⟩⟩
    rw [hsame] at herror ⊢
    exact ⟨error, [], herror, hdeep, rfl⟩
  · refine ⟨fun hnone => absurd hcut.1 (hnone error' herror'), fun error herror hdeep =>
      ⟨endsTooDeep_of_parseWith herror hdeep, error', between, herror', hcut⟩⟩

end

/-- The tokens of `class A \x7b static x = a(b) \x7d`, where an expression is inside another. -/
def tokensOfNestedCall : List Token :=
  [⟨⟨.classWord, "class"⟩, .within "a" 0 5⟩, ⟨⟨.className, "A"⟩, .within "a" 6 7⟩,
    ⟨.single "\x7b", .within "a" 8 9⟩, ⟨⟨.staticWord, "static"⟩, .within "a" 10 16⟩,
    ⟨⟨.name, "x"⟩, .within "a" 17 18⟩, ⟨.single "=", .within "a" 19 20⟩,
    ⟨⟨.name, "a"⟩, .within "a" 21 22⟩, ⟨.single "(", .within "a" 22 23⟩,
    ⟨⟨.name, "b"⟩, .within "a" 23 24⟩, ⟨.single ")", .within "a" 24 25⟩,
    ⟨.single "\x7d", .within "a" 26 27⟩]

/-- Two levels are enough, so more make no difference; one is not enough, and none is not either. -/
theorem parseWith_maxDepth_nestedCall :
    let stream := TokenStream.ofTokens tokensOfNestedCall "a"
    parseWith stream (Limits.withMaxDepth 128 {}) =
        ((parseWith stream (Limits.withMaxDepth 2 {})).1,
          (parseWith stream (Limits.withMaxDepth 2 {})).2.withMaxDepth 128) ∧
      EndsTooDeep stream (Limits.withMaxDepth 1 {}) ⟨.recursionLimitExceeded 1, ⟨23, "a"⟩⟩
        (parseWith stream (Limits.withMaxDepth 1 {})).2 ∧
      ∃ error between, (parseWith stream (Limits.withMaxDepth 0 {})).1 = .error error ∧
        error.IsTooDeep ∧ (parseWith stream (Limits.withMaxDepth 0 {})).2.sequence =
          between ++ₛ (parseWith stream (Limits.withMaxDepth 1 {})).2.sequence := by
  intro stream
  have hok : (parseWith stream (Limits.withMaxDepth 2 {})).1 = .ok ⟨⟨⟨"A", ⟨.staticField "x"
      (some (.chain (.call .name "a" [.chain (.ref .name "b") []]) [])), []⟩⟩, []⟩⟩ := by
    decide +kernel
  have herror : (parseWith stream (Limits.withMaxDepth 1 {})).1 =
      .error ⟨.recursionLimitExceeded 1, ⟨23, "a"⟩⟩ := by
    decide +kernel
  refine ⟨(parseWith_maxDepth (by decide) stream {}).1 fun error h => ?_,
    (parseWith_maxDepth (Nat.zero_le 1) stream {}).2 _ herror ⟨1, rfl⟩⟩
  rw [hok] at h
  cases h

end FrappeSyntax
