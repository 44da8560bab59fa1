import FrappeSyntax.Proofs.DepthLimit

/-!
# The limit on time

The clock is looked at only when a level is opened. So a parse that has no time ends where a parse
that may open no level ends, and a parse that has all the time it needs is one without a deadline.

* `Routine.Simulation`, `ComposedAfter.simulated`: what each way to put routines together keeps
  between two parsers, a run keeps.
* `Parser.Stalls`, `Parser.Untimed`: a parser that has no time, and one that has all it needs.
* `parseWith_of_deadline`: parses with a deadline that has passed, or that never passes.
-/

namespace FrappeSyntax

/-! ## Runs in step -/

/-- Two runs end in the same way: with the same result, or with an error and the one it stands
for. -/
inductive Routine.EndAlike (related : Parser → Parser → Prop) (convert : Error → Error) :
    EStateM.Result Error Parser α → EStateM.Result Error Parser α → Prop
  | ok {result : α} {after after' : Parser} : related after after' →
    EndAlike related convert (.ok result after) (.ok result after')
  | error {error : Error} {after after' : Parser} : related after after' →
    EndAlike related convert (.error error after) (.error (convert error) after')

/-- A relation between parsers that are at the same place of the same stream, such that opening a
level and refusing one keep it, where the numbers of levels are the ones that matter. -/
structure Routine.Simulation (matters : Nat → Nat → Prop) (related : Parser → Parser → Prop)
    (convert : Error → Error) : Prop where
  stream : ∀ {parser parser'}, related parser parser' → parser'.stream = parser.stream
  move : ∀ {parser parser'} (stream : TokenStream), related parser parser' →
    related { parser with stream := stream } { parser' with stream := stream }
  note : ∀ {parser parser'} (event : Event), related parser parser' →
    related (parser.note event) (parser'.note event)
  convert_eq : ∀ {error : Error}, error.IsSyntax → convert error = error
  inside : ∀ {levels more}, matters (levels + 1) (more + 1) → matters levels more
  deeper : ∀ {α : Type} {levels more : Nat} {routine full : Routine α},
    matters (levels + 1) (more + 1) →
    (∀ {parser parser'}, related parser parser' →
      EndAlike related convert (routine parser) (full parser')) →
    ∀ {parser parser'}, related parser parser' →
      EndAlike related convert (Routine.deeper routine parser) (Routine.deeper full parser')
  refuse : ∀ {α : Type} (production : String), matters 0 0 →
    ∀ {parser parser'}, related parser parser' →
      EndAlike (α := α) related convert (Routine.refuse production parser)
        (Routine.refuse production parser')
  cut : ∀ {α : Type} {more : Nat} (production : String) (full : Routine α), matters 0 (more + 1) →
    ∀ {parser parser'}, related parser parser' →
      EndAlike related convert (Routine.refuse production parser) (Routine.deeper full parser')

/-- What opening a level and refusing one keep, every routine keeps that is put together from them
and from tokens. -/
theorem ComposedAfter.simulated {matters : Nat → Nat → Prop} {related : Parser → Parser → Prop}
    {convert : Error → Error} (hsim : Routine.Simulation matters related convert)
    {taken : List Token} {levels more : Nat} {routine full : Routine α} {left : α → List Token}
    (h : ComposedAfter taken levels more routine full left) (hmatters : matters levels more)
    {parser parser' : Parser} (hrelated : related parser parser') :
    Routine.EndAlike related convert (routine parser) (full parser') := by
  induction h generalizing parser parser' with
  | pure => exact .ok hrelated
  | @fail α _ _ _ error _ hsyn =>
    have hfail : Routine.EndAlike (α := α) related convert (.error error parser)
      (.error (convert error) parser') := .error hrelated
    rwa [hsim.convert_eq hsyn] at hfail
  | next =>
    rw [Routine.next, Routine.next, hsim.stream hrelated]
    exact .ok (hsim.move _ hrelated)
  | pushBack =>
    rw [Routine.pushBack, Routine.pushBack, hsim.stream hrelated]
    exact .ok (hsim.move _ hrelated)
  | enter => exact .ok (hsim.note _ hrelated)
  | forget _ ih => exact ih hmatters hrelated
  | @bind _ _ _ _ _ routine full _ _ _ _ _ _ ih ih' =>
    have hrun := ih hmatters hrelated
    rw [Routine.bind_apply, Routine.bind_apply]
    revert hrun
    generalize routine parser = outcome, full parser' = outcome'
    intro hrun
    cases hrun with
    | ok hafter => exact ih' _ hmatters hafter
    | error hafter => exact .error hafter
  | repeatWhile _ _ _ ih =>
    -- both loops are given the tokens of the same stream as turns
    have hturns := hsim.stream hrelated
    have hrun := ih (parser.stream.final :: parser.stream.upcoming) hmatters hrelated
    show Routine.EndAlike related convert
      (Routine.repeatFor _ _ [] (parser.stream.final :: parser.stream.upcoming) parser)
      (Routine.repeatFor _ _ [] (parser'.stream.final :: parser'.stream.upcoming) parser')
    rwa [hturns]
  | deeper _ ih =>
    exact hsim.deeper hmatters (fun hrelated => ih (hsim.inside hmatters) hrelated) hrelated
  | refuse => exact hsim.refuse _ hmatters hrelated
  | cut => exact hsim.cut _ _ hmatters hrelated

/-! ## No time -/

/-- The error of a parse that has no time, where the same parse without levels gives an error. -/
def Error.untimely (error : Error) : Error :=
  if error.cause = .recursionLimitExceeded 0 then ⟨.deadlineExceeded, error.position⟩ else error

theorem Error.IsSyntax.untimely_eq {error : Error} (h : error.IsSyntax) :
    error.untimely = error := by
  refine if_neg fun hcause => ?_
  rw [IsSyntax, hcause] at h
  cases h

/-- A parser that may open no level, and one at the same place that has no time to. -/
structure Parser.Stalls (parser timed : Parser) : Prop where
  stream : timed.stream = parser.stream
  depth : timed.depth = parser.depth
  maxDepth : parser.limits.maxDepth = 0
  expired : ∀ looks, timed.limits.isExpired looks = true

/-- Where one parser refuses a level because of the limit on depth, the other one does because of
the time. -/
theorem Parser.stalls_simulation :
    Routine.Simulation (fun levels more => levels = 0 ∧ 0 < more) Stalls Error.untimely where
  stream h := h.stream
  move stream h := ⟨rfl, h.depth, h.maxDepth, h.expired⟩
  note event h := ⟨h.stream, h.depth, h.maxDepth, h.expired⟩
  convert_eq := Error.IsSyntax.untimely_eq
  inside h := absurd h.1 (Nat.succ_ne_zero _)
  deeper h := absurd h.1 (Nat.succ_ne_zero _)
  refuse _ h := absurd h.2 (Nat.lt_irrefl 0)
  cut := by
    intro α more production full _ parser timed h
    have hsequence : timed.sequence = parser.sequence := congrArg TokenStream.sequence h.stream
    have herror : (⟨.deadlineExceeded, timed.sequence.head.position⟩ : Error) =
        Error.untimely ⟨.recursionLimitExceeded parser.limits.maxDepth,
          parser.sequence.head.position⟩ := by
      rw [h.maxDepth, hsequence]
      rfl
    rw [Routine.refuse_eq, Routine.deeper_eq_error (h.expired timed.looks), herror]
    refine .error ⟨?_, congrArg (· + 1) h.depth, h.maxDepth, h.expired⟩
    show timed.stream.next.2.pushBack timed.stream.next.1 =
      parser.stream.next.2.pushBack parser.stream.next.1
    rw [h.stream]

/-! ## All the time there is -/

/-- The same limits, but for the deadline. -/
def Limits.withoutDeadline (limits : Limits) : Limits := { limits with deadline := none }

/-- The same parser without a deadline. -/
def Parser.withoutDeadline (parser : Parser) : Parser :=
  { parser with limits := parser.limits.withoutDeadline }

/-- A parser that has all the time it needs, and the same parser without a deadline. -/
structure Parser.Untimed (parser free : Parser) : Prop where
  free : free = parser.withoutDeadline
  onTime : ∀ looks, parser.limits.isExpired looks = false

/-- Both parsers open the same levels, and refuse the same. -/
theorem Parser.untimed_simulation : Routine.Simulation Eq Untimed id where
  stream h := h.free ▸ rfl
  move stream h := ⟨h.free ▸ rfl, h.onTime⟩
  note event h := ⟨h.free ▸ rfl, h.onTime⟩
  convert_eq _ := rfl
  inside h := Nat.succ.inj h
  deeper := by
    rintro α levels more routine full - ih parser _ ⟨rfl, honTime⟩
    have hrun : Routine.EndAlike Untimed id (routine parser.opened)
      (full parser.withoutDeadline.opened) := ih ⟨rfl, honTime⟩
    have hfree : parser.withoutDeadline.limits.isExpired parser.looks = false := rfl
    rw [Routine.deeper_eq_thenLower (honTime _), Routine.deeper_eq_thenLower hfree,
      Routine.thenLower, Routine.thenLower]
    revert hrun
    generalize routine parser.opened = outcome, full parser.withoutDeadline.opened = outcome'
    intro hrun
    cases hrun with
    | ok hafter => exact .ok ⟨hafter.free ▸ rfl, hafter.onTime⟩
    | error hafter => exact .error ⟨hafter.free ▸ rfl, hafter.onTime⟩
  refuse := by
    rintro α production - parser _ ⟨rfl, honTime⟩
    rw [Routine.refuse_eq, Routine.refuse_eq]
    exact .error ⟨rfl, honTime⟩
  cut _ _ h := absurd h (Nat.succ_ne_zero _).symm

/-! ## Programs that open no level -/

/-- A field without an initializer. -/
def Member.IsBareField : Member → Prop
  | .staticField _ initializer => initializer = none
  | .instanceField _ => True
  | _ => False

/-- Programs that are made only of fields without initializers. -/
def Program.HasBareFields (program : Program) : Prop :=
  ∀ classDef ∈ program.classes.toList, ∀ member ∈ classDef.members.toList, member.IsBareField

theorem Expression.nesting_pos (expression : Expression) : 0 < expression.nesting := by
  cases expression with
  | literal => exact Nat.one_pos
  | chain => exact Nat.succ_pos _

theorem Member.nesting_le_zero_iff {member : Member} :
    member.nesting ≤ 0 ↔ member.IsBareField := by
  cases member with
  | staticField name initializer =>
    cases initializer with
    | none => exact iff_of_true le_rfl rfl
    | some value => exact iff_of_false value.nesting_pos.not_ge nofun
  | instanceField => exact iff_of_true le_rfl trivial
  | staticMethod | instanceMethod | constructor => exact iff_of_false (Nat.not_succ_le_zero _) id

/-- The programs that open no level. -/
theorem Program.nesting_le_zero_iff {program : Program} :
    program.nesting ≤ 0 ↔ program.HasBareFields := by
  simp only [nesting, ClassDef.nesting, greatest_le_iff, List.forall_mem_map, HasBareFields,
    Member.nesting_le_zero_iff]

/-! ## Parses -/

/-- Parses are runs of the routine for programs, so they end as these do. -/
theorem parseWith_of_endAlike {stream : TokenStream} {limits limits' : Limits}
    {related : Parser → Parser → Prop} {convert : Error → Error}
    (h : Routine.EndAlike related convert (Program.parse limits.maxDepth (.started stream limits))
      (Program.parse limits'.maxDepth (.started stream limits'))) :
    (parseWith stream limits').1 = (parseWith stream limits).1.mapError convert ∧
      ∃ after after', related after after' ∧
        (parseWith stream limits).2 = after.note (.ofParse (parseWith stream limits).1) ∧
        (parseWith stream limits').2 = after'.note (.ofParse (parseWith stream limits').1) := by
  rw [parseWith_eq, parseWith_eq]
  revert h
  generalize Program.parse limits.maxDepth _ = outcome, Program.parse limits'.maxDepth _ = outcome'
  intro h
  cases h with
  | ok hafter | error hafter => exact ⟨rfl, _, _, hafter, rfl, rfl⟩

section

variable {stream : TokenStream} {limits : Limits}

/-- A parse that has no time ends as one does that may open no level. -/
theorem parseWith_of_passed (hpos : 1 ≤ limits.maxDepth)
    (hpassed : ∀ looks, limits.isExpired looks = true) :
    (parseWith stream limits).1 =
        (parseWith stream (limits.withoutDeadline.withMaxDepth 0)).1.mapError Error.untimely ∧
      (parseWith stream limits).2.depth =
        (parseWith stream (limits.withoutDeadline.withMaxDepth 0)).2.depth ∧
      (parseWith stream limits).2.stream =
        (parseWith stream (limits.withoutDeadline.withMaxDepth 0)).2.stream := by
  let flat := limits.withoutDeadline.withMaxDepth 0
  have hstalls : (Parser.started stream flat).Stalls (.started stream limits) :=
    ⟨rfl, rfl, rfl, hpassed⟩
  have hruns : Routine.EndAlike Parser.Stalls Error.untimely
      (Program.parse flat.maxDepth (.started stream flat))
      (Program.parse limits.maxDepth (.started stream limits)) :=
    (Program.composed (Nat.zero_le limits.maxDepth)).simulated Parser.stalls_simulation
      ⟨rfl, hpos⟩ hstalls
  obtain ⟨hresult, after, after', hafter, hflat, hlate⟩ := parseWith_of_endAlike hruns
  refine ⟨hresult, ?_, ?_⟩
  · rw [hlate, hflat]
    exact hafter.depth
  · rw [hlate, hflat]
    exact hafter.stream

/-- A parse that has all the time it needs is the same without a deadline. -/
theorem parseWith_of_onTime (honTime : ∀ looks, limits.isExpired looks = false) :
    parseWith stream limits.withoutDeadline =
      ((parseWith stream limits).1, (parseWith stream limits).2.withoutDeadline) := by
  have huntimed : (Parser.started stream limits).Untimed (.started stream limits.withoutDeadline) :=
    ⟨rfl, honTime⟩
  have hruns : Routine.EndAlike Parser.Untimed id
      (Program.parse limits.maxDepth (.started stream limits))
      (Program.parse limits.withoutDeadline.maxDepth (.started stream limits.withoutDeadline)) :=
    (Program.composed le_rfl).simulated Parser.untimed_simulation rfl huntimed
  obtain ⟨hresult, after, after', ⟨rfl, -⟩, honTime, hfree⟩ := parseWith_of_endAlike hruns
  have hsame : (parseWith stream limits.withoutDeadline).1 = (parseWith stream limits).1 := by
    rw [hresult]
    cases (parseWith stream limits).1 <;> rfl
  refine Prod.ext hsame ?_
  rw [hfree, hsame, honTime]
  rfl

/-- Without a deadline, a program is parsed exactly if the tokens up to an end token have its tree,
and there are levels enough for it. -/
theorem parseWith_withMaxDepth_eq_ok_iff {program : Program} (hfree : limits.deadline = none)
    (maxDepth : Nat) :
    (parseWith stream (limits.withMaxDepth maxDepth)).1 = .ok program ↔
      ∃ front final rest, stream.sequence = (front ++ [final]) ++ₛ rest ∧ final.kind = .eof ∧
        program.IsTreeOf (front.map Token.toWord) ∧ program.nesting ≤ maxDepth :=
  parseWith_fst_eq_ok.trans (Program.parsesTo_iff hfree)

/-- Without levels, what is parsed are the programs made of fields without initializers, of those
that the grammar derives. -/
theorem parseWith_withMaxDepth_zero {program : Program} (hfree : limits.deadline = none) :
    (parseWith stream (limits.withMaxDepth 0)).1 = .ok program ↔
      program.HasBareFields ∧ ∃ front final rest,
        stream.sequence = (front ++ [final]) ++ₛ rest ∧ final.kind = .eof ∧
        Derives [.part .classes] (front.map Token.toWord) ∧
        program.IsTreeOf (front.map Token.toWord) := by
  rw [parseWith_withMaxDepth_eq_ok_iff hfree 0]
  constructor
  · rintro ⟨front, final, rest, hseq, hfinal, htree, hnesting⟩
    exact ⟨Program.nesting_le_zero_iff.mp hnesting, front, final, rest, hseq, hfinal,
      htree.derives, htree⟩
  · rintro ⟨hbare, front, final, rest, hseq, hfinal, -, htree⟩
    exact ⟨front, final, rest, hseq, hfinal, htree, Program.nesting_le_zero_iff.mpr hbare⟩

/-- Without levels, what is parsed are the programs made of fields without initializers, of those
that are parsed with levels. -/
theorem parseWith_of_maxDepth_zero {program : Program} (hfree : limits.deadline = none) :
    (parseWith stream (limits.withMaxDepth 0)).1 = .ok program ↔
      program.HasBareFields ∧ ∃ maxDepth,
        (parseWith stream (limits.withMaxDepth maxDepth)).1 = .ok program := by
  constructor
  · intro h
    exact ⟨((parseWith_withMaxDepth_zero hfree).mp h).1, 0, h⟩
  · rintro ⟨hbare, maxDepth, h⟩
    obtain ⟨front, final, rest, hseq, hfinal, htree, -⟩ :=
      (parseWith_withMaxDepth_eq_ok_iff hfree maxDepth).mp h
    exact (parseWith_withMaxDepth_zero hfree).mpr
      ⟨hbare, front, final, rest, hseq, hfinal, htree.derives, htree⟩

end

theorem mapError_eq_ok_iff {convert : Error → Error} {result : Except Error α} {a : α} :
    result.mapError convert = .ok a ↔ result = .ok a := by
  cases result <;> simp [Except.mapError]

/-- A deadline that has passed at every look at the clock ends a parse where a limit of no level
does: the result is the same, but for the cause of a refusal, and so is the state of the parser. So
the programs that are parsed are those made of fields without initializers, be it of those that are
parsed with levels, or of those that are trees of what the grammar derives. A deadline that never
passes makes no difference. -/
theorem parseWith_of_deadline (tokens : List Token) (file : String) (limits : Limits) :
    let stream := TokenStream.ofTokens tokens file
    let free := limits.withoutDeadline
    (1 ≤ limits.maxDepth → (∀ looks, limits.isExpired looks = true) →
      (parseWith stream limits).1 =
          (parseWith stream (free.withMaxDepth 0)).1.mapError Error.untimely ∧
        (parseWith stream limits).2.depth = (parseWith stream (free.withMaxDepth 0)).2.depth ∧
        (parseWith stream limits).2.stream = (parseWith stream (free.withMaxDepth 0)).2.stream ∧
        ∀ program,
          ((parseWith stream limits).1 = .ok program ↔
            (parseWith stream (free.withMaxDepth 0)).1 = .ok program) ∧
          ((parseWith stream (free.withMaxDepth 0)).1 = .ok program ↔
            program.HasBareFields ∧
              ∃ maxDepth, (parseWith stream (free.withMaxDepth maxDepth)).1 = .ok program) ∧
          ((parseWith stream (free.withMaxDepth 0)).1 = .ok program ↔
            program.HasBareFields ∧ ∃ (front : List Token) (final : Token) (rest : Stream' Token),
              tokens ++ₛ Stream'.const (TokenStream.finalOf tokens file) =
                (front ++ [final]) ++ₛ rest ∧
              final.kind = .eof ∧ Derives [.part .classes] (front.map Token.toWord) ∧
              program.IsTreeOf (front.map Token.toWord))) ∧
    ((∀ looks, limits.isExpired looks = false) →
      parseWith stream free =
        ((parseWith stream limits).1, (parseWith stream limits).2.withoutDeadline)) := by
  intro stream free
  refine ⟨fun hpos hpassed => ?_, parseWith_of_onTime⟩
  obtain ⟨hresult, hdepth, hstream⟩ := parseWith_of_passed hpos hpassed
  refine ⟨hresult, hdepth, hstream, fun program =>
    ⟨?_, parseWith_of_maxDepth_zero rfl, parseWith_withMaxDepth_zero rfl⟩⟩
  rw [hresult]
  exact mapError_eq_ok_iff

/-- With no time, a parse ends where the value of `x` would be read. With time enough it goes on. -/
theorem parseWith_of_deadline_nestedCall :
    let stream := TokenStream.ofTokens tokensOfNestedCall "a"
    let passed : Limits := { deadline := some 0 }
    let ahead : Limits := { deadline := some 1 }
    (parseWith stream passed).1 =
        (parseWith stream (passed.withoutDeadline.withMaxDepth 0)).1.mapError Error.untimely ∧
      parseWith stream ahead.withoutDeadline =
        ((parseWith stream ahead).1, (parseWith stream ahead).2.withoutDeadline) := by
  intro stream passed ahead
  have hpassed : ∀ looks, passed.isExpired looks = true := by
    intro looks
    simp [passed, Limits.isExpired]
  have honTime : ∀ looks, ahead.isExpired looks = false := by
    intro looks
    simp [ahead, Limits.isExpired, Limits.instant]
  exact ⟨((parseWith_of_deadline tokensOfNestedCall "a" passed).1 (by decide) hpassed).1,
    (parseWith_of_deadline tokensOfNestedCall "a" ahead).2 honTime⟩

end FrappeSyntax
