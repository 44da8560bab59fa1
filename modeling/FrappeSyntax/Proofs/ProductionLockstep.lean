import FrappeSyntax.Program.Parser
import FrappeSyntax.Proofs.Lockstep

/-!
# The routines for productions in lockstep

Each routine for a production runs in lockstep on twins, and the parts of the trees come from tokens
of the same index. The routines hand back at most one token between them, except where the kind of
what follows was told by several tokens: two for a chain that starts with `this`, and three for a
static member.

* `Expression.parse_inStep`, `Statement.parse_inStep`, `Statement.block_inStep`: by induction on the
  levels.
* `Member.parse_inStep`: the tokens that tell the kind of a member are handed back and taken again.
* `TwinTapes.Concluded`, `Program.concluded`: how two parses of programs end.
-/

namespace FrappeSyntax

open TwinTapes

section

variable {twins : TwinTapes} {expression : Routine Expression}

/-! ## Parts of expressions -/

theorem Expression.args_inStep
    (h : twins.InStep (Matches twins.PairsTexts) expression expression) :
    twins.InStep (Series.Matches (Matches twins.PairsTexts)) (parseArgs expression)
      (parseArgs expression) :=
  .enter _ (.separated "," h)

theorem Expression.argsPart_inStep
    (h : twins.InStep (Matches twins.PairsTexts) expression expression) :
    twins.InStep (List.Forall₂ (Matches twins.PairsTexts)) (parseArgsPart expression)
      (parseArgsPart expression) :=
  .enter _ (.between _ _ _ (args_inStep h))

/-- A segment whose first token starts one. Another token may wait behind this one. -/
theorem Caller.stepsFrom (h : twins.InStep (Expression.Matches twins.PairsTexts) expression expression)
    {index waiting : Nat} {kind : CallerKind}
    (hkind : CallerKind.ofKind? (twins.one.get index).kind = some kind) (hwaiting : waiting ≤ 2) :
    twins.StepsFrom index index waiting (Matches twins.PairsTexts) (parse expression)
      (parse expression) := by
  have hne := CallerKind.kind_ne_of_ofKind? hkind
  have hname := (pairsTokens_of_kind_ne hne).text
  have hnext := (twins.one.endlessBetween_self index).succ hne
  refine .enter _ (.next_bind ?_)
  rw [← twins.kind_eq, hkind]
  refine .peek_bind (Nat.sub_le_sub_right hwaiting 1) ?_
  rw [← twins.isSingle_eq]
  split
  · refine ((Expression.argsPart_inStep h).stepsFrom le_rfl hnext).bind fun args args' hargs => ?_
    exact .pure (.call kind hname hargs)
  · exact .pure (.ref kind hname) le_rfl hnext

theorem Caller.parse_inStep
    (h : twins.InStep (Expression.Matches twins.PairsTexts) expression expression) :
    twins.InStep (Matches twins.PairsTexts) (parse expression) (parse expression) := by
  intro index
  cases hkind : CallerKind.ofKind? (twins.one.get index).kind with
  | some kind => exact stepsFrom h hkind (by decide)
  | none =>
    refine .enter _ (.next_bind ?_)
    rw [← twins.kind_eq, hkind]
    exact .complain (.alternative _ _) (twins.one.endlessBetween_self index)

theorem Caller.chain_stepsFrom
    (h : twins.InStep (Expression.Matches twins.PairsTexts) expression expression)
    {index waiting : Nat} {kind : CallerKind}
    (hkind : CallerKind.ofKind? (twins.one.get index).kind = some kind) (hwaiting : waiting ≤ 2) :
    twins.StepsFrom index index waiting (Series.Matches (Matches twins.PairsTexts))
      (parseChain expression) (parseChain expression) :=
  .enter _ (.separated "." (stepsFrom h hkind hwaiting) (parse_inStep h))

theorem Caller.chain_inStep
    (h : twins.InStep (Expression.Matches twins.PairsTexts) expression expression) :
    twins.InStep (Series.Matches (Matches twins.PairsTexts)) (parseChain expression)
      (parseChain expression) :=
  .enter _ (.separated "." (parse_inStep h))

theorem NewObject.parse_inStep
    (h : twins.InStep (Expression.Matches twins.PairsTexts) expression expression) :
    twins.InStep (Matches twins.PairsTexts) (parse expression) (parse expression) :=
  .enter _ (.bind (.expect _ (by decide)) fun _ _ _ => .bind (.expect _ (by decide)) fun _ _ hname =>
    .bind (Expression.argsPart_inStep h) fun _ _ hargs => .pure ⟨hname.text, hargs⟩)

/-! ## Expressions -/

/-- The first token of a chain is handed back. A token that waits behind it does so only if a chain
does start there. -/
theorem Expression.chainAt_stepsFrom
    (h : twins.InStep (Matches twins.PairsTexts) expression expression) {index waiting : Nat}
    (hwaiting : waiting ≤ 1)
    (hcalm : CallerKind.ofKind? (twins.one.get index).kind = none → waiting = 0) :
    twins.StepsFrom index (index + 1) waiting (Matches twins.PairsTexts)
      (parseChainAt expression (twins.one.get index))
      (parseChainAt expression (twins.other.get index)) := by
  unfold parseChainAt
  rw [← twins.kind_eq]
  cases hkind : CallerKind.ofKind? (twins.one.get index).kind with
  | none =>
    rw [hcalm hkind]
    exact .complain (.alternative _ _) (twins.one.endlessBetween_self index)
  | some kind =>
    refine .pushBack_bind (Nat.lt_of_le_of_lt hwaiting (by decide)) ?_
    refine (Caller.chain_stepsFrom h hkind (Nat.succ_le_succ hwaiting)).bind fun chain chain' hm => ?_
    cases hm with
    | cons hfirst hrest => exact .pure (.chain hfirst hrest)

theorem Expression.opened_inStep
    (h : twins.InStep (Matches twins.PairsTexts) expression expression) :
    twins.InStep (Matches twins.PairsTexts) (parseOpened expression) (parseOpened expression) := by
  intro index
  refine .next_bind ?_
  rw [← twins.kind_eq]
  have hself := twins.one.endlessBetween_self index
  have hliteral : ∀ {kind}, LiteralKind.ofKind? (twins.one.get index).kind = some kind →
      (twins.one.get index).kind ≠ .eof := by
    intro kind hkind heof
    rw [heof] at hkind
    cases hkind
  cases hkind : LiteralKind.ofKind? (twins.one.get index).kind with
  | none => exact chainAt_stepsFrom h (Nat.zero_le 1) fun _ => rfl
  | some kind =>
    have hne := hliteral hkind
    have htext := (pairsTokens_of_kind_ne hne).text
    cases kind with
    | this =>
      -- the token after `this` tells whether `this` starts a chain
      refine .peek_bind (Nat.zero_le 1) ?_
      rw [continuesThis, continuesThis, ← twins.isSingle_eq, ← twins.isSingle_eq]
      split
      · refine chainAt_stepsFrom h le_rfl fun hnone => ?_
        rw [← LiteralKind.ofKind?_eq_some_iff.mp hkind] at hnone
        cases hnone
      · exact .pure (.literal .this htext) le_rfl (hself.succ hne)
    | _ => exact .pure (.literal _ htext) (Nat.zero_le 1) (hself.succ hne)

theorem Expression.parse_inStep (levels : Nat) :
    twins.InStep (Matches twins.PairsTexts) (parse levels) (parse levels) := by
  induction levels with
  | zero => exact .enter _ (.refuse _)
  | succ levels ih => exact .enter _ (.deeper (opened_inStep ih))

/-! ## Kinds of statements -/

theorem Rhs.parse_inStep
    (h : twins.InStep (Expression.Matches twins.PairsTexts) expression expression) :
    twins.InStep (Matches twins.PairsTexts) (parse expression) (parse expression) := by
  refine .enter _ fun index => .peek_bind le_rfl ?_
  rw [← twins.isKind_eq]
  split
  · exact (NewObject.parse_inStep h index).bind fun _ _ hobject => .pure (.new hobject)
  · exact (h index).bind fun _ _ hvalue => .pure (.expression hvalue)

namespace Statement

variable {block : String → Routine (List Statement)}

theorem assignment_inStep
    (h : twins.InStep (Expression.Matches twins.PairsTexts) expression expression) :
    twins.InStep (Matches twins.PairsTexts) (parseAssignment expression)
      (parseAssignment expression) :=
  .enter _ (.bind (.expect _ (by decide)) fun _ _ hname => .bind (.expectSingle _ _) fun _ _ _ =>
    .bind (Rhs.parse_inStep h) fun _ _ hrhs => .pure (.assign hname.text hrhs))

theorem return_inStep
    (h : twins.InStep (Expression.Matches twins.PairsTexts) expression expression) :
    twins.InStep (Matches twins.PairsTexts) (parseReturn expression) (parseReturn expression) :=
  .enter _ (.bind (.expect _ (by decide)) fun _ _ _ => .bind h fun _ _ hvalue =>
    .pure (.return hvalue))

theorem guarded_inStep (production : Production) {keyword : Kind}
    {make : Expression → List Statement → Statement} (hkeyword : keyword ≠ .eof)
    (hmake : ∀ {condition condition' body body'},
      Expression.Matches twins.PairsTexts condition condition' →
      List.Forall₂ (Matches twins.PairsTexts) body body' →
      (make condition body).Matches twins.PairsTexts (make condition' body'))
    (h : twins.InStep (Expression.Matches twins.PairsTexts) expression expression)
    (hblock : ∀ label, twins.InStep (List.Forall₂ (Matches twins.PairsTexts)) (block label)
      (block label)) :
    twins.InStep (Matches twins.PairsTexts) (parseGuarded production keyword make expression block)
      (parseGuarded production keyword make expression block) :=
  .enter _ (.bind (.expect _ hkeyword) fun _ _ _ => .bind (.expectSingle _ _) fun _ _ _ =>
    .bind h fun _ _ hcondition => .bind (.expectSingle _ _) fun _ _ _ =>
      .bind (.enter _ (hblock _)) fun _ _ hbody => .pure (hmake hcondition hbody))

/-! ## Statements and blocks -/

/-- The first token of a statement is handed back, unless no statement starts with it. -/
theorem opened_inStep
    (h : twins.InStep (Expression.Matches twins.PairsTexts) expression expression)
    (hblock : ∀ label, twins.InStep (List.Forall₂ (Matches twins.PairsTexts)) (block label)
      (block label)) :
    twins.InStep (Matches twins.PairsTexts) (parseOpened expression block)
      (parseOpened expression block) := by
  intro index
  refine .next_bind ?_
  rw [← twins.kind_eq]
  have hback : ∀ {routine : Routine Statement},
      twins.InStep (Matches twins.PairsTexts) routine routine →
      twins.StepsFrom index (index + 1) 0 (Matches twins.PairsTexts)
        (Routine.pushBack (twins.one.get index) >>= fun _ => routine)
        (Routine.pushBack (twins.other.get index) >>= fun _ => routine) :=
    fun h => .pushBack_bind (by decide) (h index)
  cases (twins.one.get index).kind with
  | whileWord => exact hback (guarded_inStep _ (by decide) .while h hblock)
  | ifWord => exact hback (guarded_inStep _ (by decide) .if h hblock)
  | returnWord => exact hback (return_inStep h)
  | newWord => exact hback (.bind (NewObject.parse_inStep h) fun _ _ hobject => .pure (.new hobject))
  | name => exact hback (assignment_inStep h)
  | _ => exact .complain (.alternative _ _) (twins.one.endlessBetween_self index)

theorem series_inStep {statement : Routine Statement}
    (h : twins.InStep (Matches twins.PairsTexts) statement statement) :
    twins.InStep (Series.Matches (Matches twins.PairsTexts)) (parseSeries statement)
      (parseSeries statement) :=
  .enter _ (.run (fun index => twins.isSingle_eq index _) h)

theorem braced_inStep {statement : Routine Statement} (label : String)
    (h : twins.InStep (Matches twins.PairsTexts) statement statement) :
    twins.InStep (List.Forall₂ (Matches twins.PairsTexts)) (parseBraced statement label)
      (parseBraced statement label) :=
  .between _ _ _ (series_inStep h)

/-- The routines for statements and for blocks, which are inside each other. -/
theorem parse_inStep_and_block_inStep (levels : Nat) :
    twins.InStep (Matches twins.PairsTexts) (parse levels) (parse levels) ∧
      ∀ label, twins.InStep (List.Forall₂ (Matches twins.PairsTexts)) (parseBlock levels label)
        (parseBlock levels label) := by
  induction levels with
  | zero => exact ⟨.enter _ (.refuse _), fun label => .refuse label⟩
  | succ levels ih =>
    exact ⟨.enter _ (.deeper (opened_inStep (Expression.parse_inStep levels) ih.2)),
      fun label => .deeper (braced_inStep label ih.1)⟩

theorem parse_inStep (levels : Nat) :
    twins.InStep (Matches twins.PairsTexts) (parse levels) (parse levels) :=
  (parse_inStep_and_block_inStep levels).1

theorem block_inStep (levels : Nat) (label : String) :
    twins.InStep (List.Forall₂ (Matches twins.PairsTexts)) (parseBlock levels label)
      (parseBlock levels label) :=
  (parse_inStep_and_block_inStep levels).2 label

end Statement

end

section

variable {twins : TwinTapes} (levels : Nat)

/-! ## Members -/

theorem Method.params_inStep :
    twins.InStep (Series.Matches twins.PairsTexts) parseParams parseParams :=
  .enter _ (.separated "," (.bind (.expect _ (by decide)) fun _ _ hname => .pure hname.text))

theorem Method.parse_inStep :
    twins.InStep (Matches twins.PairsTexts) (parse levels) (parse levels) :=
  .enter _ (.bind (.between _ _ _ params_inStep) fun _ _ hparams =>
    .bind (.enter _ (Statement.block_inStep levels _)) fun _ _ hbody => .pure ⟨hparams, hbody⟩)

namespace Member

theorem method_inStep {make make' : Method → Member}
    (hmake : ∀ {method method'}, Method.Matches twins.PairsTexts method method' →
      (make method).Matches twins.PairsTexts (make' method')) :
    twins.InStep (Matches twins.PairsTexts) (parseMethod levels make) (parseMethod levels make') :=
  .bind (Method.parse_inStep levels) fun _ _ hmethod => .pure (hmake hmethod)

theorem initializer_inStep {name name' : String} (hname : twins.PairsTexts name name') :
    twins.InStep (Matches twins.PairsTexts) (parseInitializer levels name)
      (parseInitializer levels name') := by
  intro index
  have hself := twins.one.endlessBetween_self index
  refine .next_bind ?_
  rw [← twins.isSingle_eq]
  split
  next h =>
    refine ((Expression.parse_inStep levels).stepsFrom (Nat.zero_le 1)
      (hself.succ (kind_ne_of_isSingle h))).bind fun _ _ hvalue => ?_
    exact .pure (.staticField hname (.some hvalue))
  next => exact .pushBack_bind (by decide) (.pure (.staticField hname .none) le_rfl hself)

theorem staticField_inStep :
    twins.InStep (Matches twins.PairsTexts) (parseStaticField levels) (parseStaticField levels) :=
  .enter _ (.bind (.expect _ (by decide)) fun _ _ _ => .bind (.expect _ (by decide))
    fun _ _ hname => initializer_inStep levels hname.text)

theorem staticMethod_inStep :
    twins.InStep (Matches twins.PairsTexts) (parseStaticMethod levels) (parseStaticMethod levels) :=
  .enter _ (.bind (.expect _ (by decide)) fun _ _ _ => .bind (.expect _ (by decide))
    fun _ _ hname => method_inStep levels (.staticMethod hname.text))

theorem instanceField_inStep :
    twins.InStep (Matches twins.PairsTexts) parseInstanceField parseInstanceField :=
  .enter _ (.bind (.expect _ (by decide)) fun _ _ hname => .pure (.instanceField hname.text))

theorem namedMethod_inStep (production : Production) {kind : Kind} {make : String → Method → Member}
    (hne : kind ≠ .eof)
    (hmake : ∀ {name name' method method'}, twins.PairsTexts name name' →
      Method.Matches twins.PairsTexts method method' →
      (make name method).Matches twins.PairsTexts (make name' method')) :
    twins.InStep (Matches twins.PairsTexts) (parseNamedMethod production kind make levels)
      (parseNamedMethod production kind make levels) :=
  .enter _ (.bind (.expect _ hne) fun _ _ hname => method_inStep levels (hmake hname.text))

/-- `static` and a name, which are known to come next. One more token may wait behind them. -/
theorem static_stepsFrom {label : String} {index waiting : Nat} {rest : Token → Routine Member}
    (hstatic : (twins.one.get index).kind = .staticWord)
    (hname : (twins.one.get (index + 1)).kind = .name) (hwaiting : waiting ≤ 3)
    (hrest : ∀ name name', twins.PairsTexts name.text name'.text →
      twins.InStep (Matches twins.PairsTexts) (rest name) (rest name')) :
    twins.StepsFrom index index waiting (Matches twins.PairsTexts)
      (Routine.expect .staticWord label >>= fun _ => Routine.expect .name label >>= rest)
      (Routine.expect .staticWord label >>= fun _ => Routine.expect .name label >>= rest) := by
  have hself := twins.one.endlessBetween_self index
  have hfirst := hself.succ (hstatic ▸ Kind.noConfusion)
  have hne : (twins.one.get (index + 1)).kind ≠ .eof := hname ▸ Kind.noConfusion
  refine .expect_bind _ (.inl hstatic) hself fun _ => .expect_bind _ (.inl hname) hfirst fun _ => ?_
  have hcalm : waiting - 1 - 1 ≤ 1 := Nat.sub_le_sub_right hwaiting 2
  exact (hrest _ _ (pairsTokens_of_kind_ne hne).text).stepsFrom hcalm (hfirst.succ hne)

/-- A name that is known to come next, and a method. One more token may wait behind the name. -/
theorem namedMethod_stepsFrom (production : Production) {kind : Kind}
    {make : String → Method → Member} {index waiting : Nat}
    (hkind : (twins.one.get index).kind = kind) (hne : kind ≠ .eof) (hwaiting : waiting ≤ 2)
    (hmake : ∀ {name name' method method'}, twins.PairsTexts name name' →
      Method.Matches twins.PairsTexts method method' →
      (make name method).Matches twins.PairsTexts (make name' method')) :
    twins.StepsFrom index index waiting (Matches twins.PairsTexts)
      (parseNamedMethod production kind make levels)
      (parseNamedMethod production kind make levels) := by
  have hself := twins.one.endlessBetween_self index
  have hne : (twins.one.get index).kind ≠ .eof := hkind ▸ hne
  refine .enter _ (.expect_bind _ (.inl hkind) hself fun _ => ?_)
  refine (method_inStep levels ?_).stepsFrom (Nat.sub_le_sub_right hwaiting 1) (hself.succ hne)
  exact hmake (pairsTokens_of_kind_ne hne).text

theorem instanceField_stepsFrom {index waiting : Nat} (hkind : (twins.one.get index).kind = .name)
    (hwaiting : waiting ≤ 2) :
    twins.StepsFrom index index waiting (Matches twins.PairsTexts) parseInstanceField
      parseInstanceField := by
  have hself := twins.one.endlessBetween_self index
  have hne : (twins.one.get index).kind ≠ .eof := hkind ▸ Kind.noConfusion
  refine .enter _ (.expect_bind _ (.inl hkind) hself fun _ => ?_)
  exact .pure (.instanceField (pairsTokens_of_kind_ne hne).text) (Nat.sub_le_sub_right hwaiting 1)
    (hself.succ hne)

/-- The tokens that tell the kind of a member are handed back, the latest first. -/
theorem parse_inStep :
    twins.InStep (Matches twins.PairsTexts) (parse levels) (parse levels) := by
  intro index
  have hself := twins.one.endlessBetween_self index
  refine .enter _ (.next_bind ?_)
  rw [← twins.kind_eq]
  cases hkind : (twins.one.get index).kind with
  | staticWord =>
    have hfirst := hself.succ (hkind ▸ Kind.noConfusion)
    refine .expect_bind _ (.inr (Nat.zero_le 1)) hfirst fun hname => .next_bind ?_
    refine .pushBack_bind (by decide) (.pushBack_bind (by decide) (.pushBack_bind (by decide) ?_))
    rw [← twins.isSingle_eq]
    split
    · exact .enter _ (static_stepsFrom hkind hname le_rfl fun _ _ htext =>
        method_inStep levels fun hmethod => .staticMethod htext hmethod)
    · exact .enter _ (static_stepsFrom hkind hname le_rfl fun _ _ htext =>
        initializer_inStep levels htext)
  | name =>
    refine .next_bind (.pushBack_bind (by decide) (.pushBack_bind (by decide) ?_))
    rw [← twins.isSingle_eq]
    split
    · exact namedMethod_stepsFrom levels _ hkind (by decide) le_rfl .instanceMethod
    · exact instanceField_stepsFrom hkind le_rfl
  | className =>
    exact .pushBack_bind (by decide)
      (namedMethod_stepsFrom levels _ hkind (by decide) (by decide) .constructor)
  | _ => exact .complain (.alternative _ _) hself

theorem series_inStep :
    twins.InStep (Series.Matches (Matches twins.PairsTexts)) (parseSeries levels)
      (parseSeries levels) :=
  .enter _ (.run (fun index => twins.isSingle_eq index _) (parse_inStep levels))

end Member

/-! ## Classes -/

namespace ClassDef

theorem parse_inStep :
    twins.InStep (Matches twins.PairsTexts) (parse levels) (parse levels) :=
  .enter _ (.bind (.expect _ (by decide)) fun _ _ _ =>
    .bind (.expect _ (by decide)) fun _ _ hname => .bind (.expectSingle _ _) fun _ _ _ =>
      .bind (Member.series_inStep levels) fun _ _ hmembers => .bind (.expectSingle _ _) fun _ _ _ =>
        .pure ⟨hname.text, hmembers⟩)

theorem series_inStep :
    twins.InStep (Series.Matches (Matches twins.PairsTexts)) (parseSeries levels)
      (parseSeries levels) :=
  .enter _ (.run (fun index => twins.isKind_eq index _) (parse_inStep levels))

end ClassDef

end

/-! ## Programs -/

namespace TwinTapes

variable (twins : TwinTapes)

/-- A spot where a parse of a program may end: the token taken last is the first that ends the
source, and none waits. -/
def Finished (spot : Spot) : Prop :=
  ∃ index, spot.IsAt (index + 1) 0 ∧ twins.one.EndlessBetween 0 index ∧
    (twins.one.get index).kind = .eof

end TwinTapes

/-- Two parses of programs end at the same spot, wherever no token was taken and one waits at most. -/
theorem Program.parse_abreast_from (twins : TwinTapes) (levels : Nat) {spot : Spot}
    (hspot : spot.IsAt 0 1) :
    twins.Abreast 0 twins.Finished (Matches twins.PairsTexts) (parse levels (spot.on twins.one))
      (parse levels (spot.on twins.other)) := by
  let entered := spot.note (.entered .program)
  have hentered : entered.IsAt 0 1 := ⟨hspot.index_eq, hspot.pending_le, hspot.mostPending_le⟩
  refine (ClassDef.series_inStep levels 0 entered hentered).bind
    fun classes classes' spot hclasses hcalm => ?_
  have hkind := twins.kind_eq spot.index
  have hspot : spot.taken.IsAt (spot.index + 1) 0 :=
    ⟨rfl, Nat.sub_eq_zero_of_le hcalm.pending_le ▸ le_rfl, hcalm.mostPending_le⟩
  rw [Routine.bind_apply, Routine.bind_apply]
  by_cases heof : (twins.one.get spot.index).kind = .eof
  · rw [spot.expect_on_of_kind _ _ heof, spot.expect_on_of_kind _ _ (hkind ▸ heof)]
    exact .ok ⟨hclasses⟩ ⟨spot.index, hspot, hcalm.endless, heof⟩
  · rw [spot.expect_on_of_kind_ne _ _ heof, spot.expect_on_of_kind_ne _ _ (hkind ▸ heof)]
    exact .complains (.kind Production.program.label .eof) hspot hcalm.endless

/-- Two parses of programs end at the same spot. -/
theorem Program.parse_abreast (twins : TwinTapes) (limits : Limits) (levels : Nat) :
    twins.Abreast 0 twins.Finished (Matches twins.PairsTexts)
      (parse levels ((Spot.start limits).on twins.one))
      (parse levels ((Spot.start limits).on twins.other)) :=
  parse_abreast_from twins levels ⟨rfl, Nat.zero_le 1, Nat.zero_le 3⟩

end FrappeSyntax
