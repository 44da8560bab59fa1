import FrappeSyntax.Fragment
import FrappeSyntax.Proofs.Composition
import FrappeSyntax.Proofs.Program

/-!
# How the routines for productions are put together

Each routine for a production follows from those for its parts. Expressions, statements and blocks
open levels, so the routines for these are put together by induction on the levels.

* `Production.composed`, `Statement.block_composed`: the routines for all productions, and for
  blocks.
-/

namespace FrappeSyntax

section

variable {levels more : Nat} {expression expression' : Routine Expression}

/-! ## Parts of expressions -/

theorem Expression.args_composed (h : Composed levels more expression expression')
    (hreads : Reads levels more expression expression' form.reading) :
    Composed levels more (parseArgs expression) (parseArgs expression') :=
  .enter _ (.separated "," h hreads Expression.isInner_of_mem)

theorem Expression.argsPart_composed (h : Composed levels more expression expression')
    (hreads : Reads levels more expression expression' form.reading) :
    Composed levels more (parseArgsPart expression) (parseArgsPart expression') :=
  .enter _ (.between _ _ _ (args_composed h hreads))

theorem Caller.composed (h : Composed levels more expression expression')
    (hreads : Reads levels more expression expression' Expression.form.reading) :
    Composed levels more (parse expression) (parse expression') := by
  refine .enter _ (ComposedAfter.bind .next fun token => ?_)
  cases CallerKind.ofKind? token.kind with
  | none => exact .noAlternative _ _ _
  | some kind =>
    refine .of_composed (ComposedAfter.bind .peek fun next => ?_)
    split
    · exact .bind (Expression.argsPart_composed h hreads) fun _ => .pure rfl
    · exact .pure rfl

theorem Caller.chain_composed (h : Composed levels more expression expression')
    (hreads : Reads levels more expression expression' Expression.form.reading) :
    Composed levels more (parseChain expression) (parseChain expression') :=
  .enter _ (.separated "." (composed h hreads) (Caller.reads hreads) Caller.isInner_of_mem)

theorem NewObject.composed (h : Composed levels more expression expression')
    (hreads : Reads levels more expression expression' Expression.form.reading) :
    Composed levels more (parse expression) (parse expression') :=
  .enter _ (.bind (.expect _ _) fun _ => .bind (.expect _ _) fun _ =>
    .bind (Expression.argsPart_composed h hreads) fun _ => .pure rfl)

/-! ## Expressions -/

/-- A chain starts at the token taken last. -/
theorem Expression.chainAt_composed (h : Composed levels more expression expression')
    (hreads : Reads levels more expression expression' form.reading) (token : Token) :
    ComposedAfter ([] ++ [token]) levels more (parseChainAt expression token)
      (parseChainAt expression' token) fun _ => [] := by
  unfold parseChainAt
  cases CallerKind.ofKind? token.kind with
  | none => exact .noAlternative _ _ _
  | some kind =>
    exact ComposedAfter.bind .pushBack fun _ =>
      .bind (Caller.chain_composed h hreads) fun _ => .pure rfl

theorem Expression.opened_composed (h : Composed levels more expression expression')
    (hreads : Reads levels more expression expression' form.reading) :
    Composed levels more (parseOpened expression) (parseOpened expression') := by
  refine ComposedAfter.bind .next fun token => ?_
  cases LiteralKind.ofKind? token.kind with
  | none => exact chainAt_composed h hreads token
  | some kind =>
    cases kind with
    | this =>
      refine .bind .peek fun next => ?_
      split
      · exact chainAt_composed h hreads token
      · exact .of_composed (.pure rfl)
    | _ => exact .of_composed (.pure rfl)

/-- The routine for expressions opens a level, and then goes on with a level less. -/
theorem Expression.composed {levels more : Nat} (hle : levels ≤ more) :
    Composed levels more (parse levels) (parse more) := by
  induction more using Nat.strongRecOn generalizing levels with
  | ind more ih =>
    refine .of_inside parse (fun n => parseOpened (parse n)) (.enter _ .refuse)
      (fun h => .enter _ (.cut h)) (fun h => .enter _ (.deeper h)) hle ?_
    intro n m hnm hm
    exact opened_composed (ih m hm hnm) (Expression.reads hnm)

/-! ## Kinds of statements -/

theorem Rhs.composed (h : Composed levels more expression expression')
    (hreads : Reads levels more expression expression' Expression.form.reading) :
    Composed levels more (parse expression) (parse expression') := by
  refine .enter _ (ComposedAfter.bind .peek fun next => ?_)
  split
  · exact .bind (NewObject.composed h hreads) fun _ => .pure rfl
  · exact .bind h fun _ => .pure rfl

namespace Statement

variable {block block' : String → Routine (List Statement)}

theorem assignment_composed (h : Composed levels more expression expression')
    (hreads : Reads levels more expression expression' Expression.form.reading) :
    Composed levels more (parseAssignment expression) (parseAssignment expression') :=
  .enter _ (.bind (.expect _ _) fun _ => .bind (.expectSingle _ _) fun _ =>
    .bind (Rhs.composed h hreads) fun _ => .pure rfl)

theorem return_composed (h : Composed levels more expression expression') :
    Composed levels more (parseReturn expression) (parseReturn expression') :=
  .enter _ (.bind (.expect _ _) fun _ => .bind h fun _ => .pure rfl)

theorem loopBody_composed
    (hblock : ∀ production, Composed levels more (block production) (block' production)) :
    Composed levels more (parseLoopBody block) (parseLoopBody block') :=
  .enter _ (hblock _)

theorem guarded_composed (production : Production) (keyword : Kind)
    (make : Expression → List Statement → Statement)
    (h : Composed levels more expression expression')
    (hblock : ∀ production, Composed levels more (block production) (block' production)) :
    Composed levels more (parseGuarded production keyword make expression block)
      (parseGuarded production keyword make expression' block') :=
  .enter _ (.bind (.expect _ _) fun _ => .bind (.expectSingle _ _) fun _ => .bind h fun _ =>
    .bind (.expectSingle _ _) fun _ => .bind (loopBody_composed hblock) fun _ => .pure rfl)

/-! ## Statements and blocks -/

/-- The first token of a statement is handed back, unless no statement starts with it. -/
theorem opened_composed (h : Composed levels more expression expression')
    (hreads : Reads levels more expression expression' Expression.form.reading)
    (hblock : ∀ production, Composed levels more (block production) (block' production)) :
    Composed levels more (parseOpened expression block) (parseOpened expression' block') := by
  refine ComposedAfter.bind .next fun token => ?_
  have hback : ∀ {routine full : Routine Statement}, Composed levels more routine full →
      ComposedAfter ([] ++ [token]) levels more (Routine.pushBack token >>= fun _ => routine)
        (Routine.pushBack token >>= fun _ => full) fun _ => [] :=
    fun h => .bind .pushBack fun _ => h
  cases token.kind with
  | whileWord => exact hback (guarded_composed _ _ _ h hblock)
  | ifWord => exact hback (guarded_composed _ _ _ h hblock)
  | returnWord => exact hback (return_composed h)
  | newWord => exact hback (.bind (NewObject.composed h hreads) fun _ => .pure rfl)
  | name => exact hback (assignment_composed h hreads)
  | _ => exact .noAlternative _ _ _

theorem series_composed {statement statement' : Routine Statement}
    (h : Composed levels more statement statement')
    (hreads : Reads levels more statement statement' form.reading) :
    Composed levels more (parseSeries statement) (parseSeries statement') := by
  refine .enter _ (.run _ h hreads isInner_of_mem ?_)
  intro s
  obtain ⟨word, rest, hwords, -⟩ := s.words_eq_cons
  exact List.ne_nil_of_mem (hwords ▸ List.mem_cons_self : word ∈ s.words)

/-- The routines for statements and for blocks, which are inside each other. -/
theorem composed_and_block_composed {levels more : Nat} (hle : levels ≤ more) :
    Composed levels more (parse levels) (parse more) ∧
      ∀ production, Composed levels more (parseBlock levels production)
        (parseBlock more production) := by
  induction more using Nat.strongRecOn generalizing levels with
  | ind more ih =>
    constructor
    · refine .of_inside parse (fun n => parseOpened (Expression.parse n) (parseBlock n))
        (.enter _ .refuse) (fun h => .enter _ (.cut h)) (fun h => .enter _ (.deeper h)) hle ?_
      intro n m hnm hm
      exact opened_composed (Expression.composed hnm) (Expression.reads hnm) (ih m hm hnm).2
    · intro production
      refine .of_inside (parseBlock · production) (fun n => parseBraced (parse n) production)
        .refuse .cut .deeper hle ?_
      intro n m hnm hm
      exact .between _ _ _ (series_composed (ih m hm hnm).1 (reads hnm))

theorem composed {levels more : Nat} (hle : levels ≤ more) :
    Composed levels more (parse levels) (parse more) :=
  (composed_and_block_composed hle).1

theorem block_composed {levels more : Nat} (hle : levels ≤ more) (production : String) :
    Composed levels more (parseBlock levels production) (parseBlock more production) :=
  (composed_and_block_composed hle).2 production

end Statement

end

section

variable {levels more : Nat}

/-! ## Members -/

theorem Method.params_composed (hle : levels ≤ more) :
    Composed levels more parseParams parseParams :=
  .enter _ (.separated "," (.bind (.expect _ _) fun _ => .pure rfl) (param_reads hle _)
    isInner_of_mem_wordsOfParam)

theorem Method.composed (hle : levels ≤ more) :
    Composed levels more (parse levels) (parse more) :=
  .enter _ (.bind (.between _ _ _ (params_composed hle)) fun _ =>
    .bind (.enter _ (Statement.block_composed hle _)) fun _ => .pure rfl)

namespace Member

theorem staticField_composed (hle : levels ≤ more) :
    Composed levels more (parseStaticField levels) (parseStaticField more) := by
  refine .enter _ (.bind (.expect _ _) fun _ => .bind (.expect _ _) fun name =>
    ComposedAfter.bind .next fun token => ?_)
  split
  · exact .of_composed (Composed.bind (Expression.composed hle) fun _ => .pure rfl)
  · exact .bind .pushBack fun _ => .pure rfl

theorem staticMethod_composed (hle : levels ≤ more) :
    Composed levels more (parseStaticMethod levels) (parseStaticMethod more) :=
  .enter _ (.bind (.expect _ _) fun _ => .bind (.expect _ _) fun _ =>
    .bind (Method.composed hle) fun _ => .pure rfl)

theorem instanceField_composed : Composed levels more parseInstanceField parseInstanceField :=
  .enter _ (.bind (.expect _ _) fun _ => .pure rfl)

theorem namedMethod_composed (hle : levels ≤ more) (production : Production) (kind : Kind)
    (make : String → Method → Member) :
    Composed levels more (parseNamedMethod production kind make levels)
      (parseNamedMethod production kind make more) :=
  .enter _ (.bind (.expect _ _) fun _ => .bind (Method.composed hle) fun _ => .pure rfl)

/-- The tokens that tell the kind of a member are handed back, the latest first. -/
theorem composed (hle : levels ≤ more) : Composed levels more (parse levels) (parse more) := by
  refine .enter _ (ComposedAfter.bind .next fun token => ?_)
  cases token.kind with
  | staticWord =>
    refine .bind (.expect _ _) fun name => .bind .next fun following => .bind .pushBack fun _ =>
      .bind .pushBack fun _ => .bind .pushBack fun _ => ?_
    split
    · exact staticMethod_composed hle
    · exact staticField_composed hle
  | name =>
    refine .bind .next fun following => .bind .pushBack fun _ => .bind .pushBack fun _ => ?_
    split
    · exact namedMethod_composed hle _ _ _
    · exact instanceField_composed
  | className => exact .bind .pushBack fun _ => namedMethod_composed hle _ _ _
  | _ => exact .noAlternative _ _ _

theorem series_composed (hle : levels ≤ more) :
    Composed levels more (parseSeries levels) (parseSeries more) := by
  refine .enter _ (.run _ (composed hle) (reads hle) isInner_of_mem ?_)
  intro m
  obtain ⟨word, rest, hwords, -⟩ := m.words_eq_cons
  exact List.ne_nil_of_mem (hwords ▸ List.mem_cons_self : word ∈ m.words)

end Member

/-! ## Programs -/

theorem ClassDef.composed (hle : levels ≤ more) :
    Composed levels more (parse levels) (parse more) :=
  .enter _ (.bind (.expect _ _) fun _ => .bind (.expect _ _) fun _ =>
    .bind (.expectSingle _ _) fun _ => .bind (Member.series_composed hle) fun _ =>
      .bind (.expectSingle _ _) fun _ => .pure rfl)

theorem ClassDef.series_composed (hle : levels ≤ more) :
    Composed levels more (parseSeries levels) (parseSeries more) :=
  .enter _ (.run _ (composed hle) (reads hle) isInner_of_mem fun _ => List.cons_ne_nil _ _)

theorem Program.composed (hle : levels ≤ more) :
    Composed levels more (parse levels) (parse more) :=
  .enter _ (.bind (ClassDef.series_composed hle) fun _ => .bind (.expect _ _) fun _ => .pure rfl)

/-! ## All productions -/

/-- The routine for a production, one case for each. -/
theorem Production.composed (production : Production) (hle : levels ≤ more) :
    Composed levels more (production.parseAt levels) (production.parseAt more) := by
  have hexpression := Expression.composed hle
  have hreads := Expression.reads hle
  have hblock := Statement.block_composed hle
  cases production with
  | program => exact (Program.composed hle).map _
  | classes => exact (ClassDef.series_composed hle).map _
  | classBody => exact (ClassDef.composed hle).map _
  | members => exact (Member.series_composed hle).map _
  | member => exact (Member.composed hle).map _
  | staticField => exact (Member.staticField_composed hle).map _
  | staticMethod => exact (Member.staticMethod_composed hle).map _
  | instanceField => exact Member.instanceField_composed.map _
  | instanceMethod => exact (Member.namedMethod_composed hle _ _ _).map _
  | constructor => exact (Member.namedMethod_composed hle _ _ _).map _
  | restOfMethod => exact (Method.composed hle).map _
  | params => exact (Method.params_composed hle).map _
  | methodBody => exact (Composed.enter _ (hblock _)).map _
  | statements =>
    exact (Statement.series_composed (Statement.composed hle) (Statement.reads hle)).map _
  | statement => exact (Statement.composed hle).map _
  | whileStatement => exact (Statement.guarded_composed _ _ _ hexpression hblock).map _
  | ifStatement => exact (Statement.guarded_composed _ _ _ hexpression hblock).map _
  | loopBody => exact (Statement.loopBody_composed hblock).map _
  | returnStatement => exact (Statement.return_composed hexpression).map _
  | assignment => exact (Statement.assignment_composed hexpression hreads).map _
  | rhs => exact (Rhs.composed hexpression hreads).map _
  | newObject => exact (NewObject.composed hexpression hreads).map _
  | expression => exact hexpression.map _
  | refChain => exact (Caller.chain_composed hexpression hreads).map _
  | caller => exact (Caller.composed hexpression hreads).map _
  | argsPart => exact (Expression.argsPart_composed hexpression hreads).map _
  | args => exact (Expression.args_composed hexpression hreads).map _

end

/-- A block is parsed with all the levels there are. -/
theorem Fragment.parseBlock_eq (label : String) :
    parseBlock label = Routine.withLevels fun levels =>
      (fun body => (Series.ofList? body).map Fragment.statements) <$>
        Statement.parseBlock levels label :=
  rfl

end FrappeSyntax
