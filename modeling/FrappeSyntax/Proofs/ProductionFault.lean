import FrappeSyntax.Proofs.Fault
import FrappeSyntax.Proofs.ProductionComposition

/-!
# How the routines for productions fail

The routines for productions fail only where a word is checked that was not looked at before. What
they expect there goes on to something that the production derives. Before a level is refused, a
token is taken for each level that may be open.

* `Expression.faults`, `Statement.faults_and_block_faults`: by induction on the levels.
* `Member.faults`: the words of a member that were looked at to tell its kind are as expected.
* `Program.faults`: the routine for programs.
* `Production.faults`: the routines for all productions.
-/

namespace FrappeSyntax

section

variable {least levels more : Nat} {expression full : Routine Expression}

/-! ## Parts of expressions -/

theorem Expression.args_faults (hreads : Reads levels more expression full form.reading)
    (h : Faults least (Fault [.part .expression] Cause.Stands) expression) :
    Faults least (Fault [.part .args] Cause.Stands) (parseArgs expression) := by
  refine .enter _ (.separated (by decide) (by decide) hreads isInner_of_mem derives h id ?_)
  exact fun _ hcause => (hcause.prepend [_]).prepend _

/-- Arguments in parentheses: the first parenthesis was looked at, unless they belong to a new
object. -/
theorem Expression.argsPart_faults (hreads : Reads levels more expression full form.reading)
    (h : Faults least (Fault [.part .expression] Cause.Stands) expression) :
    Faults (least + 1) (Fault [.part .argsPart]
        (Cause.StandsOr (.unexpectedText Production.argsPart.label (.single "("))))
      (parseArgsPart expression) := by
  have hendless : argsForm.Endless :=
    fun series => isInner_of_mem_wordsOfSeparated isInner_of_mem series.toList
  refine .enter _ (.between_last (by decide) (by decide) (args_reads hreads) hendless derives_args
    (args_faults hreads h) ?_ ?_ ?_)
  · exact fun found => .inr ⟨rfl, found, rfl⟩
  · exact fun _ _ => .inl (.text (by decide))
  · exact fun hcause => .inl (hcause.prepend [_])

theorem CallerKind.mem_starts {kind : Kind} {caller : CallerKind}
    (h : ofKind? kind = some caller) : kind ∈ Production.caller.starts := by
  rw [← ofKind?_eq_some_iff.mp h]
  cases caller <;> decide

theorem CallerKind.not_mem_starts {kind : Kind} (h : ofKind? kind = none) :
    kind ∉ Production.caller.starts := by
  cases kind <;> first | decide | cases h

/-- A segment: the word it starts with was looked at, unless it stands after a point. -/
theorem Caller.faults (hreads : Reads levels more expression full Expression.form.reading)
    (h : Faults least (Fault [.part .expression] Cause.Stands) expression) :
    Faults (least + 1) (Fault [.part .caller] (Cause.StandsOr
        (.unexpectedAlternative Production.caller.label "a name, a class name or `this`")))
      (parse expression) := by
  refine .enter _ (.next_bind fun token => ?_)
  cases hkind : CallerKind.ofKind? token.kind with
  | none =>
    exact .fail ⟨rfl, rfl⟩ (mt Cause.expects_alternative_iff.mp (CallerKind.not_mem_starts hkind))
      ⟨.alternative _ _ (by decide), .inr ⟨rfl, _, rfl⟩⟩
  | some kind =>
    have hrule : [.kind token.kind, .part .argsPart] ∈ Production.caller.rules := by
      rw [← CallerKind.ofKind?_eq_some_iff.mp hkind]
      cases kind <;> decide
    have hfront : Derives [.kind token.kind] ([token].map Token.toWord) := .kind rfl .nil
    have hargs := (Expression.argsPart_faults hreads h).map (Caller.call kind token.text)
    refine .peek_bind fun next => ?_
    split
    case isTrue hnext =>
      refine FaultsAfter.weaken (.handsBack (Routine.pushBack_handsBack next _) hargs ?_ ?_)
        (Nat.le_succ _)
      · exact List.forall_mem_singleton.mpr (CallerKind.kind_ne_of_ofKind? hkind)
      · rintro tokens cause ⟨hsuggests, hstands | ⟨rfl, found, rfl⟩⟩ hnot
        · exact ⟨.of_rule hrule (hsuggests.prepend hfront), .inl (hstands.prepend _)⟩
        · exact absurd (Word.isSingle_iff.mp hnext) (hnot rfl)
    case isFalse => exact .of_ok fun _ => ⟨_, _, rfl⟩

/-- A chain: the word it starts with was looked at. -/
theorem Caller.chain_faults (hreads : Reads levels more expression full Expression.form.reading)
    (h : Faults least (Fault [.part .expression] Cause.Stands) expression) :
    Faults (least + 1) (Fault [.part .refChain] (Cause.StandsOr
        (.unexpectedAlternative Production.caller.label "a name, a class name or `this`")))
      (parseChain expression) := by
  refine .enter _ (.separated (by decide) (by decide) (reads hreads) isInner_of_mem derives
    (faults hreads h) id ?_)
  rintro front point tokens cause hpoint (hstands | ⟨rfl, found, rfl⟩)
  · exact .inl ((hstands.prepend [point]).prepend front)
  · exact .inl (.segment hpoint)

/-- A new object: the word `new` was looked at. -/
theorem NewObject.faults (hreads : Reads levels more expression full Expression.form.reading)
    (h : Faults least (Fault [.part .expression] Cause.Stands) expression) :
    Faults (least + 1) (Fault [.part .newObject] (Cause.StandsOr
        (.unexpectedKind Production.newObject.label .newWord))) (parse expression) := by
  -- what may be wrong after `new`, and after the class name
  let named : List Token → Cause → Prop := fun tokens cause => ∀ {new : Token},
    new.kind = .newWord → cause.Stands (new :: tokens)
  let called : List Token → Cause → Prop := fun tokens cause => ∀ {name : Token},
    name.kind = .className → named (name :: tokens) cause
  have hargs : Faults (least + 1) (Fault [.part .argsPart] called)
      (Expression.parseArgsPart expression) := by
    refine (Expression.argsPart_faults hreads h).okay_mono ?_
    rintro tokens cause (hstands | ⟨rfl, found, rfl⟩) name hname new hnew
    · exact hstands.prepend [new, name]
    · exact @Cause.Stands.arguments [] _ _ _ hnew hname
  have hnamed : Faults (least + 1 + 1) (Fault [.kind .className, .part .argsPart] named)
      (Routine.expect .className Production.newObject.label >>= fun name =>
        Expression.parseArgsPart expression >>= fun args => pure (NewObject.mk name.text args)) :=
    .kind (by decide) (fun found _ _ => .kind (by decide))
      (fun name _ => hargs.map (NewObject.mk name.text)) fun hname hcause => hcause hname
  have hrule : [.kind .newWord, .kind .className, .part .argsPart] ∈ Production.newObject.rules := by
    decide
  refine .enter _ (FaultsAfter.of_rule (.weaken (.kind (by decide) ?_ (fun _ _ => hnamed) ?_) ?_) hrule)
  · exact fun found => .inr ⟨rfl, found, rfl⟩
  · exact fun hnew hcause => .inl (hcause hnew)
  · omega

/-! ## Expressions -/

/-- What is wrong in a chain is wrong in the expression, if the word it starts with was looked at. -/
theorem Expression.fault_of_chain {token : Token} {kind : CallerKind}
    (hkind : CallerKind.ofKind? token.kind = some kind) {tokens : List Token} {cause : Cause}
    (h : Fault [.part .refChain] (Cause.StandsOr (.unexpectedAlternative Production.caller.label
      "a name, a class name or `this`")) tokens cause)
    (hnot : tokens = [] → ¬ cause.Expects token.toWord) :
    Fault [.part .expression] Cause.Stands tokens cause := by
  obtain ⟨hsuggests, hstands | ⟨rfl, found, rfl⟩⟩ := h
  · exact ⟨.of_rule (by decide) hsuggests, hstands⟩
  · exact absurd (Cause.expects_alternative_iff.mpr (CallerKind.mem_starts hkind)) (hnot rfl)

theorem Expression.not_mem_starts {kind : Kind} (hliteral : LiteralKind.ofKind? kind = none)
    (hcaller : CallerKind.ofKind? kind = none) : kind ∉ Production.expression.starts := by
  revert hliteral hcaller
  cases kind <;> decide

/-- A chain that starts at the token taken last. -/
theorem Expression.chainAt_faults (hreads : Reads levels more expression full form.reading)
    (h : Faults least (Fault [.part .expression] Cause.Stands) expression) {token : Token}
    (hliteral : LiteralKind.ofKind? token.kind = none) :
    FaultsAfter ([] ++ [token]) (least + 1) (Fault [.part .expression] Cause.Stands)
      (parseChainAt expression token) := by
  unfold parseChainAt
  cases hkind : CallerKind.ofKind? token.kind with
  | none =>
    exact .fail ⟨rfl, rfl⟩ (mt Cause.expects_alternative_iff.mp (not_mem_starts hliteral hkind))
      ⟨.alternative _ _ (by decide), .alternative (by decide)⟩
  | some kind =>
    exact .pushBack_bind ((Caller.chain_faults hreads h).map _) (fault_of_chain hkind)

/-- An expression after its level was opened. -/
theorem Expression.opened_faults (hreads : Reads levels more expression full form.reading)
    (h : Faults least (Fault [.part .expression] Cause.Stands) expression) :
    Faults (least + 1) (Fault [.part .expression] Cause.Stands) (parseOpened expression) := by
  refine .next_bind fun token => ?_
  cases hliteral : LiteralKind.ofKind? token.kind with
  | none => exact chainAt_faults hreads h hliteral
  | some kind =>
    cases kind with
    | this =>
      have hkind : CallerKind.ofKind? token.kind = some .this := by
        rw [← LiteralKind.ofKind?_eq_some_iff.mp hliteral]
        rfl
      refine .peek_bind fun next => ?_
      split
      · rw [parseChainAt, hkind]
        exact .pushBack_two ((Caller.chain_faults hreads h).map _) (fault_of_chain hkind)
      · exact .of_ok fun _ => ⟨_, _, rfl⟩
    | _ => exact .pure _

/-- The routine for expressions takes a token at least for each level it opens. -/
theorem Expression.faults (levels : Nat) :
    Faults levels (Fault [.part .expression] Cause.Stands) (parse levels) := by
  induction levels with
  | zero => exact .enter _ (.refuse _)
  | succ levels ih => exact .enter _ (.deeper (opened_faults (reads (le_refl levels)) ih))

/-! ## Kinds of statements -/

/-- What is assigned: a new object starts with a word that was looked at. -/
theorem Rhs.faults (hreads : Reads levels more expression full Expression.form.reading)
    (h : Faults least (Fault [.part .expression] Cause.Stands) expression) :
    Faults least (Fault [.part .rhs] Cause.Stands) (parse expression) := by
  refine .enter _ (.peek_bind fun next => ?_)
  split
  case isTrue hnew =>
    have hkind : next.kind = .newWord := beq_iff_eq.mp hnew
    refine FaultsAfter.weaken (.pushBack_bind ((NewObject.faults hreads h).map Rhs.new) ?_)
      (Nat.le_succ least)
    rintro tokens cause ⟨hsuggests, hstands | ⟨rfl, found, rfl⟩⟩ hnot
    · exact ⟨.of_rule (by decide) hsuggests, hstands⟩
    · exact absurd hkind (hnot rfl)
  case isFalse =>
    refine .pushBack_bind (h.map Rhs.expression) ?_
    rintro tokens cause ⟨hsuggests, hstands⟩ -
    exact ⟨.of_rule (by decide) hsuggests, hstands⟩

namespace Statement

variable {block : String → Routine (List Statement)}

/-- An assignment: the name was looked at. -/
theorem assignment_faults (hreads : Reads levels more expression full Expression.form.reading)
    (h : Faults least (Fault [.part .expression] Cause.Stands) expression) :
    Faults (least + 1) (Fault [.part .assignment] (Cause.StandsOr
        (.unexpectedKind Production.assignment.label .name))) (parseAssignment expression) := by
  have hrule : [.kind .name, .mark "=", .part .rhs] ∈ Production.assignment.rules := by decide
  have hvalue : ∀ name : Token, Faults (least + 1) (Fault [.mark "=", .part .rhs] Cause.Stands)
      (Routine.expectSingle "=" Production.assignment.label >>= fun _ =>
        Rhs.parse expression >>= fun rhs => pure (Statement.assign name.text rhs)) :=
    fun name => .mark (fun _ => .text (by decide)) (fun _ => (Rhs.faults hreads h).map _)
      fun _ hcause => hcause.prepend [_]
  refine .enter _ (FaultsAfter.of_rule (.weaken (.kind (by decide) ?_ (fun name _ => hvalue name) ?_)
    (Nat.le_succ _)) hrule)
  · exact fun found => .inr ⟨rfl, found, rfl⟩
  · exact fun _ hcause => .inl (hcause.prepend [_])

/-- A return: the word `return` was looked at. -/
theorem return_faults (h : Faults least (Fault [.part .expression] Cause.Stands) expression) :
    Faults (least + 1) (Fault [.part .returnStatement] (Cause.StandsOr
        (.unexpectedKind Production.returnStatement.label .returnWord)))
      (parseReturn expression) := by
  have hrule : [.kind .returnWord, .part .expression] ∈ Production.returnStatement.rules := by decide
  refine .enter _ (FaultsAfter.of_rule (.kind (by decide) ?_ (fun _ _ => h.map Statement.return) ?_)
    hrule)
  · exact fun found => .inr ⟨rfl, found, rfl⟩
  · exact fun _ hcause => .inl (hcause.prepend [_])

/-- How the routine for blocks fails, whichever production the block belongs to, and whatever this
is called: the opening brace may be missing. -/
def BlockFaults (least : Nat) (block : String → Routine (List Statement)) : Prop :=
  ∀ (production : Production) (label : String), production.rules = Production.loopBody.rules →
    Faults least (Fault [.part production]
      (Cause.StandsOr (.unexpectedText label (.single "\x7b")))) (block label)

/-- A block where the opening brace was not looked at. -/
theorem BlockFaults.stands (hblock : BlockFaults least block) {production : Production}
    (hrules : production.rules = Production.loopBody.rules)
    (hsite : (production, "\x7b") ∈ Cause.textSites) :
    Faults least (Fault [.part production] Cause.Stands) (block production.label) := by
  refine (hblock _ _ hrules).okay_mono ?_
  rintro tokens cause (hstands | ⟨rfl, found, rfl⟩)
  · exact hstands
  · exact .text hsite

/-- The body of a loop or condition. -/
theorem loopBody_faults (hblock : BlockFaults least block) :
    Faults least (Fault [.part .loopBody] Cause.Stands) (parseLoopBody block) :=
  .enter _ (hblock.stands rfl (by decide))

/-- A kind of statement with a condition and a body: its keyword was looked at. -/
theorem guarded_faults {production : Production} {keyword : Kind}
    {make : Expression → List Statement → Statement}
    (hrule : [.kind keyword, .mark "(", .part .expression, .mark ")", .part .loopBody] ∈
      production.rules) (hkeyword : keyword ≠ .eof)
    (hopens : (production, "(") ∈ Cause.textSites) (hcloses : (production, ")") ∈ Cause.textSites)
    (hreads : Reads levels more expression full Expression.form.reading)
    (h : Faults least (Fault [.part .expression] Cause.Stands) expression)
    (hblock : BlockFaults least block) :
    Faults (least + 1) (Fault [.part production]
        (Cause.StandsOr (.unexpectedKind production.label keyword)))
      (parseGuarded production keyword make expression block) := by
  have hclose : ∀ condition, Faults (least + 1) (Fault [.mark ")", .part .loopBody] Cause.Stands)
      (Routine.expectSingle ")" production.label >>= fun _ =>
        parseLoopBody block >>= fun body => pure (make condition body)) :=
    fun _ => .mark (fun _ => .text hcloses) (fun _ => (loopBody_faults hblock).map _)
      fun _ hcause => hcause.prepend [_]
  have hcondition : Faults least
      (Fault ([.part .expression] ++ [.mark ")", .part .loopBody]) Cause.Stands)
      (expression >>= fun condition => Routine.expectSingle ")" production.label >>= fun _ =>
        parseLoopBody block >>= fun body => pure (make condition body)) :=
    .part hreads Expression.isInner_of_mem Expression.derives h
      (fun condition => (hclose condition).weaken (Nat.le_succ _)) fun _ hcause _ => hcause.prepend _
  have hopen : Faults (least + 1)
      (Fault [.mark "(", .part .expression, .mark ")", .part .loopBody] Cause.Stands)
      (Routine.expectSingle "(" production.label >>= fun _ => expression >>= fun condition =>
        Routine.expectSingle ")" production.label >>= fun _ =>
          parseLoopBody block >>= fun body => pure (make condition body)) :=
    .mark (fun _ => .text hopens) (fun _ => hcondition) fun _ hcause => hcause.prepend [_]
  refine .enter _ (FaultsAfter.of_rule (.weaken (.kind hkeyword ?_ (fun _ _ => hopen) ?_)
    (Nat.le_succ _)) hrule)
  · exact fun found => .inr ⟨rfl, found, rfl⟩
  · exact fun _ hcause => .inl (hcause.prepend [_])

/-! ## Statements and blocks -/

/-- A kind of statement that starts with a token which is handed back. -/
theorem kindAt_faults {production : Production} {kind : Kind} {token : Token}
    {routine : Routine Statement} (hrule : [.part production] ∈ Production.statement.rules)
    (h : Faults (least + 1) (Fault [.part production]
      (Cause.StandsOr (.unexpectedKind production.label kind))) routine)
    (hkind : token.kind = kind) :
    FaultsAfter [token] (least + 1) (Fault [.part .statement] Cause.Stands)
      (Routine.pushBack token >>= fun _ => routine) := by
  refine .pushBack_bind h ?_
  rintro tokens cause ⟨hsuggests, hstands | ⟨rfl, found, rfl⟩⟩ hnot
  · exact ⟨.of_rule hrule hsuggests, hstands⟩
  · exact absurd hkind (hnot rfl)

/-- A statement after its level was opened. -/
theorem opened_faults (hreads : Reads levels more expression full Expression.form.reading)
    (h : Faults least (Fault [.part .expression] Cause.Stands) expression)
    (hblock : BlockFaults least block) :
    Faults (least + 1) (Fault [.part .statement] Cause.Stands) (parseOpened expression block) := by
  refine .next_bind fun token => ?_
  have hnone : token.kind ∉ Production.statement.starts →
      FaultsAfter ([] ++ [token]) (least + 1) (Fault [.part .statement] Cause.Stands)
        (Routine.noAlternative .statement "`while`, `if`, `return`, `new` or a name" token :
          Routine Statement) :=
    fun hmem => .fail ⟨rfl, rfl⟩ (mt Cause.expects_alternative_iff.mp hmem)
      ⟨.alternative _ _ (by decide), .alternative (by decide)⟩
  cases hkind : token.kind with
  | whileWord =>
    exact kindAt_faults (by decide) (guarded_faults (by decide) (by decide) (by decide) (by decide)
      hreads h hblock) hkind
  | ifWord =>
    exact kindAt_faults (by decide) (guarded_faults (by decide) (by decide) (by decide) (by decide)
      hreads h hblock) hkind
  | returnWord => exact kindAt_faults (by decide) (return_faults h) hkind
  | newWord => exact kindAt_faults (by decide) ((NewObject.faults hreads h).map _) hkind
  | name => exact kindAt_faults (by decide) (assignment_faults hreads h) hkind
  | _ => exact hnone (by rw [hkind]; decide)

/-- The statements of a block. -/
theorem series_faults {statement full : Routine Statement}
    (hreads : Reads levels more statement full form.reading)
    (h : Faults least (Fault [.part .statement] Cause.Stands) statement) :
    Faults least (Fault [.part .statements] Cause.Stands) (parseSeries statement) :=
  .enter _ (.run (by decide) (by decide) hreads isInner_of_mem derives h
    fun _ hcause => hcause.prepend _)

/-- A block after its level was opened. The closing brace ends the statements, so it is there. -/
theorem braced_faults {statement full : Routine Statement}
    (hreads : Reads levels more statement full form.reading)
    (h : Faults least (Fault [.part .statement] Cause.Stands) statement) {production : Production}
    (label : String) (hrules : production.rules = Production.loopBody.rules) :
    Faults (least + 1) (Fault [.part production]
      (Cause.StandsOr (.unexpectedText label (.single "\x7b")))) (parseBraced statement label) := by
  have hendless : seriesForm.Endless :=
    fun series => isInner_of_mem_wordsOfRun isInner_of_mem series.toList
  refine .between_last (by rw [hrules]; decide) (by rw [hrules]; decide) (series_reads hreads)
    hendless derives_series (series_faults hreads h) ?_ ?_ ?_
  · exact fun found => .inr ⟨rfl, found, rfl⟩
  · intro front tree following found hstop hnone
    exact absurd hstop (Bool.eq_false_iff.mp hnone)
  · exact fun hcause => .inl (hcause.prepend [_])

/-- The routines for statements and blocks take a token at least for each level they open. -/
theorem faults_and_block_faults (levels : Nat) :
    Faults levels (Fault [.part .statement] Cause.Stands) (parse levels) ∧
      BlockFaults levels (parseBlock levels) := by
  induction levels with
  | zero => exact ⟨.enter _ (.refuse _), fun _ _ _ => .refuse _⟩
  | succ levels ih =>
    obtain ⟨hstatement, hblock⟩ := ih
    have hexpression := Expression.reads (le_refl levels)
    refine ⟨.enter _ (.deeper (opened_faults hexpression (Expression.faults levels) hblock)), ?_⟩
    intro production label hrules
    exact .deeper (braced_faults (reads (le_refl levels)) hstatement label hrules)

end Statement

end

section

variable {levels : Nat}

/-! ## Methods -/

theorem Method.params_faults :
    Faults levels (Fault [.part .params] Cause.Stands) parseParams := by
  have hparam : Faults levels (Fault [.kind .name] Cause.Stands)
      (Routine.expect .name Production.params.label >>= fun name => pure name.text) :=
    FaultsAfter.weaken (.kind (by decide) (fun _ => .kind (by decide)) (fun _ _ => .pure _)
      fun _ hcause => (hcause : False).elim) (Nat.le_succ levels)
  refine .enter _ (.separated (by decide) (by decide) (param_reads (le_refl levels) _)
    isInner_of_mem_wordsOfParam (fun _ => .kind rfl .nil) hparam id ?_)
  exact fun _ hcause => (hcause.prepend [_]).prepend _

/-- The body of a method. -/
theorem Method.body_faults :
    Faults levels (Fault [.part .methodBody] Cause.Stands) (parseBody levels) :=
  .enter _ ((Statement.faults_and_block_faults levels).2.stands rfl (by decide))

/-- The parameters and the body of a method: the first parenthesis was looked at, unless the method
belongs to a constructor. -/
theorem Method.faults :
    Faults (levels + 1) (Fault [.part .restOfMethod]
        (Cause.StandsOr (.unexpectedText Production.restOfMethod.label (.single "("))))
      (parse levels) := by
  have hbody : ∀ params, Faults levels (Fault [.part .methodBody] Cause.Stands)
      (parseBody levels >>= fun body => pure (Method.mk params body)) :=
    fun params => body_faults.map _
  have hendless : paramsForm.Endless :=
    fun series => isInner_of_mem_wordsOfSeparated isInner_of_mem_wordsOfParam series.toList
  refine .enter _ (.between (by decide) (by decide) (params_reads (le_refl levels)) hendless
    (fun names => derives_params names.first names.rest) params_faults hbody ?_ ?_ ?_ ?_)
  · exact fun found => .inr ⟨rfl, found, rfl⟩
  · exact fun _ _ => .inl (.text (by decide))
  · exact fun hcause => .inl (hcause.prepend [_])
  · exact fun hcause => .inl (hcause.prepend _)

/-! ## Kinds of members -/

namespace Member

/-- What follows the name of a static field: a value, if `=` follows at all. -/
theorem initializer_faults (name : String) :
    Faults levels (Fault [.mark "=", .part .expression] Cause.Stands)
      (parseInitializer levels name) := by
  refine .next_bind fun token => ?_
  split
  case isTrue hequals =>
    have hword := Word.isSingle_iff.mp hequals
    refine FaultsAfter.weaken (.of_faults
      ((Expression.faults levels).map fun initializer => Member.staticField name (some initializer))
      ?_ ?_) (Nat.le_succ levels)
    · exact List.forall_mem_singleton.mpr (token.kind_ne_of_toWord_eq hword)
    · exact fun hfault =>
        ⟨hfault.1.prepend (token.derives_mark hword), hfault.2.prepend [token]⟩
  case isFalse => exact .of_ok fun _ => ⟨_, _, rfl⟩

theorem method_faults (make : Method → Member) :
    Faults (levels + 1) (Fault [.part .restOfMethod]
        (Cause.StandsOr (.unexpectedText Production.restOfMethod.label (.single "("))))
      (parseMethod levels make) :=
  Method.faults.map make

/-- `static` and a name on their own, where no word was looked at before, and what follows them. -/
theorem static_faults {production : Production} {symbols : List Symbol} {least : Nat}
    {rest : Token → Routine Member}
    (hrule : .kind .staticWord :: .kind .name :: symbols ∈ production.rules)
    (hrest : ∀ name, Faults least (Fault symbols fun _ _ => True) (rest name)) :
    Faults least (Fault [.part production] fun _ _ => True)
      (Routine.enter production >>= fun _ => Routine.expect .staticWord production.label >>=
        fun _ => Routine.expect .name production.label >>= rest) := by
  have hname : Faults (least + 1) (Fault (.kind .name :: symbols) fun _ _ => True)
      (Routine.expect .name production.label >>= rest) :=
    .kind (by decide) (fun _ => trivial) (fun name _ => hrest name) fun _ _ => trivial
  exact .enter _ (FaultsAfter.of_rule (.weaken (.kind (by decide) (fun _ => trivial)
    (fun _ _ => hname) fun _ _ => trivial) (Nat.le_add_right _ 2)) hrule)

theorem staticField_faults :
    Faults levels (Fault [.part .staticField] fun _ _ => True) (parseStaticField levels) := by
  have hrule : [.kind .staticWord, .kind .name, .mark "=", .part .expression] ∈
      Production.staticField.rules := by
    decide
  exact static_faults hrule fun name => (initializer_faults name.text).okay_mono fun _ => trivial

theorem staticMethod_faults :
    Faults (levels + 1) (Fault [.part .staticMethod] fun _ _ => True) (parseStaticMethod levels) := by
  have hrule : [.kind .staticWord, .kind .name, .part .restOfMethod] ∈
      Production.staticMethod.rules := by
    decide
  exact static_faults hrule fun name => (method_faults _).okay_mono fun _ => trivial

/-- An instance field on its own, where no word was looked at before. -/
theorem instanceField_faults :
    Faults levels (Fault [.part .instanceField] fun _ _ => True) parseInstanceField := by
  have hrule : [.kind .name] ∈ Production.instanceField.rules := by decide
  exact .enter _ (FaultsAfter.of_rule (.weaken (.kind (by decide) (fun _ => trivial)
    (fun _ _ => .pure _) fun _ hcause => (hcause : False).elim) (Nat.le_succ _)) hrule)

/-- A kind of member that is a name and a method. -/
theorem namedMethod_faults {production : Production} {kind : Kind} {make : String → Method → Member}
    (hrule : [.kind kind, .part .restOfMethod] ∈ production.rules) (hkind : kind ≠ .eof) :
    Faults (levels + 1) (Fault [.part production] fun tokens cause =>
        Cause.StandsOr (.unexpectedKind production.label kind) tokens cause ∨
          ∃ name found, tokens = [name] ∧ name.kind = kind ∧
            cause = .unexpectedText Production.restOfMethod.label (.single "(") found)
      (parseNamedMethod production kind make levels) := by
  refine .enter _ (FaultsAfter.of_rule (.weaken (.kind hkind ?_ (fun name _ => method_faults _) ?_)
    (Nat.le_succ _)) hrule)
  · exact fun found => .inl (.inr ⟨rfl, found, rfl⟩)
  · rintro name tokens cause hname (hstands | ⟨rfl, found, rfl⟩)
    · exact .inl (.inl (hstands.prepend [name]))
    · exact .inr ⟨name, found, rfl, hname, rfl⟩

/-! ## Members -/

/-- What may be wrong in a member. -/
abbrev MemberFault : List Token → Cause → Prop :=
  Fault [.part .member] (Cause.StandsOrNamed (· = []))

/-- After `static` and a name, the next token tells the kind of member. -/
theorem staticAt_faults {token name following : Token} (htoken : token.kind = .staticWord)
    (hname : name.kind = .name) :
    FaultsAfter ([token, name] ++ [following]) levels MemberFault
      (Routine.pushBack following >>= fun _ => Routine.pushBack name >>= fun _ =>
        Routine.pushBack token >>= fun _ =>
        if following.isSingle "(" then parseStaticMethod levels else parseStaticField levels) := by
  have hkinds : ∀ other ∈ [token, name], other.kind ≠ .eof := by
    simp [htoken, hname]
  have hfront : Derives ([.kind .staticWord] ++ [.kind .name]) ([token, name].map Token.toWord) :=
    (token.derives_kind htoken).append (name.derives_kind hname)
  split
  case isTrue hparen =>
    have hrule : [.kind .staticWord, .kind .name, .part .restOfMethod] ∈
        Production.staticMethod.rules := by
      decide
    refine FaultsAfter.weaken (.handsBack (Routine.expect_two_handsBack htoken hname .staticMethod _)
      (method_faults (.staticMethod name.text)) hkinds ?_) (Nat.le_add_right levels 3)
    rintro tokens cause ⟨hsuggests, hstands | ⟨rfl, found, rfl⟩⟩ hnot
    · exact ⟨.of_rule (by decide) (.of_rule hrule (hsuggests.prepend hfront)),
        .inl (hstands.prepend _)⟩
    · exact absurd (Word.isSingle_iff.mp hparen) (hnot rfl)
  case isFalse =>
    have hrule : [.kind .staticWord, .kind .name, .mark "=", .part .expression] ∈
        Production.staticField.rules := by
      decide
    refine FaultsAfter.weaken (.handsBack (Routine.expect_two_handsBack htoken hname .staticField _)
      (initializer_faults name.text) hkinds ?_) (Nat.le_add_right levels 2)
    rintro tokens cause ⟨hsuggests, hstands⟩ -
    exact ⟨.of_rule (by decide) (.of_rule hrule (hsuggests.prepend hfront)),
      .inl (hstands.prepend _)⟩

/-- After a name, the next token tells the kind of member. -/
theorem nameAt_faults {token following : Token} (htoken : token.kind = .name) :
    FaultsAfter ([token] ++ [following]) levels MemberFault
      (Routine.pushBack following >>= fun _ => Routine.pushBack token >>= fun _ =>
        if following.isSingle "(" then parseInstanceMethod levels else parseInstanceField) := by
  have hkinds : ∀ other ∈ [token], other.kind ≠ .eof := by
    simp [htoken]
  split
  case isTrue hparen =>
    have hrule : [.kind .name, .part .restOfMethod] ∈ Production.instanceMethod.rules := by decide
    refine FaultsAfter.weaken (.handsBack (Routine.expect_handsBack htoken .instanceMethod _)
      (method_faults (.instanceMethod token.text)) hkinds ?_) (Nat.le_add_right levels 2)
    rintro tokens cause ⟨hsuggests, hstands | ⟨rfl, found, rfl⟩⟩ hnot
    · exact ⟨.of_rule (by decide) (.of_rule hrule (hsuggests.prepend (token.derives_kind htoken))),
        .inl (hstands.prepend _)⟩
    · exact absurd (Word.isSingle_iff.mp hparen) (hnot rfl)
  case isFalse =>
    have hfield : Faults levels (fun _ _ => False) (pure (.instanceField token.text) : Routine Member) :=
      .pure _
    exact FaultsAfter.weaken (.handsBack (Routine.expect_handsBack htoken .instanceField _) hfield
      hkinds fun hnone => hnone.elim) (Nat.le_succ levels)

/-- A class name starts a constructor, and no word after it was looked at. -/
theorem classNameAt_faults {token : Token} (htoken : token.kind = .className) :
    FaultsAfter [token] levels MemberFault
      (Routine.pushBack token >>= fun _ => parseConstructor levels) := by
  refine FaultsAfter.weaken (.pushBack_bind (namedMethod_faults (by decide) (by decide)) ?_)
    (Nat.le_succ levels)
  rintro tokens cause ⟨hsuggests, (hstands | ⟨rfl, found, rfl⟩) | ⟨name, found, rfl, hname, rfl⟩⟩ hnot
  · exact ⟨.of_rule (by decide) hsuggests, .inl hstands⟩
  · exact absurd htoken (hnot rfl)
  · exact ⟨.of_rule (by decide) hsuggests, .inr ⟨[], name, found, rfl, rfl, hname, rfl⟩⟩

/-- The routine for members. -/
theorem faults : Faults levels MemberFault (parse levels) := by
  refine .enter _ (.next_bind fun token => ?_)
  have hnone : token.kind ∉ Production.member.starts →
      FaultsAfter ([] ++ [token]) levels MemberFault
        (Routine.noAlternative .member "`static`, a name or a class name" token : Routine Member) :=
    fun hmem => .fail ⟨rfl, rfl⟩ (mt Cause.expects_alternative_iff.mp hmem)
      ⟨.alternative _ _ (by decide), .inl (.alternative (by decide))⟩
  cases hkind : token.kind with
  | staticWord =>
    refine .expect_bind (fun found => ?_) fun name hname => .next_bind fun following =>
      staticAt_faults hkind hname
    have hrule : [.kind .staticWord, .kind .name] ∈ Production.staticField.rules := by decide
    have hname := Cause.Suggests.kind Production.member.label .name found
    exact ⟨.of_rule (by decide) (.of_rule hrule (hname.prepend (token.derives_kind hkind))),
      .inl (.kind (by decide))⟩
  | name => exact .next_bind fun following => nameAt_faults hkind
  | className => exact classNameAt_faults hkind
  | _ => exact hnone (by rw [hkind]; decide)

/-- The members of a class. -/
theorem series_faults :
    Faults levels (Fault [.part .members] (Cause.StandsOrNamed fun words =>
      ∃ members, words = wordsOfRun Member.words members)) (parseSeries levels) := by
  refine .enter _ (.run (by decide) (by decide) (reads (le_refl levels)) isInner_of_mem derives
    faults ?_)
  intro members front tokens cause hfront hcause
  refine hcause.prepend front ?_
  rintro _ rfl
  exact ⟨members, by rw [hfront, List.append_nil]; rfl⟩

end Member

/-! ## Programs -/

/-- A class. The closing brace ends the members, so it is there. -/
theorem ClassDef.faults :
    Faults levels (Fault [.part .classBody] (Cause.StandsOrNamed OpenBefore)) (parse levels) := by
  have hrule : [.kind .classWord, .kind .className, .mark "\x7b", .part .members, .mark "\x7d"] ∈
      Production.classBody.rules := by
    decide
  have hendless : Member.seriesForm.Endless :=
    fun series => isInner_of_mem_wordsOfRun Member.isInner_of_mem series.toList
  -- what may come before a member, from the brace on and from the class name on
  let braced : List Word → Prop := fun words =>
    ∃ members, words = .single "\x7b" :: wordsOfRun Member.words members
  let named : List Word → Prop := fun words =>
    ∃ name members, words = ⟨.className, name⟩ :: .single "\x7b" :: wordsOfRun Member.words members
  have hclose : ∀ name members, Faults levels
      (Fault [.mark "\x7d"] fun tokens cause => tokens = [] ∧
        ∃ found, cause = .unexpectedText Production.classBody.label (.single "\x7d") found)
      (Routine.expectSingle "\x7d" Production.classBody.label >>= fun _ =>
        pure (ClassDef.mk name members)) :=
    fun _ _ => FaultsAfter.weaken (.mark (fun found => ⟨rfl, found, rfl⟩) (fun _ => .pure _)
      fun _ hcause => (hcause : False).elim) (Nat.le_succ levels)
  have hmembers : ∀ name, Faults levels (Fault ([.part .members] ++ [.mark "\x7d"])
      (Cause.StandsOrNamed fun words => ∃ members, words = wordsOfRun Member.words members))
      (Member.parseSeries levels >>= fun members =>
        Routine.expectSingle "\x7d" Production.classBody.label >>= fun _ =>
          pure (ClassDef.mk name members)) := by
    refine fun name => .part (Member.series_reads (le_refl levels)) hendless Member.derives_series
      Member.series_faults (hclose name) ?_
    rintro front members following _ cause ⟨-, -, hstop⟩ ⟨rfl, found, rfl⟩ hnot
    exact absurd (Word.isSingle_iff.mp hstop) (hnot rfl)
  have hbrace : ∀ name, Faults (levels + 1)
      (Fault [.mark "\x7b", .part .members, .mark "\x7d"] (Cause.StandsOrNamed braced))
      (Routine.expectSingle "\x7b" Production.classBody.label >>= fun _ =>
        Member.parseSeries levels >>= fun members =>
        Routine.expectSingle "\x7d" Production.classBody.label >>= fun _ =>
          pure (ClassDef.mk name members)) := by
    refine fun name => .mark (fun _ => .inl (.text (by decide))) (fun _ => hmembers name) ?_
    intro brace tokens cause hword hcause
    refine hcause.prepend [brace] ?_
    rintro _ ⟨members, rfl⟩
    exact ⟨members, congrArg (· :: _) (Word.normal_eq_single.mpr hword)⟩
  have hname : Faults (levels + 2)
      (Fault [.kind .className, .mark "\x7b", .part .members, .mark "\x7d"]
        (Cause.StandsOrNamed named))
      (Routine.expect .className Production.classBody.label >>= fun name =>
        Routine.expectSingle "\x7b" Production.classBody.label >>= fun _ =>
        Member.parseSeries levels >>= fun members =>
        Routine.expectSingle "\x7d" Production.classBody.label >>= fun _ =>
          pure (ClassDef.mk name.text members)) := by
    refine .kind (by decide) (fun _ => .inl (.kind (by decide))) (fun name _ => hbrace name.text) ?_
    intro name tokens cause hkind hcause
    refine hcause.prepend [name] ?_
    rintro _ ⟨members, rfl⟩
    exact ⟨name.text, members, congrArg (· :: _) (Word.normal_of_kind_eq rfl hkind)⟩
  refine .enter _ (FaultsAfter.of_rule (.weaken (.kind (by decide) (fun _ => .inl (.kind (by decide)))
    (fun _ _ => hname) ?_) (Nat.le_add_right levels 3)) hrule)
  intro token tokens cause hkind hcause
  refine hcause.prepend [token] ?_
  rintro _ ⟨name, members, rfl⟩
  exact ⟨name, members, congrArg (· :: _) ((Word.normal_eq_ofKind rfl).mpr hkind)⟩

/-- The classes of a program. -/
theorem ClassDef.series_faults :
    Faults levels (Fault [.part .classes] (Cause.StandsOrNamed Program.OpenBefore))
      (parseSeries levels) := by
  refine .enter _ (.run (by decide) (by decide) (reads (le_refl levels)) isInner_of_mem derives
    faults ?_)
  intro classes front tokens cause hfront hcause
  refine hcause.prepend front ?_
  intro words hopen
  exact ⟨classes, words, by rw [hfront]; rfl, hopen⟩

/-- The routine for programs. The end of the source ends the classes, so it is there. -/
theorem Program.faults :
    Faults levels (Fault [.part .program] (Cause.StandsOrNamed OpenBefore)) (parse levels) := by
  have hrule : [.part .classes, .kind .eof] ∈ Production.program.rules := by decide
  have hendless : ClassDef.seriesForm.Endless :=
    fun series => isInner_of_mem_wordsOfRun ClassDef.isInner_of_mem series.toList
  have hend : ∀ classes, Faults levels
      (Fault [.kind .eof] fun tokens cause => tokens = [] ∧
        ∃ found, cause = .unexpectedKind Production.program.label .eof found)
      (Routine.expect .eof Production.program.label >>= fun _ => pure (Program.mk classes)) :=
    fun _ => .expect_bind (fun found => ⟨.kind _ _ _, rfl, found, rfl⟩) fun _ _ => .pure _
  have hclasses : Faults levels
      (Fault ([.part .classes] ++ [.kind .eof]) (Cause.StandsOrNamed OpenBefore))
      (ClassDef.parseSeries levels >>= fun classes =>
        Routine.expect .eof Production.program.label >>= fun _ => pure (Program.mk classes)) := by
    refine .part (ClassDef.series_reads (le_refl levels)) hendless ClassDef.derives_series
      ClassDef.series_faults hend ?_
    rintro front classes following _ cause ⟨-, -, hstop⟩ ⟨rfl, found, rfl⟩ hnot
    exact absurd (beq_iff_eq.mp hstop) (hnot rfl)
  exact .enter _ (hclasses.of_rule hrule)

/-! ## All productions -/

/-- The routine for a production takes a token at least for each level it opens; and what its syntax
errors expect goes on to something that the production derives. -/
theorem Production.faults (production : Production) :
    Faults levels (fun tokens cause => cause.Suggests [.part production] tokens)
      (production.parseAt levels) := by
  have hexpression := Expression.faults levels
  have hreads := Expression.reads (le_refl levels)
  have hblock := (Statement.faults_and_block_faults levels).2
  have hsuggests : ∀ {α : Type} {least : Nat} {okay : List Token → Cause → Prop}
      {routine : Routine α} (make : α → Fragment), levels ≤ least →
      Faults least (Fault [.part production] okay) routine →
      Faults levels (fun tokens cause => cause.Suggests [.part production] tokens)
        (make <$> routine) :=
    fun make hle h => (h.mono hle fun hfault => hfault.1).map make
  cases production with
  | program => exact hsuggests _ le_rfl Program.faults
  | classes => exact hsuggests _ le_rfl ClassDef.series_faults
  | classBody => exact hsuggests _ le_rfl ClassDef.faults
  | members => exact hsuggests _ le_rfl Member.series_faults
  | member => exact hsuggests _ le_rfl Member.faults
  | staticField => exact hsuggests _ le_rfl Member.staticField_faults
  | staticMethod => exact hsuggests _ (Nat.le_succ _) Member.staticMethod_faults
  | instanceField => exact hsuggests _ le_rfl Member.instanceField_faults
  | instanceMethod =>
    exact hsuggests _ (Nat.le_succ _) (Member.namedMethod_faults (by decide) (by decide))
  | constructor =>
    exact hsuggests _ (Nat.le_succ _) (Member.namedMethod_faults (by decide) (by decide))
  | restOfMethod => exact hsuggests _ (Nat.le_succ _) Method.faults
  | params => exact hsuggests _ le_rfl Method.params_faults
  | methodBody => exact hsuggests _ le_rfl Method.body_faults
  | statements =>
    exact hsuggests _ le_rfl (Statement.series_faults (Statement.reads (le_refl levels))
      (Statement.faults_and_block_faults levels).1)
  | statement => exact hsuggests _ le_rfl (Statement.faults_and_block_faults levels).1
  | whileStatement =>
    exact hsuggests _ (Nat.le_succ _) (Statement.guarded_faults (by decide) (by decide) (by decide)
      (by decide) hreads hexpression hblock)
  | ifStatement =>
    exact hsuggests _ (Nat.le_succ _) (Statement.guarded_faults (by decide) (by decide) (by decide)
      (by decide) hreads hexpression hblock)
  | loopBody => exact hsuggests _ le_rfl (Statement.loopBody_faults hblock)
  | returnStatement => exact hsuggests _ (Nat.le_succ _) (Statement.return_faults hexpression)
  | assignment =>
    exact hsuggests _ (Nat.le_succ _) (Statement.assignment_faults hreads hexpression)
  | rhs => exact hsuggests _ le_rfl (Rhs.faults hreads hexpression)
  | newObject => exact hsuggests _ (Nat.le_succ _) (NewObject.faults hreads hexpression)
  | expression => exact hsuggests _ le_rfl hexpression
  | refChain => exact hsuggests _ (Nat.le_succ _) (Caller.chain_faults hreads hexpression)
  | caller => exact hsuggests _ (Nat.le_succ _) (Caller.faults hreads hexpression)
  | argsPart => exact hsuggests _ (Nat.le_succ _) (Expression.argsPart_faults hreads hexpression)
  | args => exact hsuggests _ le_rfl (Expression.args_faults hreads hexpression)

end

end FrappeSyntax
