import FrappeSyntax.Proofs.Acceptance
import FrappeSyntax.Proofs.Trace

/-!
# What a parse logs

The log of a parse that gives a tree is the outline of the tree: each production is noted when it is
entered, before anything inside it is read, so the notes come in the order of a walk.

* `Expression.tells`, `Statement.tells`, `Program.tells`: what the routines for trees note.
* `Production.parse_tells`: every production notes the walk through what it gives.
* `log_eq_walk`: the log of every production, and of every parse.
-/

namespace FrappeSyntax

open Outline

/-! ## Expressions -/

section

variable {expression : Routine Expression}

theorem Expression.args_tells (h : expression.Tells [] fun e => walk [e.outline]) :
    (Expression.parseArgs expression).Tells []
      fun es => walk (ofItems Production.args.label (es.toList.map Expression.outline)) :=
  .list (by decide) (fun e => by rw [e.label_outline]; decide) (.separated "," h)

theorem Expression.argsPart_tells (h : expression.Tells [] fun e => walk [e.outline]) :
    (Expression.parseArgsPart expression).Tells []
      fun es => walk [ofArgsPart (es.map Expression.outline)] := by
  let told (es : List Expression) : List String :=
    walk (ofItems Production.args.label (es.map Expression.outline))
  exact .enter (.congr (.between told "(" ")" _ rfl (Expression.args_tells h))
    fun es => (walk_ofArgsPart _).symm)

theorem Caller.tells (h : expression.Tells [] fun e => walk [e.outline]) :
    (Caller.parse expression).Tells [] fun c => walk [c.outline] := by
  refine .enter (.silent_bind Routine.next_silent fun token => ?_)
  split
  · exact .noAlternative _ _ _
  · refine .silent_bind Routine.peek_silent fun next => ?_
    split
    · exact .bind (Expression.argsPart_tells h) fun args => .pure (Caller.walk_call ..)
    · exact .pure (Caller.walk_ref ..)

theorem Caller.chain_tells (h : expression.Tells [] fun e => walk [e.outline]) :
    (Caller.parseChain expression).Tells []
      fun cs => walk (ofItems Production.refChain.label (cs.toList.map Caller.outline)) :=
  .list (by decide) (fun c => by rw [c.label_outline]; decide) (.separated "." (Caller.tells h))

theorem NewObject.tells (h : expression.Tells [] fun e => walk [e.outline]) :
    (NewObject.parse expression).Tells [] fun o => walk [o.outline] := by
  refine .enter (.silent_bind (Routine.expect_silent _ _) fun _ =>
    .silent_bind (Routine.expect_silent _ _) fun className => ?_)
  exact .bind (Expression.argsPart_tells h) fun args => .pure (NewObject.walk_outline _)

theorem Expression.chainAt_tells (h : expression.Tells [] fun e => walk [e.outline])
    (token : Token) : (Expression.parseChainAt expression token).Tells
      [Production.expression.label] fun e => walk [e.outline] := by
  unfold Expression.parseChainAt
  split
  · exact .noAlternative _ _ _
  · exact .silent_bind (Routine.pushBack_silent token) fun _ =>
      .bind (Caller.chain_tells h) fun callers => .pure (Expression.walk_chain callers)

theorem Expression.opened_tells (h : expression.Tells [] fun e => walk [e.outline]) :
    (Expression.parseOpened expression).Tells [Production.expression.label]
      fun e => walk [e.outline] := by
  refine .silent_bind Routine.next_silent fun token => ?_
  split
  · exact Expression.chainAt_tells h token
  · refine .silent_bind Routine.peek_silent fun next => ?_
    split
    · exact Expression.chainAt_tells h token
    · exact .pure (Expression.walk_literal ..)
  · exact .pure (Expression.walk_literal ..)

end

theorem Expression.tells (levels : Nat) :
    (Expression.parse levels).Tells [] fun e => walk [e.outline] := by
  induction levels with
  | zero => exact .enter (.refuse _)
  | succ levels ih => exact .enter (.deeper (Expression.opened_tells ih))

/-! ## Statements -/

section

variable {expression : Routine Expression} {block : String → Routine (List Statement)}

theorem Rhs.tells (h : expression.Tells [] fun e => walk [e.outline]) :
    (Rhs.parse expression).Tells [] fun r => walk [r.outline] := by
  refine .enter (.silent_bind Routine.peek_silent fun next => ?_)
  split
  · exact .bind (NewObject.tells h) fun object => .pure (Rhs.walk_new object)
  · exact .bind h fun value => .pure (Rhs.walk_expression value)

namespace Statement

/-- The walk through the block of a loop, of a condition or of a method, without its owner. -/
def walkOfBlock (statements : List Statement) : List String :=
  walk (ofItems Production.statements.label (statements.map outline))

theorem assignment_tells (h : expression.Tells [] fun e => walk [e.outline]) :
    (parseAssignment expression).Tells [] fun s => walk [s.bodyOutline] := by
  refine .enter (.silent_bind (Routine.expect_silent _ _) fun name =>
    .silent_bind (Routine.expectSingle_silent _ _) fun _ => ?_)
  refine .bind (Rhs.tells h) fun rhs => .pure ?_
  rw [bodyOutline, walk_node (by decide)]
  rfl

theorem return_tells (h : expression.Tells [] fun e => walk [e.outline]) :
    (parseReturn expression).Tells [] fun s => walk [s.bodyOutline] := by
  refine .enter (.silent_bind (Routine.expect_silent _ _) fun _ => .bind h fun value => .pure ?_)
  rw [bodyOutline, walk_node (by decide)]
  rfl

theorem loopBody_tells (h : ∀ label, (block label).Tells [] walkOfBlock) :
    (parseLoopBody block).Tells [] fun ss => walk [ofBlock .loopBody (ss.map outline)] :=
  .enter ((h _).congr fun _ => (walk_ofBlock (by decide) _).symm)

theorem guarded_tells {production : Production} (hlist : production.label ∉ listNames)
    (keyword : Kind) {make : Expression → List Statement → Statement}
    (hmake : ∀ condition body, (make condition body).bodyOutline =
      production.node [] [condition.outline, ofBlock .loopBody (body.map outline)])
    (h : expression.Tells [] fun e => walk [e.outline])
    (hblock : ∀ label, (block label).Tells [] walkOfBlock) :
    (parseGuarded production keyword make expression block).Tells []
      fun s => walk [s.bodyOutline] := by
  refine .enter (.silent_bind (Routine.expect_silent _ _) fun _ =>
    .silent_bind (Routine.expectSingle_silent _ _) fun _ => .bind h fun condition =>
    .silent_bind (Routine.expectSingle_silent _ _) fun _ =>
    .bind (loopBody_tells hblock) fun body => .pure ?_)
  rw [hmake, walk_node hlist, walk_cons]
  rfl

theorem while_tells (h : expression.Tells [] fun e => walk [e.outline])
    (hblock : ∀ label, (block label).Tells [] walkOfBlock) :
    (parseWhile expression block).Tells [] fun s => walk [s.bodyOutline] :=
  guarded_tells (by decide) _ (fun _ _ => by rw [bodyOutline, outlines_eq_map]) h hblock

theorem if_tells (h : expression.Tells [] fun e => walk [e.outline])
    (hblock : ∀ label, (block label).Tells [] walkOfBlock) :
    (parseIf expression block).Tells [] fun s => walk [s.bodyOutline] :=
  guarded_tells (by decide) _ (fun _ _ => by rw [bodyOutline, outlines_eq_map]) h hblock

theorem opened_tells (h : expression.Tells [] fun e => walk [e.outline])
    (hblock : ∀ label, (block label).Tells [] walkOfBlock) :
    (parseOpened expression block).Tells [] fun s => walk [s.bodyOutline] := by
  refine .silent_bind Routine.next_silent fun token => ?_
  split
  · exact .silent_bind (Routine.pushBack_silent token) fun _ => while_tells h hblock
  · exact .silent_bind (Routine.pushBack_silent token) fun _ => if_tells h hblock
  · exact .silent_bind (Routine.pushBack_silent token) fun _ => return_tells h
  · exact .silent_bind (Routine.pushBack_silent token) fun _ =>
      .bind (NewObject.tells h) fun object => .pure (by rw [bodyOutline]; rfl)
  · exact .silent_bind (Routine.pushBack_silent token) fun _ => assignment_tells h
  · exact .noAlternative _ _ _

theorem series_tells {statement : Routine Statement}
    (h : statement.Tells [] fun s => walk [s.outline]) :
    (parseSeries statement).Tells [] fun ss => walkOfBlock ss.toList :=
  .list (by decide) (fun s => by show Production.statement.label ≠ _; decide) (.run _ h)

theorem braced_tells {statement : Routine Statement}
    (h : statement.Tells [] fun s => walk [s.outline]) (label : String) :
    (parseBraced statement label).Tells [] walkOfBlock :=
  .between walkOfBlock _ _ _ rfl (series_tells h)

theorem tells_and_block_tells (levels : Nat) :
    ((parse levels).Tells [] fun s => walk [s.outline]) ∧
      ∀ label, (parseBlock levels label).Tells [] walkOfBlock := by
  induction levels with
  | zero =>
    constructor
    · rw [parse]
      exact .enter (.refuse _)
    · intro label
      rw [parseBlock]
      exact .refuse _
  | succ levels ih =>
    constructor
    · rw [parse]
      exact .enter (.deeper ((opened_tells (Expression.tells levels) ih.2).congr
        fun s => s.walk_outline.symm))
    · intro label
      rw [parseBlock]
      exact .deeper (braced_tells ih.1 label)

end Statement

end

/-! ## Programs -/

theorem Statement.tells (levels : Nat) :
    (Statement.parse levels).Tells [] fun s => walk [s.outline] :=
  (Statement.tells_and_block_tells levels).1

theorem Statement.block_tells (levels : Nat) (label : String) :
    (Statement.parseBlock levels label).Tells [] Statement.walkOfBlock :=
  (Statement.tells_and_block_tells levels).2 label

theorem Method.params_tells : Method.parseParams.Tells []
    fun names => walk (ofNames Production.params.label names.toList) := by
  have hname : Routine.Tells [] (do
      pure (← Routine.expect .name Production.params.label).text) fun _ => [] :=
    .silent_bind (Routine.expect_silent _ _) fun _ => .pure rfl
  refine .enter (.congr (.separated "," hname) fun names => ?_)
  rw [Series.toList, walk_ofNames (by decide)]
  simp

theorem Method.body_tells (levels : Nat) : (Method.parseBody levels).Tells []
    fun ss => walk [ofBlock .methodBody (ss.map Statement.outline)] :=
  .enter ((Statement.block_tells levels _).congr fun _ => (walk_ofBlock (by decide) _).symm)

theorem Method.tells (levels : Nat) :
    (Method.parse levels).Tells [] fun m => walk [m.outline] := by
  let told (names : List String) : List String := walk (ofNames Production.params.label names)
  exact .enter (.bind (.between told _ _ _ rfl Method.params_tells) fun params =>
    .bind (Method.body_tells levels) fun body => .pure (Method.walk_outline ⟨params, body⟩))

namespace Member

/-- What a member with a method or constructor notes after its own name. -/
theorem method_tells (levels : Nat) {production : Production}
    (hlist : production.label ∉ listNames) {make : Method → Member}
    (hmake : ∀ method, ∃ fields,
      (make method).bodyOutline = production.node fields [method.outline]) :
    (parseMethod levels make).Tells [production.label] fun m => walk [m.bodyOutline] := by
  refine .bind (Method.tells levels) fun method => .pure ?_
  obtain ⟨fields, hfields⟩ := hmake method
  rw [hfields, walk_node hlist]
  rfl

theorem initializer_tells (levels : Nat) (name : String) :
    (parseInitializer levels name).Tells [Production.staticField.label]
      fun m => walk [m.bodyOutline] := by
  refine .silent_bind Routine.next_silent fun token => ?_
  split
  · exact .bind (Expression.tells levels) fun value => .pure (walk_node (by decide) _ _)
  · exact .silent_bind (Routine.pushBack_silent token) fun _ => .pure (walk_node (by decide) _ _)

theorem staticField_tells (levels : Nat) :
    (parseStaticField levels).Tells [] fun m => walk [m.bodyOutline] :=
  .enter (.silent_bind (Routine.expect_silent _ _) fun _ =>
    .silent_bind (Routine.expect_silent _ _) fun name => initializer_tells levels name.text)

theorem staticMethod_tells (levels : Nat) :
    (parseStaticMethod levels).Tells [] fun m => walk [m.bodyOutline] :=
  .enter (.silent_bind (Routine.expect_silent _ _) fun _ =>
    .silent_bind (Routine.expect_silent _ _) fun _ =>
      method_tells levels (by decide) fun _ => ⟨_, rfl⟩)

theorem instanceField_tells : parseInstanceField.Tells [] fun m => walk [m.bodyOutline] :=
  .enter (.silent_bind (Routine.expect_silent _ _) fun _ => .pure (walk_node (by decide) _ _))

theorem namedMethod_tells {production : Production} (hlist : production.label ∉ listNames)
    (kind : Kind) {make : String → Method → Member} (hmake : ∀ name method, ∃ fields,
      (make name method).bodyOutline = production.node fields [method.outline]) (levels : Nat) :
    (parseNamedMethod production kind make levels).Tells [] fun m => walk [m.bodyOutline] :=
  .enter (.silent_bind (Routine.expect_silent _ _) fun _ => method_tells levels hlist (hmake _))

theorem instanceMethod_tells (levels : Nat) :
    (parseInstanceMethod levels).Tells [] fun m => walk [m.bodyOutline] :=
  namedMethod_tells (by decide) _ (fun _ _ => ⟨_, rfl⟩) levels

theorem constructor_tells (levels : Nat) :
    (parseConstructor levels).Tells [] fun m => walk [m.bodyOutline] :=
  namedMethod_tells (by decide) _ (fun _ _ => ⟨_, rfl⟩) levels

theorem tells (levels : Nat) : (parse levels).Tells [] fun m => walk [m.outline] := by
  -- each kind of member notes itself after the note for the member
  have hmember {routine : Routine Member} (h : routine.Tells [] fun m => walk [m.bodyOutline]) :
      routine.Tells [Production.member.label] fun m => walk [m.outline] :=
    h.congr fun m => m.walk_outline.symm
  refine .enter (.silent_bind Routine.next_silent fun token => ?_)
  split
  · refine .silent_bind (Routine.expect_silent _ _) fun name =>
      .silent_bind Routine.next_silent fun following =>
      .silent_bind (Routine.pushBack_silent _) fun _ =>
      .silent_bind (Routine.pushBack_silent _) fun _ =>
      .silent_bind (Routine.pushBack_silent _) fun _ => ?_
    split
    · exact hmember (staticMethod_tells levels)
    · exact hmember (staticField_tells levels)
  · refine .silent_bind Routine.next_silent fun following =>
      .silent_bind (Routine.pushBack_silent _) fun _ =>
      .silent_bind (Routine.pushBack_silent _) fun _ => ?_
    split
    · exact hmember (instanceMethod_tells levels)
    · exact hmember instanceField_tells
  · exact .silent_bind (Routine.pushBack_silent _) fun _ => hmember (constructor_tells levels)
  · exact .noAlternative _ _ _

theorem series_tells (levels : Nat) : (parseSeries levels).Tells []
    fun ms => walk (ofItems Production.members.label (ms.toList.map outline)) :=
  .list (by decide) (fun m => by show Production.member.label ≠ _; decide) (.run _ (tells levels))

end Member

theorem ClassDef.tells (levels : Nat) :
    (ClassDef.parse levels).Tells [] fun c => walk [c.outline] :=
  .enter (.silent_bind (Routine.expect_silent _ _) fun _ =>
    .silent_bind (Routine.expect_silent _ _) fun _ =>
    .silent_bind (Routine.expectSingle_silent _ _) fun _ =>
    .bind (Member.series_tells levels) fun _ =>
    .silent_bind (Routine.expectSingle_silent _ _) fun _ => .pure (ClassDef.walk_outline _))

theorem ClassDef.series_tells (levels : Nat) : (ClassDef.parseSeries levels).Tells []
    fun cs => walk (ofItems Production.classes.label (cs.toList.map ClassDef.outline)) :=
  .list (by decide) (fun c => by show Production.classBody.label ≠ _; decide)
    (.run _ (ClassDef.tells levels))

theorem Program.tells (levels : Nat) : (Program.parse levels).Tells [] fun p => walk [p.outline] :=
  .enter (.bind (ClassDef.series_tells levels) fun _ =>
    .silent_bind (Routine.expect_silent _ _) fun _ => .pure (Program.walk_outline _))

/-- Every production notes the walk through what it gives. -/
theorem Production.parseAt_tells (production : Production) (levels : Nat) :
    (production.parseAt levels).Tells [] fun fragment => walk fragment.outlines := by
  have hexpression := Expression.tells levels
  have hblock := Statement.block_tells levels
  cases production with
  | program => exact .map (Program.tells levels)
  | classes => exact .map (ClassDef.series_tells levels)
  | classBody => exact .map (ClassDef.tells levels)
  | members => exact .map (Member.series_tells levels)
  | member => exact .map (Member.tells levels)
  | staticField => exact .map (Member.staticField_tells levels)
  | staticMethod => exact .map (Member.staticMethod_tells levels)
  | instanceField => exact .map Member.instanceField_tells
  | instanceMethod => exact .map (Member.instanceMethod_tells levels)
  | constructor => exact .map (Member.constructor_tells levels)
  | restOfMethod => exact .map (Method.tells levels)
  | params => exact .map Method.params_tells
  | methodBody => exact .map (Method.body_tells levels)
  | statements => exact .map (Statement.series_tells (Statement.tells levels))
  | statement => exact .map (Statement.tells levels)
  | whileStatement => exact .map (Statement.while_tells hexpression hblock)
  | ifStatement => exact .map (Statement.if_tells hexpression hblock)
  | loopBody => exact .map (Statement.loopBody_tells hblock)
  | returnStatement => exact .map (Statement.return_tells hexpression)
  | assignment => exact .map (Statement.assignment_tells hexpression)
  | rhs => exact .map (Rhs.tells hexpression)
  | newObject => exact .map (NewObject.tells hexpression)
  | expression => exact .map hexpression
  | refChain => exact .map (Caller.chain_tells hexpression)
  | caller => exact .map (Caller.tells hexpression)
  | argsPart => exact .map (Expression.argsPart_tells hexpression)
  | args => exact .map (Expression.args_tells hexpression)

theorem Production.parse_tells (production : Production) :
    production.parse.Tells [] fun fragment => walk fragment.outlines :=
  fun parser => production.parseAt_tells parser.levels parser

/-! ## Messages -/

/-- An event as the log shows it: its level and its text. -/
def Event.message (event : Event) : Event.Level × String := (event.level, event.text)

/-- The message that traces the production with a given name. -/
def Event.traceOf (name : String) : Event.Level × String :=
  (.trace, "parsing <" ++ name ++ ">")

theorem Event.map_message_entered (productions : List Production) :
    (productions.map entered).map message = (productions.map Production.label).map traceOf := by
  rw [List.map_map, List.map_map]
  rfl

/-- A production that gives a fragment has logged the walk through its outline, and nothing else. A
parse that gives a program has logged the same between its start and its end, which tells the number
of classes. -/
theorem log_eq_walk :
    (∀ (production : Production) (parser : Parser) (fragment : Fragment) (after : Parser),
      parser.run production.parse = (.ok fragment, after) →
      ∃ events : List Event, after.log = events.reverse ++ parser.log ∧
        events.map Event.message = (walk fragment.outlines).map Event.traceOf) ∧
    ∀ (stream : TokenStream) (limits : Limits) (program : Program) (after : Parser),
      parseWith stream limits = (.ok program, after) →
      after.log.reverse.map Event.message =
        (.debug, "parse start") :: (walk [program.outline]).map Event.traceOf ++
          [(.debug, "parse finished: " ++ toString program.classes.length ++ " classes")] := by
  constructor
  · intro production parser fragment after hrun
    rw [Parser.run] at hrun
    cases hparse : production.parse parser with
    | error error p => rw [hparse] at hrun; cases hrun
    | ok result p =>
      rw [hparse] at hrun
      cases hrun
      obtain ⟨productions, hlog, hlabels⟩ := production.parse_tells _ _ _ hparse
      have hwalk : productions.map Production.label = walk fragment.outlines := hlabels
      exact ⟨productions.map .entered, hlog, by rw [Event.map_message_entered, hwalk]⟩
  · intro stream limits program after hrun
    rw [parseWith_eq] at hrun
    cases hparse : Program.parse limits.maxDepth (.started stream limits) with
    | error error p => rw [hparse] at hrun; cases hrun
    | ok result p =>
      rw [hparse] at hrun
      cases hrun
      obtain ⟨productions, hlog, hlabels⟩ := Program.tells _ _ _ _ hparse
      have hwalk : productions.map Production.label = walk [program.outline] := hlabels
      have hfinished : (p.note (.ofParse (.ok program))).log =
          .finished program.classes.length :: p.log := rfl
      have hstarted : (Parser.started stream limits).log = [.started] := rfl
      rw [hfinished, hlog, hstarted, ← hwalk, ← Event.map_message_entered, List.reverse_cons,
        List.reverse_append, List.reverse_reverse, List.map_append, List.map_append]
      rfl

/-- A parser before the tokens of the chain `x . y`. -/
def Parser.beforeTwoSegments : Parser :=
  .ofStream (.ofTokens [⟨⟨.name, "x"⟩, ⟨⟨0, "a"⟩, ⟨1, "a"⟩⟩⟩, ⟨.single ".", ⟨⟨1, "a"⟩, ⟨2, "a"⟩⟩⟩,
    ⟨⟨.name, "y"⟩, ⟨⟨2, "a"⟩, ⟨3, "a"⟩⟩⟩] "a") {}

/-- The tokens of a class with a field `x`. -/
def TokenStream.ofField : TokenStream :=
  .ofTokens [⟨⟨.classWord, "class"⟩, ⟨⟨0, "a"⟩, ⟨5, "a"⟩⟩⟩,
    ⟨⟨.className, "A"⟩, ⟨⟨6, "a"⟩, ⟨7, "a"⟩⟩⟩, ⟨.single "\x7b", ⟨⟨7, "a"⟩, ⟨8, "a"⟩⟩⟩,
    ⟨⟨.name, "x"⟩, ⟨⟨8, "a"⟩, ⟨9, "a"⟩⟩⟩, ⟨.single "\x7d", ⟨⟨9, "a"⟩, ⟨10, "a"⟩⟩⟩] "a"

/-- A chain is named once for both of its segments, and a list once for its only class. -/
theorem log_eq_walk_chain :
    (∃ events : List Event,
      (Parser.beforeTwoSegments.run Production.expression.parse).2.log =
          events.reverse ++ Parser.beforeTwoSegments.log ∧
        events.map Event.message =
          ["expression", "refChain", "caller", "caller"].map Event.traceOf) ∧
      (parseWith .ofField {}).2.log.reverse.map Event.message =
        (.debug, "parse start") ::
          ["program", "classes", "class", "members", "member", "instanceField"].map Event.traceOf ++
            [(.debug, "parse finished: " ++ toString 1 ++ " classes")] := by
  constructor
  · have hresult : (Parser.beforeTwoSegments.run Production.expression.parse).1 =
        .ok (.expression (.chain (.ref .name "x") [.ref .name "y"])) := by decide +kernel
    have hrun : Parser.beforeTwoSegments.run Production.expression.parse =
        (.ok (.expression (.chain (.ref .name "x") [.ref .name "y"])),
          (Parser.beforeTwoSegments.run Production.expression.parse).2) := by rw [← hresult]
    have hwalk : walk (Fragment.expression (.chain (.ref .name "x") [.ref .name "y"])).outlines =
        ["expression", "refChain", "caller", "caller"] := by decide +kernel
    obtain ⟨events, hlog, htexts⟩ := log_eq_walk.1 _ _ _ _ hrun
    exact ⟨events, hlog, by rw [htexts, hwalk]⟩
  · have hresult : (parseWith .ofField {}).1 =
        .ok ⟨⟨⟨"A", ⟨.instanceField "x", []⟩⟩, []⟩⟩ := by decide +kernel
    have hrun : parseWith .ofField {} =
        (.ok ⟨⟨⟨"A", ⟨.instanceField "x", []⟩⟩, []⟩⟩, (parseWith .ofField {}).2) := by
      rw [← hresult]
    have hwalk : walk [Program.outline ⟨⟨⟨"A", ⟨.instanceField "x", []⟩⟩, []⟩⟩] =
        ["program", "classes", "class", "members", "member", "instanceField"] := by decide +kernel
    rw [log_eq_walk.2 _ _ _ _ hrun, hwalk]
    rfl

end FrappeSyntax
