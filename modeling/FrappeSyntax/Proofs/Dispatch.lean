import FrappeSyntax.Proofs.Depth
import FrappeSyntax.Proofs.Pushback

/-!
# How productions choose

Four productions choose: a member, a statement, what is assigned, and an expression are one of
several others, and the next tokens, at most three of them, tell which. These tokens are taken,
looked at and handed back, so the production that is chosen finds the parser as it was.

* `Parser.lookedAhead`: the parser after some tokens were taken and handed back.
* `Parser.TurnsTo`: a production does what another routine does.
* `Parser.FailsAt`: a production fails at one of the next tokens.
* `Parser.dispatches`: what the four productions turn to, from every parser.
-/

namespace FrappeSyntax

open Routine

/-! ## Tokens taken and handed back -/

namespace Parser

variable {parser : Parser}

/-- The parser after the next token was taken. -/
def taken (parser : Parser) : Parser := { parser with stream := parser.stream.next.2 }

/-- The parser after a token was handed back. -/
def handedBack (token : Token) (parser : Parser) : Parser :=
  { parser with stream := parser.stream.pushBack token }

/-- The parser after `count` tokens were taken and handed back, the last of them first. -/
def lookedAhead : (count : Nat) → Parser → Parser
  | 0, parser => parser
  | count + 1, parser => (parser.taken.lookedAhead count).handedBack parser.sequence.head

@[simp] theorem sequence_note (event : Event) (parser : Parser) :
    (parser.note event).sequence = parser.sequence := rfl

theorem sequence_taken (parser : Parser) : parser.taken.sequence = parser.sequence.tail :=
  (congrArg Stream'.tail parser.stream.sequence_eq).symm

theorem head_taken (parser : Parser) : parser.taken.sequence.head = parser.sequence.get 1 := by
  rw [sequence_taken]
  rfl

theorem head_taken_taken (parser : Parser) :
    parser.taken.taken.sequence.head = parser.sequence.get 2 := by
  rw [head_taken, sequence_taken]
  rfl

theorem lookedAhead_one (parser : Parser) : parser.lookedAhead 1 = parser.peeked := by
  rw [lookedAhead, parser.head_sequence]
  rfl

theorem alike_note (event : Event) (parser : Parser) : (parser.note event).Alike parser :=
  ⟨rfl, rfl, rfl, fun _ => rfl⟩

theorem Alike.taken {parser' : Parser} (h : parser.Alike parser') :
    parser.taken.Alike parser'.taken := by
  refine ⟨?_, h.maxDepth, h.depth, h.clock⟩
  rw [sequence_taken, sequence_taken, h.sequence]

/-- Tokens that are handed back in this order come again in theirs. -/
theorem alike_lookedAhead (count : Nat) (parser : Parser) :
    (parser.lookedAhead count).Alike parser ∧ (parser.lookedAhead count).log = parser.log := by
  induction count generalizing parser with
  | zero => exact ⟨.refl parser, rfl⟩
  | succ count ih =>
    obtain ⟨halike, hlog⟩ := ih parser.taken
    refine ⟨⟨?_, halike.maxDepth, halike.depth, halike.clock⟩, hlog⟩
    have hsequence : (parser.taken.lookedAhead count).sequence = parser.sequence.tail :=
      halike.sequence.trans parser.sequence_taken
    show [parser.sequence.head] ++ₛ (parser.taken.lookedAhead count).sequence = parser.sequence
    rw [hsequence]
    exact parser.sequence.eta

end Parser

/-! ## First steps of a routine -/

namespace Routine

variable {parser parser' : Parser}

theorem enter_bind (production : Production) (f : Unit → Routine α) (parser : Parser) :
    (enter production >>= f) parser = f () (parser.note (.entered production)) := rfl

theorem next_bind (f : Token → Routine α) (parser : Parser) :
    (next >>= f) parser = f parser.sequence.head parser.taken := by
  rw [parser.head_sequence]
  rfl

theorem peek_bind (f : Token → Routine α) (parser : Parser) :
    (peek >>= f) parser = f parser.sequence.head (parser.lookedAhead 1) := by
  rw [bind_apply, peek_eq, parser.lookedAhead_one]

theorem map_apply_congr {routine routine' : Routine α} (h : routine parser = routine' parser')
    (f : α → β) : (f <$> routine) parser = (f <$> routine') parser' := by
  rw [map_eq_pure_bind, map_eq_pure_bind, bind_apply, bind_apply, h]

theorem expect_bind {kind : Kind} (h : parser.sequence.head.kind = kind) (label : String)
    (f : Token → Routine α) :
    (expect kind label >>= f) parser = f parser.sequence.head parser.taken := by
  have hcheck : parser.sequence.head.expectKind kind label = .ok parser.sequence.head := by
    rw [Token.expectKind, if_pos (by simpa [Token.isKind] using h)]
  rw [expect, bind_assoc, next_bind, hcheck]
  rfl

theorem expect_bind_of_ne {kind : Kind} (h : parser.sequence.head.kind ≠ kind) (label : String)
    (f : Token → Routine α) :
    (expect kind label >>= f) parser =
      .error (.unexpectedKind label kind parser.sequence.head) parser.taken := by
  have hcheck : parser.sequence.head.expectKind kind label =
      .error (.unexpectedKind label kind parser.sequence.head) := by
    rw [Token.expectKind, if_neg (by simpa [Token.isKind] using h)]
  rw [expect, bind_assoc, next_bind, hcheck]
  rfl

/-! ## Levels -/

/-- Only what a routine does after the level was opened matters. -/
theorem deeper_congr {routine routine' : Routine α}
    (h : routine parser.opened = routine' parser.opened) :
    deeper routine parser = deeper routine' parser := by
  rw [deeper_eq, deeper_eq, thenLower, thenLower, h]

theorem map_refuse (f : α → β) (label : String) :
    f <$> (refuse label : Routine α) = refuse label := by
  funext parser
  rw [map_eq_pure_bind, bind_apply, refuse_eq, refuse_eq]

theorem map_deeper (f : α → β) (routine : Routine α) :
    f <$> deeper routine = deeper (f <$> routine) := by
  funext parser
  rw [map_eq_pure_bind, bind_apply]
  cases hexpired : parser.limits.isExpired parser.looks with
  | true => rw [deeper_eq_error hexpired, deeper_eq_error hexpired]
  | false =>
    rw [deeper_eq_thenLower hexpired, deeper_eq_thenLower hexpired, thenLower, thenLower,
      map_eq_pure_bind, bind_apply]
    cases routine parser.opened <;> rfl

theorem map_nested (f : α → β) (label : String) (routine : Routine α) :
    f <$> nested label routine = nested label (f <$> routine) := by
  funext parser
  cases hlevels : parser.levels with
  | zero =>
    rw [nested_of_levels_eq_zero hlevels, ← map_refuse f]
    exact map_apply_congr (nested_of_levels_eq_zero hlevels ..) f
  | succ levels =>
    rw [nested_of_levels_eq_succ hlevels, ← map_deeper]
    exact map_apply_congr (nested_of_levels_eq_succ hlevels ..) f

/-- Both parsers open a level, both are refused it, or the time is over for both. -/
theorem Agrees.nested {routine routine' : Routine α}
    (hinside : Agrees parser.opened parser'.opened (routine parser.opened)
      (routine' parser'.opened)) (h : parser.Alike parser') (label : String) :
    Agrees parser parser' (nested label routine parser) (nested label routine' parser') := by
  cases hlevels : parser.levels with
  | zero =>
    rw [nested_of_levels_eq_zero hlevels, nested_of_levels_eq_zero (h.levels ▸ hlevels)]
    exact .refuse h label
  | succ levels =>
    rw [nested_of_levels_eq_succ hlevels, nested_of_levels_eq_succ (h.levels ▸ hlevels)]
    exact .deeper h hinside

/-- A production does the same after a look ahead as without one. -/
theorem Agrees.of_lookedAhead (h : parser.Alike parser') {count : Nat} (f : Fragment → α)
    (production : Production) :
    Agrees parser parser' ((f <$> production.parse) (parser.lookedAhead count))
      ((f <$> production.parse) parser') := by
  obtain ⟨halike, hlog⟩ := parser.alike_lookedAhead count
  have hstart : (parser.lookedAhead count).Alike parser' := halike.trans h
  -- a production opens as many levels from the one parser as from the other
  have hlevels : production.parse parser' =
      production.parseAt (parser.lookedAhead count).levels parser' := by
    rw [hstart.levels]
    rfl
  have hparse : Agrees (parser.lookedAhead count) parser'
      (production.parse (parser.lookedAhead count)) (production.parse parser') := by
    rw [hlevels]
    exact (production.composed le_rfl).agrees hstart
  rw [map_eq_pure_bind]
  exact .after (show _ = [] ++ _ from hlog) rfl (hparse.bind fun _ _ _ h => .ok [] h rfl rfl)

end Routine

/-! ## What a choice comes to -/

/-- What a production makes of the fragment that the production it turned to gives. -/
def Fragment.wrapIn : Production → Fragment → Fragment
  | .member, .memberBody m => .member m
  | .statement, .statementBody s => .statement s
  | .statement, .newObject o => .statement (.new o)
  | .rhs, .newObject o => .rhs (.new o)
  | .rhs, .expression e => .rhs (.expression e)
  | .expression, .refChain callers => .expression (.chain callers.first callers.rest)
  | _, fragment => fragment

namespace Parser

/-- After the note that it is entered, a production does what `routine` does without that note: it
gives the same, wrapped, or the same error, logs the same, and leaves the parser at the same depth
with the same tokens to come. -/
def TurnsTo (parser : Parser) (production : Production) (routine : Routine Fragment) : Prop :=
  Agree (parser.note (.entered production)) parser (parser.run production.parse)
    (parser.run (Fragment.wrapIn production <$> routine))

/-- A production fails at the token that is `index` tokens away, and takes it last. -/
structure FailsAt (parser : Parser) (production : Production) (index : Nat)
    (error : Token → Error) : Prop where
  result : (parser.run production.parse).1 = .error (error (parser.sequence.get index))
  sequence : (parser.run production.parse).2.sequence = parser.sequence.drop (index + 1)
  depth : (parser.run production.parse).2.depth = parser.depth

section

variable {parser : Parser} {production chosen : Production} {make : α → Fragment}
  {inside routines : Nat → Routine α} {label : String} {count : Nat}

theorem TurnsTo.of_agrees {routine : Routine Fragment}
    (h : Agrees (parser.note (.entered production)) parser (production.parse parser)
      ((Fragment.wrapIn production <$> routine) parser)) :
    parser.TurnsTo production routine :=
  Agree.of_agrees h

theorem FailsAt.of_eq {index : Nat} {error : Token → Error} {after : Parser}
    (h : production.parse parser = .error (error (parser.sequence.get index)) after)
    (hsequence : after.sequence = parser.sequence.drop (index + 1))
    (hdepth : after.depth = parser.depth) :
    parser.FailsAt production index error := by
  have hrun : parser.run production.parse =
      (.error (error (parser.sequence.get index)), after) := by
    rw [run, h]
  exact ⟨by rw [hrun], by rw [hrun, hsequence], by rw [hrun, hdepth]⟩

/-- A routine goes on, after a look ahead, as the production that was chosen does. -/
theorem map_eq_wrapIn {start : Parser} {routine : Routine α}
    (hwrap : ∀ levels,
      Fragment.wrapIn production <$> chosen.parseAt levels = make <$> routines levels)
    (h : routine parser = routines start.levels (start.lookedAhead count)) :
    (make <$> routine) parser =
      (Fragment.wrapIn production <$> chosen.parse) (start.lookedAhead count) := by
  have hchosen : chosen.parse (start.lookedAhead count) =
      chosen.parseAt start.levels (start.lookedAhead count) := by
    rw [← (start.alike_lookedAhead count).1.levels]
    rfl
  calc (make <$> routine) parser
      = (make <$> routines start.levels) (start.lookedAhead count) := map_apply_congr h make
    _ = (Fragment.wrapIn production <$> chosen.parseAt start.levels)
          (start.lookedAhead count) := by rw [hwrap]
    _ = (Fragment.wrapIn production <$> chosen.parse) (start.lookedAhead count) :=
        map_apply_congr hchosen.symm _

/-- A production that enters, looks ahead, and goes on as another one. -/
theorem TurnsTo.of_direct (count : Nat) (routines : Nat → Routine α)
    (hgives : ∀ levels, production.parseAt levels = make <$> inside levels)
    (hwrap : ∀ levels,
      Fragment.wrapIn production <$> chosen.parseAt levels = make <$> routines levels)
    (h : inside parser.levels parser =
      routines parser.levels ((parser.note (.entered production)).lookedAhead count)) :
    parser.TurnsTo production chosen.parse := by
  have hparse : production.parse parser = (make <$> inside parser.levels) parser := by
    rw [← hgives]
    rfl
  refine .of_agrees ?_
  rw [hparse, map_eq_wrapIn hwrap (show _ = routines (parser.note _).levels _ from h)]
  exact .of_lookedAhead (parser.alike_note _) _ chosen

/-! ## Productions that open a level -/

/-- From `parser`, a production opens a level after the note that it is entered, and gives what
`inside` gives. -/
def Opens (parser : Parser) (production : Production) (make : α → Fragment)
    (inside : Nat → Routine α) : Prop :=
  production.parse parser = nested production.label
    (withLevels fun levels => make <$> inside levels) (parser.note (.entered production))

/-- A production opens a level if it refuses when there is none left. -/
theorem Opens.of_levels (hgives : ∀ levels, production.parseAt levels = make <$> routines levels)
    (hzero : routines 0 = enter production >>= fun _ => refuse production.label)
    (hsucc : ∀ levels,
      routines (levels + 1) = enter production >>= fun _ => deeper (inside levels))
    (parser : Parser) : parser.Opens production make inside := by
  have hparse : production.parse parser = (make <$> routines parser.levels) parser := by
    rw [← hgives]
    rfl
  have hentered : (parser.note (.entered production)).levels = parser.levels := rfl
  unfold Opens
  rw [hparse]
  cases hlevels : parser.levels with
  | zero =>
    rw [nested_of_levels_eq_zero (hentered.trans hlevels), hzero, map_bind, enter_bind, map_refuse]
  | succ levels =>
    rw [nested_of_levels_eq_succ (hentered.trans hlevels), hsucc, map_bind, enter_bind, map_deeper]
    refine deeper_congr ?_
    have hopened : (parser.note (.entered production)).opened.levels = levels := by
      show parser.limits.maxDepth - (parser.depth + 1) = levels
      rw [Nat.sub_add_eq, ← Parser.levels, hlevels, Nat.add_sub_cancel]
    rw [← hopened]
    rfl

theorem TurnsTo.of_opens {routine : Routine Fragment} (h : parser.Opens production make inside)
    (hinside : ∀ start : Parser, start.Alike parser.opened →
      Agrees start parser.opened ((make <$> inside start.levels) start)
        ((Fragment.wrapIn production <$> routine) parser.opened)) :
    parser.TurnsTo production (nested production.label routine) := by
  have hnote := parser.alike_note (.entered production)
  have hlevels : Agrees (parser.note (.entered production)).opened parser.opened
      (withLevels (fun levels => make <$> inside levels) (parser.note (.entered production)).opened)
      ((Fragment.wrapIn production <$> routine) parser.opened) := hinside _ hnote.opened
  refine .of_agrees ?_
  rw [h, map_nested]
  exact hlevels.nested hnote _

/-- A production that opens a level, looks ahead, and goes on as another one. -/
theorem TurnsTo.of_opens_lookedAhead (count : Nat) (routines : Nat → Routine α)
    (hopens : parser.Opens production make inside)
    (hwrap : ∀ levels,
      Fragment.wrapIn production <$> chosen.parseAt levels = make <$> routines levels)
    (h : ∀ start : Parser, start.sequence = parser.sequence →
      inside start.levels start = routines start.levels (start.lookedAhead count)) :
    parser.TurnsTo production (nested production.label chosen.parse) := by
  refine .of_opens hopens fun start halike => ?_
  rw [map_eq_wrapIn hwrap (h start halike.sequence)]
  exact .of_lookedAhead halike _ chosen

/-- A production that opens a level and fails at the next token. -/
theorem TurnsTo.of_opens_error {error : Token → Error}
    (hopens : parser.Opens production make inside)
    (h : ∀ start : Parser, start.sequence = parser.sequence →
      inside start.levels start = .error (error start.sequence.head) start.taken) :
    parser.TurnsTo production
      (nested production.label (next >>= fun token => throw (error token))) := by
  refine .of_opens hopens fun start halike => ?_
  rw [map_eq_pure_bind, bind_apply, h start halike.sequence, map_bind, next_bind,
    ← halike.sequence]
  exact .error [] halike.taken rfl rfl

end

end Parser

/-! ## Members -/

namespace Member

variable {parser : Parser}

/-- A member that starts with `static` and a name is a method if a parenthesis follows. -/
theorem parse_of_static (hstatic : parser.sequence.head.kind = .staticWord)
    (hname : (parser.sequence.get 1).kind = .name) (levels : Nat) :
    parse levels parser =
      (if (parser.sequence.get 2).isSingle "(" then parseStaticMethod levels
      else parseStaticField levels) ((parser.note (.entered .member)).lookedAhead 3) := by
  rw [parse, enter_bind, next_bind]
  simp only [Parser.sequence_note, hstatic]
  rw [expect_bind (by rw [Parser.head_taken, Parser.sequence_note, hname]), next_bind,
    ← (parser.sequence_note (.entered .member)), ← Parser.head_taken_taken]
  rfl

/-- A member that starts with a name is a method if a parenthesis follows. -/
theorem parse_of_name (hname : parser.sequence.head.kind = .name) (levels : Nat) :
    parse levels parser =
      (if (parser.sequence.get 1).isSingle "(" then parseInstanceMethod levels
      else parseInstanceField) ((parser.note (.entered .member)).lookedAhead 2) := by
  rw [parse, enter_bind, next_bind]
  simp only [Parser.sequence_note, hname]
  rw [next_bind, ← (parser.sequence_note (.entered .member)), ← Parser.head_taken]
  rfl

/-- A member that starts with a class name is a constructor. -/
theorem parse_of_className (hclass : parser.sequence.head.kind = .className) (levels : Nat) :
    parse levels parser =
      parseConstructor levels ((parser.note (.entered .member)).lookedAhead 1) := by
  rw [parse, enter_bind, next_bind]
  simp only [Parser.sequence_note, hclass]
  rfl

/-- After `static` a member needs a name. -/
theorem parse_of_unnamed (hstatic : parser.sequence.head.kind = .staticWord)
    (hname : (parser.sequence.get 1).kind ≠ .name) (levels : Nat) :
    parse levels parser = .error (.unexpectedKind "member" .name (parser.sequence.get 1))
      (parser.note (.entered .member)).taken.taken := by
  have hsecond : (parser.note (.entered .member)).taken.sequence.head = parser.sequence.get 1 :=
    Parser.head_taken _
  rw [← hsecond] at hname ⊢
  rw [parse, enter_bind, next_bind]
  simp only [Parser.sequence_note, hstatic]
  rw [expect_bind_of_ne hname]
  rfl

/-- No member starts with a token of another kind. -/
theorem parse_of_other (hkind : parser.sequence.head.kind ∉ [Kind.staticWord, .name, .className])
    (levels : Nat) :
    parse levels parser = .error (.unexpectedAlternative "member"
        "`static`, a name or a class name" parser.sequence.head)
      (parser.note (.entered .member)).taken := by
  simp only [List.mem_cons, List.not_mem_nil, or_false, not_or] at hkind
  obtain ⟨hstatic, hname, hclass⟩ := hkind
  rw [parse, enter_bind, next_bind]
  simp only [Parser.sequence_note]
  rfl

end Member

namespace Parser

/-- How a member is chosen, by its first three tokens. -/
structure ChoosesMember (parser : Parser) : Prop where
  staticMethod : (parser.sequence.get 0).kind = .staticWord →
    (parser.sequence.get 1).kind = .name → (parser.sequence.get 2).isSingle "(" = true →
    parser.TurnsTo .member Production.staticMethod.parse
  staticField : (parser.sequence.get 0).kind = .staticWord →
    (parser.sequence.get 1).kind = .name → (parser.sequence.get 2).isSingle "(" = false →
    parser.TurnsTo .member Production.staticField.parse
  instanceMethod : (parser.sequence.get 0).kind = .name →
    (parser.sequence.get 1).isSingle "(" = true →
    parser.TurnsTo .member Production.instanceMethod.parse
  instanceField : (parser.sequence.get 0).kind = .name →
    (parser.sequence.get 1).isSingle "(" = false →
    parser.TurnsTo .member Production.instanceField.parse
  constructor : (parser.sequence.get 0).kind = .className →
    parser.TurnsTo .member Production.constructor.parse
  unnamed : (parser.sequence.get 0).kind = .staticWord → (parser.sequence.get 1).kind ≠ .name →
    parser.FailsAt .member 1 (.unexpectedKind "member" .name)
  other : (parser.sequence.get 0).kind ∉ [Kind.staticWord, .name, .className] →
    parser.FailsAt .member 0 (.unexpectedAlternative "member" "`static`, a name or a class name")

section

variable {parser : Parser} {chosen : Production} {routines : Nat → Routine Member} {count : Nat}

theorem TurnsTo.of_member
    (hgives : ∀ levels, chosen.parseAt levels = .memberBody <$> routines levels)
    (h : Member.parse parser.levels parser =
      routines parser.levels ((parser.note (.entered .member)).lookedAhead count)) :
    parser.TurnsTo .member chosen.parse :=
  .of_direct count routines (fun _ => rfl) (fun _ => by rw [hgives, Functor.map_map]; rfl) h

theorem FailsAt.of_member {index : Nat} {error : Token → Error} {after : Parser}
    (h : Member.parse parser.levels parser = .error (error (parser.sequence.get index)) after)
    (hsequence : after.sequence = parser.sequence.drop (index + 1))
    (hdepth : after.depth = parser.depth) : parser.FailsAt .member index error := by
  refine .of_eq ?_ hsequence hdepth
  show (Fragment.member <$> Member.parse parser.levels) parser = _
  rw [map_eq_pure_bind, bind_apply, h]

end

theorem choosesMember (parser : Parser) : parser.ChoosesMember where
  staticMethod hstatic hname hcalls :=
    .of_member (fun _ => rfl) (by rw [Member.parse_of_static hstatic hname, if_pos hcalls])
  staticField hstatic hname hcalls :=
    .of_member (fun _ => rfl)
      (by rw [Member.parse_of_static hstatic hname, if_neg (by simp [hcalls])])
  instanceMethod hname hcalls :=
    .of_member (fun _ => rfl) (by rw [Member.parse_of_name hname, if_pos hcalls])
  instanceField hname hcalls :=
    .of_member (fun _ => rfl) (by rw [Member.parse_of_name hname, if_neg (by simp [hcalls])])
  constructor hclass := .of_member (fun _ => rfl) (Member.parse_of_className hclass _)
  unnamed hstatic hname := by
    refine .of_member (Member.parse_of_unnamed hstatic hname _) ?_ rfl
    rw [sequence_taken, sequence_taken]
    rfl
  other hkind := .of_member (Member.parse_of_other hkind _) (sequence_taken _) rfl

end Parser

/-! ## Statements -/

namespace Statement

/-- The routine for the statements that start with a token of a given kind, if there are any. -/
def startingWith? (expression : Routine Expression) (block : String → Routine (List Statement)) :
    Kind → Option (Routine Statement)
  | .whileWord => some (parseWhile expression block)
  | .ifWord => some (parseIf expression block)
  | .returnWord => some (parseReturn expression)
  | .newWord => some (Statement.new <$> NewObject.parse expression)
  | .name => some (parseAssignment expression)
  | _ => none

variable {parser : Parser} {expression : Routine Expression}
  {block : String → Routine (List Statement)} {routine : Routine Statement}

/-- The first token of a statement is handed back to the routine that it chooses. -/
theorem parseOpened_of_startingWith?
    (h : startingWith? expression block parser.sequence.head.kind = some routine) :
    parseOpened expression block parser = routine (parser.lookedAhead 1) := by
  rw [parseOpened, next_bind]
  revert h
  cases parser.sequence.head.kind with
  | whileWord | ifWord | returnWord | newWord | name => rintro ⟨⟩; rfl
  | _ => nofun

/-- No statement starts with a token of another kind. -/
theorem parseOpened_of_startingWith?_eq_none
    (h : startingWith? expression block parser.sequence.head.kind = none) :
    parseOpened expression block parser =
      .error (.unexpectedAlternative "statement" "`while`, `if`, `return`, `new` or a name"
        parser.sequence.head) parser.taken := by
  rw [parseOpened, next_bind]
  revert h
  cases parser.sequence.head.kind with
  | whileWord | ifWord | returnWord | newWord | name => nofun
  | _ => intro; rfl

theorem startingWith?_eq_none {kind : Kind}
    (h : kind ∉ [Kind.whileWord, .ifWord, .returnWord, .newWord, .name]) :
    startingWith? expression block kind = none := by
  cases kind with
  | whileWord | ifWord | returnWord | newWord | name => simp at h
  | _ => rfl

end Statement

namespace Parser

/-- How a statement is chosen, one level deeper, by its first token. -/
structure ChoosesStatement (parser : Parser) : Prop where
  whileStatement : (parser.sequence.get 0).kind = .whileWord →
    parser.TurnsTo .statement (nested "statement" Production.whileStatement.parse)
  ifStatement : (parser.sequence.get 0).kind = .ifWord →
    parser.TurnsTo .statement (nested "statement" Production.ifStatement.parse)
  returnStatement : (parser.sequence.get 0).kind = .returnWord →
    parser.TurnsTo .statement (nested "statement" Production.returnStatement.parse)
  newObject : (parser.sequence.get 0).kind = .newWord →
    parser.TurnsTo .statement (nested "statement" Production.newObject.parse)
  assignment : (parser.sequence.get 0).kind = .name →
    parser.TurnsTo .statement (nested "statement" Production.assignment.parse)
  other : (parser.sequence.get 0).kind ∉ [Kind.whileWord, .ifWord, .returnWord, .newWord, .name] →
    parser.TurnsTo .statement (nested "statement"
      (next >>= noAlternative .statement "`while`, `if`, `return`, `new` or a name"))

theorem opens_statement (parser : Parser) : parser.Opens .statement .statement
    fun levels => Statement.parseOpened (Expression.parse levels) (Statement.parseBlock levels) :=
  .of_levels (fun _ => rfl) (by rw [Statement.parse]) (fun _ => by rw [Statement.parse]) parser

theorem TurnsTo.of_statement {parser : Parser} {chosen : Production}
    {routines : Nat → Routine Statement} {kind : Kind} (hkind : parser.sequence.head.kind = kind)
    (hchosen : ∀ levels, Statement.startingWith? (Expression.parse levels)
      (Statement.parseBlock levels) kind = some (routines levels))
    (hwrap : ∀ levels,
      Fragment.wrapIn .statement <$> chosen.parseAt levels = .statement <$> routines levels) :
    parser.TurnsTo .statement (nested "statement" chosen.parse) := by
  refine of_opens_lookedAhead 1 routines parser.opens_statement hwrap fun start hstart => ?_
  exact Statement.parseOpened_of_startingWith? (by rw [hstart, hkind, hchosen])

theorem choosesStatement (parser : Parser) : parser.ChoosesStatement where
  whileStatement h := .of_statement h (fun _ => rfl) fun _ => Functor.map_map ..
  ifStatement h := .of_statement h (fun _ => rfl) fun _ => Functor.map_map ..
  returnStatement h := .of_statement h (fun _ => rfl) fun _ => Functor.map_map ..
  newObject h := .of_statement h (fun _ => rfl) fun _ =>
    by rw [Production.parseAt, Functor.map_map, Functor.map_map]; rfl
  assignment h := .of_statement h (fun _ => rfl) fun _ => Functor.map_map ..
  other h := .of_opens_error parser.opens_statement fun start hstart =>
    Statement.parseOpened_of_startingWith?_eq_none
      (Statement.startingWith?_eq_none (by rw [hstart]; exact h))

end Parser

/-! ## What is assigned -/

namespace Parser

/-- How what is assigned is chosen, by its first token. -/
structure ChoosesRhs (parser : Parser) : Prop where
  newObject : (parser.sequence.get 0).kind = .newWord →
    parser.TurnsTo .rhs Production.newObject.parse
  expression : (parser.sequence.get 0).kind ≠ .newWord →
    parser.TurnsTo .rhs Production.expression.parse

end Parser

theorem Rhs.parse_apply (expression : Routine Expression) (parser : Parser) :
    Rhs.parse expression parser =
      (if parser.sequence.head.isKind .newWord then Rhs.new <$> NewObject.parse expression
      else Rhs.expression <$> expression) ((parser.note (.entered .rhs)).lookedAhead 1) := by
  rw [Rhs.parse, enter_bind, peek_bind, Parser.sequence_note]
  rfl

theorem Parser.choosesRhs (parser : Parser) : parser.ChoosesRhs where
  newObject h := by
    have hnew : parser.sequence.head.isKind .newWord = true := beq_iff_eq.mpr h
    refine .of_direct 1 (fun levels => Rhs.new <$> NewObject.parse (Expression.parse levels))
      (fun _ => rfl) (fun _ => ?_) ((Rhs.parse_apply _ _).trans (by rw [if_pos hnew]))
    rw [Production.parseAt, Functor.map_map, Functor.map_map]
    rfl
  expression h := by
    have hnew : ¬ parser.sequence.head.isKind .newWord = true := fun hnew => h (beq_iff_eq.mp hnew)
    refine .of_direct 1 (fun levels => Rhs.expression <$> Expression.parse levels)
      (fun _ => rfl) (fun _ => ?_) ((Rhs.parse_apply _ _).trans (by rw [if_neg hnew]))
    rw [Production.parseAt, Functor.map_map, Functor.map_map]
    rfl

/-! ## Expressions -/

namespace Expression

variable {parser : Parser} {expression : Routine Expression}

/-- A chain as an expression. -/
def ofChain (callers : Series Caller) : Expression := .chain callers.first callers.rest

theorem parseChainAt_of_caller {token : Token} {kind : CallerKind} (h : token.kind = kind.kind) :
    parseChainAt expression token = pushBack token >>= fun _ =>
      ofChain <$> Caller.parseChain expression := by
  rw [parseChainAt, CallerKind.ofKind?_eq_some_iff.mpr h.symm]
  rfl

/-- A name or class name is handed back to the chain that it starts. -/
theorem parseOpened_of_name
    (h : parser.sequence.head.kind = .name ∨ parser.sequence.head.kind = .className) :
    parseOpened expression parser =
      (ofChain <$> Caller.parseChain expression) (parser.lookedAhead 1) := by
  rw [parseOpened, next_bind]
  rcases h with h | h
  · simp only [h, LiteralKind.ofKind?]
    rw [parseChainAt_of_caller (show _ = CallerKind.name.kind from h)]
    rfl
  · simp only [h, LiteralKind.ofKind?]
    rw [parseChainAt_of_caller (show _ = CallerKind.className.kind from h)]
    rfl

/-- So is `this`, with the point or parenthesis after it. -/
theorem parseOpened_of_this (h : parser.sequence.head.kind = .this)
    (hcontinues : continuesThis (parser.sequence.get 1) = true) :
    parseOpened expression parser =
      (ofChain <$> Caller.parseChain expression) (parser.lookedAhead 2) := by
  rw [parseOpened, next_bind]
  simp only [h, LiteralKind.ofKind?]
  rw [peek_bind, parser.head_taken, if_pos hcontinues,
    parseChainAt_of_caller (show _ = CallerKind.this.kind from h)]
  rfl

/-- A literal is one token, even where the token after it is looked at. -/
theorem exists_parseOpened_eq_literal (expression : Routine Expression) {kind : LiteralKind}
    (h : parser.sequence.head.kind = kind.kind)
    (hthis : kind = .this → continuesThis (parser.sequence.get 1) = false) :
    ∃ after, parseOpened expression parser =
        .ok (.literal kind parser.sequence.head.text) after ∧
      after.Alike parser.taken ∧ after.log = parser.log := by
  rw [parseOpened, next_bind]
  simp only [LiteralKind.ofKind?_eq_some_iff.mpr h.symm]
  cases kind with
  | this =>
    refine ⟨parser.taken.lookedAhead 1, ?_, parser.taken.alike_lookedAhead 1⟩
    refine (peek_bind _ _).trans ?_
    rw [parser.head_taken, if_neg (by simp [hthis rfl])]
    rfl
  | _ => exact ⟨parser.taken, rfl, .refl _, rfl⟩

/-- No expression starts with a token of another kind. -/
theorem parseOpened_of_other
    (hliteral : ∀ kind : LiteralKind, parser.sequence.head.kind ≠ kind.kind)
    (hcaller : parser.sequence.head.kind ∉ [Kind.name, .className]) :
    parseOpened expression parser =
      .error (.unexpectedAlternative "expression" "a literal, a name or a class name"
        parser.sequence.head) parser.taken := by
  have hnone : LiteralKind.ofKind? parser.sequence.head.kind = none :=
    Option.eq_none_iff_forall_ne_some.mpr fun kind hkind =>
      hliteral kind (LiteralKind.ofKind?_eq_some_iff.mp hkind).symm
  have hnoCaller : CallerKind.ofKind? parser.sequence.head.kind = none := by
    refine Option.eq_none_iff_forall_ne_some.mpr fun kind hkind => ?_
    have hkind := CallerKind.ofKind?_eq_some_iff.mp hkind
    cases kind with
    | this => exact hliteral .this hkind.symm
    | name | className => exact hcaller (by simp [← hkind, CallerKind.kind])
  rw [parseOpened, next_bind]
  simp only [hnone]
  rw [parseChainAt, hnoCaller]
  rfl

end Expression

namespace Parser

/-- How an expression is chosen, one level deeper, by its first two tokens. -/
structure ChoosesExpression (parser : Parser) : Prop where
  refChain : (parser.sequence.get 0).kind = .name ∨ (parser.sequence.get 0).kind = .className ∨
    (parser.sequence.get 0).kind = .this ∧
      ((parser.sequence.get 1).isSingle "." = true ∨ (parser.sequence.get 1).isSingle "(" = true) →
    parser.TurnsTo .expression (nested "expression" Production.refChain.parse)
  literal : ∀ kind : LiteralKind, (parser.sequence.get 0).kind = kind.kind →
    (kind = .this → (parser.sequence.get 1).isSingle "." = false ∧
      (parser.sequence.get 1).isSingle "(" = false) →
    parser.TurnsTo .expression (nested "expression" do
      pure (.expression (.literal kind (← next).text)))
  other : (∀ kind : LiteralKind, (parser.sequence.get 0).kind ≠ kind.kind) →
    (parser.sequence.get 0).kind ∉ [Kind.name, .className] →
    parser.TurnsTo .expression (nested "expression"
      (next >>= noAlternative .expression "a literal, a name or a class name"))

theorem opens_expression (parser : Parser) : parser.Opens .expression .expression
    fun levels => Expression.parseOpened (Expression.parse levels) :=
  .of_levels (fun _ => rfl) rfl (fun _ => rfl) parser

theorem TurnsTo.of_chain {parser : Parser} (count : Nat)
    (h : ∀ start : Parser, start.sequence = parser.sequence →
      Expression.parseOpened (Expression.parse start.levels) start =
        (Expression.ofChain <$> Caller.parseChain (Expression.parse start.levels))
          (start.lookedAhead count)) :
    parser.TurnsTo .expression (nested "expression" Production.refChain.parse) := by
  refine of_opens_lookedAhead count
    (fun levels => Expression.ofChain <$> Caller.parseChain (Expression.parse levels))
    parser.opens_expression (fun levels => ?_) h
  rw [Production.parseAt, Functor.map_map, Functor.map_map]
  rfl

theorem choosesExpression (parser : Parser) : parser.ChoosesExpression where
  refChain h := by
    rcases h with h | h | ⟨h, hcontinues⟩
    · exact .of_chain 1 fun start hstart =>
        Expression.parseOpened_of_name (.inl (by rw [hstart]; exact h))
    · exact .of_chain 1 fun start hstart =>
        Expression.parseOpened_of_name (.inr (by rw [hstart]; exact h))
    · exact .of_chain 2 fun start hstart =>
        Expression.parseOpened_of_this (by rw [hstart]; exact h)
          (by simpa [hstart, Expression.continuesThis] using hcontinues)
  literal kind h hthis := by
    refine .of_opens parser.opens_expression fun start halike => ?_
    have hstart : start.sequence = parser.sequence := halike.sequence
    obtain ⟨after, hparse, hafter, hlog⟩ :=
      Expression.exists_parseOpened_eq_literal (Expression.parse start.levels)
        (by rw [hstart]; exact h) fun hkind => by
          rw [hstart, Expression.continuesThis, (hthis hkind).1, (hthis hkind).2, Bool.or_self]
    rw [map_eq_pure_bind, bind_apply, hparse, map_bind, next_bind, ← halike.sequence]
    exact .ok [] (hafter.trans halike.taken) hlog rfl
  other hliteral hcaller := .of_opens_error parser.opens_expression fun start hstart =>
    Expression.parseOpened_of_other (fun kind => by rw [hstart]; exact hliteral kind)
      (by rw [hstart]; exact hcaller)

/-- From every parser, the four productions that choose turn to what the next tokens call for, and
find the parser for it as it was. -/
theorem dispatches (parser : Parser) : parser.ChoosesMember ∧ parser.ChoosesStatement ∧
    parser.ChoosesRhs ∧ parser.ChoosesExpression :=
  ⟨parser.choosesMember, parser.choosesStatement, parser.choosesRhs, parser.choosesExpression⟩

/-- A parser before the tokens `static x (`, the first two of which were handed back. -/
def beforeStaticMethod : Parser :=
  ((Parser.ofStream (.ofTokens [⟨.single "(", ⟨⟨8, "a"⟩, ⟨9, "a"⟩⟩⟩] "a") {}).handedBack
    ⟨⟨.name, "x"⟩, ⟨⟨7, "a"⟩, ⟨8, "a"⟩⟩⟩).handedBack ⟨⟨.staticWord, "static"⟩, ⟨⟨0, "a"⟩, ⟨6, "a"⟩⟩⟩

/-- The three tokens call for a static method, and the first error in it, at the end of the source,
is that of the member. -/
theorem dispatches_staticMethod :
    beforeStaticMethod.TurnsTo .member Production.staticMethod.parse ∧
      (beforeStaticMethod.run Production.member.parse).1 =
        .error (.unexpectedKind "params" .name (.endAt ⟨9, "a"⟩)) :=
  ⟨(dispatches beforeStaticMethod).1.staticMethod rfl rfl rfl, by decide⟩

end Parser

end FrappeSyntax
