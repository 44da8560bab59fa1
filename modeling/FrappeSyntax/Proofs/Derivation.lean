import FrappeSyntax.Proofs.Grammar

/-!
# Trees derive their words

The production that gives a tree derives the words of the tree.

* `derives_run`, `derives_separated`, `derives_block`: series derive the words of their items.
* `Expression.derives`, `Statement.derives`, `Member.derives`, `Program.derives`: what the trees
  derive.
-/

namespace FrappeSyntax

/-! ## Series -/

section

variable {words : α → List Word} {item series : Production}

/-- Items derive a run of them, where the production for the run is recursive in the usual way. -/
theorem derives_run (hmore : [.part item, .part series] ∈ series.rules)
    (hone : [.part item] ∈ series.rules) (first : α) (rest : List α)
    (h : ∀ a ∈ first :: rest, Derives [.part item] (words a)) :
    Derives [.part series] (wordsOfRun words (first :: rest)) := by
  induction rest generalizing first with
  | nil => exact .of_rule hone (by simpa [wordsOfRun] using h first)
  | cons next rest ih =>
    rw [List.forall_mem_cons] at h
    exact .of_rule hmore (.part_cons h.1 (ih next h.2))

/-- Items derive a series of them with separators. -/
theorem derives_separated {separator : String}
    (hmore : [.part item, .mark separator, .part series] ∈ series.rules)
    (hone : [.part item] ∈ series.rules) (first : α) (rest : List α)
    (h : ∀ a ∈ first :: rest, Derives [.part item] (words a)) :
    Derives [.part series] (wordsOfSeparated separator words (first :: rest)) := by
  induction rest generalizing first with
  | nil => exact .of_rule hone (by simpa [wordsOfSeparated, wordsOfMore] using h first)
  | cons next rest ih =>
    rw [List.forall_mem_cons] at h
    exact .of_rule hmore (.part_cons h.1 (.mark (ih next h.2)))

end

/-! ## Expressions -/

theorem derives_argsPart {args : List Expression}
    (h : ∀ e ∈ args, Derives [.part .expression] e.words) :
    Derives [.part .argsPart] (wordsInParens (wordsOfSeparated "," Expression.words args)) := by
  cases args with
  | nil => exact .of_rule (by decide) (.mark (.mark .nil))
  | cons first rest =>
    have hrule : [.mark "(", .part .args, .mark ")"] ∈ Production.argsPart.rules := by decide
    refine .of_rule hrule (.mark (.part_cons ?_ (.mark .nil)))
    exact derives_separated (by decide) (by decide) first rest h

mutual

theorem Expression.derives : ∀ e : Expression, Derives [.part .expression] e.words
  | .literal kind value => by
    have hrule : [Symbol.kind kind.kind] ∈ Production.expression.rules := by
      cases kind <;> decide
    exact .of_rule hrule (.kind rfl .nil)
  | .chain first rest => by
    have hchain : Derives [.part .refChain] (wordsOfSeparated "." Caller.words (first :: rest)) :=
      derives_separated (by decide) (by decide) first rest
        (List.forall_mem_cons.mpr ⟨first.derives, Caller.derives_of_mem rest⟩)
    rw [Expression.words, Caller.wordsMore_eq]
    exact .of_rule (by decide) hchain

theorem Caller.derives : ∀ c : Caller, Derives [.part .caller] c.words
  | .ref kind name => by
    have hrule : [Symbol.kind kind.kind] ∈ Production.caller.rules := by cases kind <;> decide
    exact .of_rule hrule (.kind rfl .nil)
  | .call kind name args => by
    have hrule : [Symbol.kind kind.kind, .part .argsPart] ∈ Production.caller.rules := by
      cases kind <;> decide
    rw [Caller.words, Expression.wordsOfArgs_eq]
    exact .of_rule hrule (.kind rfl (derives_argsPart (Expression.derives_of_mem args)))

theorem Caller.derives_of_mem : ∀ (cs : List Caller), ∀ c ∈ cs, Derives [.part .caller] c.words
  | [] => by simp
  | c :: cs => List.forall_mem_cons.mpr ⟨c.derives, Caller.derives_of_mem cs⟩

theorem Expression.derives_of_mem :
    ∀ (es : List Expression), ∀ e ∈ es, Derives [.part .expression] e.words
  | [] => by simp
  | e :: es => List.forall_mem_cons.mpr ⟨e.derives, Expression.derives_of_mem es⟩

end

theorem Caller.derives_chain (chain : Series Caller) :
    Derives [.part .refChain] (wordsOfSeparated "." Caller.words chain.toList) :=
  derives_separated (by decide) (by decide) _ _ fun c _ => c.derives

theorem Expression.derives_args (args : Series Expression) :
    Derives [.part .args] (wordsOfSeparated "," Expression.words args.toList) :=
  derives_separated (by decide) (by decide) _ _ fun e _ => e.derives

theorem Expression.derives_argsPart (args : List Expression) :
    Derives [.part .argsPart] (wordsInParens (wordsOfSeparated "," Expression.words args)) :=
  FrappeSyntax.derives_argsPart fun e _ => e.derives

theorem NewObject.derives (object : NewObject) : Derives [.part .newObject] object.words := by
  have hrule : [.kind .newWord, .kind .className, .part .argsPart] ∈ Production.newObject.rules := by
    decide
  exact .of_rule hrule (.kind rfl (.kind rfl (Expression.derives_argsPart object.args)))

theorem Rhs.derives (rhs : Rhs) : Derives [.part .rhs] rhs.words := by
  cases rhs with
  | expression value => exact .of_rule (by decide) value.derives
  | new object => exact .of_rule (by decide) object.derives

/-! ## Statements -/

/-- Statements derive the block of them, whichever production the block belongs to. -/
theorem derives_block {production : Production}
    (hnone : [.mark "\x7b", .mark "\x7d"] ∈ production.rules)
    (hsome : [.mark "\x7b", .part .statements, .mark "\x7d"] ∈ production.rules)
    {body : List Statement} (h : ∀ s ∈ body, Derives [.part .statement] s.words) :
    Derives [.part production] (Statement.wordsOfBlock body) := by
  cases body with
  | nil => exact .of_rule hnone (.mark (.mark .nil))
  | cons first rest =>
    refine .of_rule hsome (.mark (.part_cons ?_ (.mark .nil)))
    exact derives_run (by decide) (by decide) first rest h

/-- A keyword, a condition and a body derive the words of a loop or condition. -/
theorem derives_guarded {production : Production} {keyword : Kind}
    (hrule : [.kind keyword, .mark "(", .part .expression, .mark ")", .part .loopBody] ∈
      production.rules) (condition : Expression) {body : List Statement}
    (h : ∀ s ∈ body, Derives [.part .statement] s.words) :
    Derives [.part production] (.ofKind keyword :: (wordsInParens condition.words ++
      wordsInBraces (Statement.wordsOfAll body))) := by
  have hbody : Derives [.part .loopBody] (wordsInBraces (Statement.wordsOfAll body)) := by
    rw [Statement.wordsOfAll_eq]
    exact derives_block (by decide) (by decide) h
  refine .of_rule hrule (.kind rfl (.mark ?_))
  show Derives _ ((condition.words ++ [.single ")"]) ++ wordsInBraces _)
  rw [List.append_assoc]
  exact .part_cons condition.derives (.mark hbody)

theorem Statement.production_mem (s : Statement) :
    [.part s.production] ∈ Production.statement.rules := by
  cases s <;> simp [Statement.production, Production.rules]

mutual

/-- The production for the kind of a statement derives its words. -/
theorem Statement.derives_body : ∀ s : Statement, Derives [.part s.production] s.words
  | .while condition body => by
    have hrule : [.kind .whileWord, .mark "(", .part .expression, .mark ")", .part .loopBody] ∈
        Production.whileStatement.rules := by
      decide
    exact derives_guarded hrule condition (Statement.derives_of_mem body)
  | .if condition body => by
    have hrule : [.kind .ifWord, .mark "(", .part .expression, .mark ")", .part .loopBody] ∈
        Production.ifStatement.rules := by
      decide
    exact derives_guarded hrule condition (Statement.derives_of_mem body)
  | .return value => by
    have hrule : [.kind .returnWord, .part .expression] ∈ Production.returnStatement.rules := by
      decide
    exact .of_rule hrule (.kind rfl value.derives)
  | .assign name rhs => by
    have hrule : [.kind .name, .mark "=", .part .rhs] ∈ Production.assignment.rules := by decide
    exact .of_rule hrule (.kind rfl (.mark rhs.derives))
  | .new object => object.derives

theorem Statement.derives_of_mem :
    ∀ (ss : List Statement), ∀ s ∈ ss, Derives [.part .statement] s.words
  | [] => by simp
  | s :: ss =>
    List.forall_mem_cons.mpr ⟨.of_rule s.production_mem s.derives_body, Statement.derives_of_mem ss⟩

end

theorem Statement.derives (s : Statement) : Derives [.part .statement] s.words :=
  .of_rule s.production_mem s.derives_body

theorem Statement.derives_series (statements : Series Statement) :
    Derives [.part .statements] (wordsOfRun Statement.words statements.toList) :=
  derives_run (by decide) (by decide) _ _ fun s _ => s.derives

theorem Statement.derives_methodBody (body : List Statement) :
    Derives [.part .methodBody] (Statement.wordsOfBlock body) :=
  derives_block (by decide) (by decide) fun s _ => s.derives

theorem Statement.derives_loopBody (body : List Statement) :
    Derives [.part .loopBody] (Statement.wordsOfBlock body) :=
  derives_block (by decide) (by decide) fun s _ => s.derives

/-! ## Programs -/

theorem Method.derives_params (first : String) (rest : List String) :
    Derives [.part .params] (wordsOfSeparated "," Method.wordsOfParam (first :: rest)) := by
  have hone : [.kind .name] ∈ Production.params.rules := by decide
  have hmore : [.kind .name, .mark ",", .part .params] ∈ Production.params.rules := by decide
  induction rest generalizing first with
  | nil => exact .of_rule hone (.kind rfl .nil)
  | cons next rest ih => exact .of_rule hmore (.kind rfl (.mark (ih next)))

theorem Method.derives (method : Method) : Derives [.part .restOfMethod] method.words := by
  have hbody := Statement.derives_methodBody method.body
  obtain ⟨params, body⟩ := method
  cases params with
  | nil =>
    have hrule : [.mark "(", .mark ")", .part .methodBody] ∈ Production.restOfMethod.rules := by
      decide
    exact .of_rule hrule (.mark (.mark hbody))
  | cons first rest =>
    have hrule : [.mark "(", .part .params, .mark ")", .part .methodBody] ∈
        Production.restOfMethod.rules := by
      decide
    refine .of_rule hrule (.mark ?_)
    show Derives _ ((wordsOfSeparated "," wordsOfParam _ ++ [.single ")"]) ++ _)
    rw [List.append_assoc]
    exact .part_cons (Method.derives_params first rest) (.mark hbody)

/-- The production for the kind of a member derives its words. -/
theorem Member.derives_body (member : Member) : Derives [.part member.production] member.words := by
  match member with
  | .staticField name none =>
    have hrule : [.kind .staticWord, .kind .name] ∈ Production.staticField.rules := by decide
    exact .of_rule hrule (.kind rfl (.kind rfl .nil))
  | .staticField name (some initializer) =>
    have hrule : [.kind .staticWord, .kind .name, .mark "=", .part .expression] ∈
        Production.staticField.rules := by
      decide
    exact .of_rule hrule (.kind rfl (.kind rfl (.mark initializer.derives)))
  | .staticMethod name method =>
    have hrule : [.kind .staticWord, .kind .name, .part .restOfMethod] ∈
        Production.staticMethod.rules := by
      decide
    exact .of_rule hrule (.kind rfl (.kind rfl method.derives))
  | .instanceField name =>
    have hrule : [.kind .name] ∈ Production.instanceField.rules := by decide
    exact .of_rule hrule (.kind rfl .nil)
  | .instanceMethod name method =>
    have hrule : [.kind .name, .part .restOfMethod] ∈ Production.instanceMethod.rules := by decide
    exact .of_rule hrule (.kind rfl method.derives)
  | .constructor name method =>
    have hrule : [.kind .className, .part .restOfMethod] ∈ Production.constructor.rules := by decide
    exact .of_rule hrule (.kind rfl method.derives)

theorem Member.derives (member : Member) : Derives [.part .member] member.words := by
  have hrule : [.part member.production] ∈ Production.member.rules := by
    cases member <;> simp [Member.production, Production.rules]
  exact .of_rule hrule member.derives_body

theorem Member.derives_series (members : Series Member) :
    Derives [.part .members] (wordsOfRun Member.words members.toList) :=
  derives_run (by decide) (by decide) _ _ fun m _ => m.derives

theorem ClassDef.derives (classDef : ClassDef) : Derives [.part .classBody] classDef.words := by
  have hrule : [.kind .classWord, .kind .className, .mark "\x7b", .part .members, .mark "\x7d"] ∈
      Production.classBody.rules := by
    decide
  exact .of_rule hrule
    (.kind rfl (.kind rfl (.mark (.part_cons (Member.derives_series _) (.mark .nil)))))

theorem ClassDef.derives_series (classes : Series ClassDef) :
    Derives [.part .classes] (wordsOfRun ClassDef.words classes.toList) :=
  derives_run (by decide) (by decide) _ _ fun c _ => c.derives

theorem Program.derives (program : Program) : Derives [.part .program] program.words := by
  have hrule : [.part .classes, .kind .eof] ∈ Production.program.rules := by decide
  exact .of_rule hrule (.part_cons (ClassDef.derives_series program.classes) (.kind rfl .nil))

end FrappeSyntax
