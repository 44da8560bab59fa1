import FrappeSyntax.Proofs.Grammar
import Mathlib.Data.List.Basic

/-!
# What is derived are words of trees

Whatever a production derives are the words of a tree that it gives: each symbol of a rule stands for
a word or for a part of the tree.

* `Production.Spells`: words are those of a tree that a production gives.
* `Matches`: words are made of what the symbols of a rule stand for.
* `Derives.spells`: what a production derives are the words of a tree.
-/

namespace FrappeSyntax

/-! ## Words of trees, and words of rules -/

/-- Words are those of a tree that a production gives. -/
def Production.Spells (production : Production) (words : List Word) : Prop :=
  match production with
  | .program => ∃ p : Program, p.words = words
  | .classes => ∃ cs : Series ClassDef, wordsOfRun ClassDef.words cs.toList = words
  | .classBody => ∃ c : ClassDef, c.words = words
  | .members => ∃ ms : Series Member, wordsOfRun Member.words ms.toList = words
  | .member => ∃ m : Member, m.words = words
  | .staticField | .staticMethod | .instanceField | .instanceMethod | .constructor =>
    ∃ m : Member, m.production = production ∧ m.words = words
  | .restOfMethod => ∃ m : Method, m.words = words
  | .params => ∃ ps : Series String, wordsOfSeparated "," Method.wordsOfParam ps.toList = words
  | .methodBody | .loopBody => ∃ body : List Statement, Statement.wordsOfBlock body = words
  | .statements => ∃ ss : Series Statement, wordsOfRun Statement.words ss.toList = words
  | .statement => ∃ s : Statement, s.words = words
  | .whileStatement | .ifStatement | .returnStatement | .assignment =>
    ∃ s : Statement, s.production = production ∧ s.words = words
  | .rhs => ∃ r : Rhs, r.words = words
  | .newObject => ∃ o : NewObject, o.words = words
  | .expression => ∃ e : Expression, e.words = words
  | .refChain => ∃ cs : Series Caller, wordsOfSeparated "." Caller.words cs.toList = words
  | .caller => ∃ c : Caller, c.words = words
  | .argsPart =>
    ∃ es : List Expression, wordsInParens (wordsOfSeparated "," Expression.words es) = words
  | .args => ∃ es : Series Expression, wordsOfSeparated "," Expression.words es.toList = words

/-- Words are made of what the symbols of a rule stand for. -/
def Matches : List Symbol → List Word → Prop
  | [], words => words = []
  | .kind kind :: rest, words =>
    ∃ text back, words = Word.normal ⟨kind, text⟩ :: back ∧ Matches rest back
  | .mark text :: rest, words => ∃ back, words = .single text :: back ∧ Matches rest back
  | .part production :: rest, words =>
    ∃ front back, words = front ++ back ∧ production.Spells front ∧ Matches rest back

theorem Production.mem_rules_expression {rule : List Symbol} :
    rule ∈ Production.expression.rules ↔
      (∃ kind : LiteralKind, rule = [.kind kind.kind]) ∨ rule = [.part .refChain] := by
  simp only [Production.rules, List.mem_cons, List.not_mem_nil, or_false]
  constructor
  · rintro (rfl | rfl | rfl | rfl | rfl | rfl | rfl)
    · exact .inl ⟨.string, rfl⟩
    · exact .inl ⟨.number, rfl⟩
    · exact .inl ⟨.null, rfl⟩
    · exact .inl ⟨.this, rfl⟩
    · exact .inl ⟨.true, rfl⟩
    · exact .inl ⟨.false, rfl⟩
    · exact .inr rfl
  · rintro (⟨kind, rfl⟩ | rfl)
    · cases kind <;> simp [LiteralKind.kind]
    · simp

theorem Production.mem_rules_caller {rule : List Symbol} :
    rule ∈ Production.caller.rules ↔
      ∃ kind : CallerKind, rule = [.kind kind.kind] ∨ rule = [.kind kind.kind, .part .argsPart] := by
  simp only [Production.rules, List.mem_cons, List.not_mem_nil, or_false]
  constructor
  · rintro (rfl | rfl | rfl | rfl | rfl | rfl)
    · exact ⟨.name, .inl rfl⟩
    · exact ⟨.className, .inl rfl⟩
    · exact ⟨.this, .inl rfl⟩
    · exact ⟨.name, .inr rfl⟩
    · exact ⟨.className, .inr rfl⟩
    · exact ⟨.this, .inr rfl⟩
  · rintro ⟨kind, rfl | rfl⟩ <;> cases kind <;> simp [CallerKind.kind]

section

variable {production : Production} {rule : List Symbol} {words : List Word}

/-! ## Series -/

/-- A production that stands for itself after an item, or for an item alone, gives series of
items. -/
theorem spells_run {item series : Production} {wordsOf : α → List Word}
    (hrule : rule ∈ [[.part item, .part series], [.part item]])
    (hitem : ∀ {ws}, item.Spells ws → ∃ a, wordsOf a = ws)
    (hseries : ∀ {ws}, series.Spells ws → ∃ s : Series α, wordsOfRun wordsOf s.toList = ws)
    (h : Matches rule words) : ∃ s : Series α, wordsOfRun wordsOf s.toList = words := by
  obtain rfl | rfl := List.mem_pair.mp hrule
  · obtain ⟨_, _, rfl, hfirst, _, _, rfl, hrest, rfl⟩ := h
    obtain ⟨first, rfl⟩ := hitem hfirst
    obtain ⟨rest, rfl⟩ := hseries hrest
    refine ⟨⟨first, rest.toList⟩, ?_⟩
    rw [List.append_nil]
    rfl
  · obtain ⟨_, _, rfl, hfirst, rfl⟩ := h
    obtain ⟨first, rfl⟩ := hitem hfirst
    exact ⟨⟨first, []⟩, rfl⟩

/-- The same with a separator after the item. -/
theorem spells_separated {item series : Production} {separator : String} {wordsOf : α → List Word}
    (hrule : rule ∈ [[.part item, .mark separator, .part series], [.part item]])
    (hitem : ∀ {ws}, item.Spells ws → ∃ a, wordsOf a = ws)
    (hseries : ∀ {ws}, series.Spells ws →
      ∃ s : Series α, wordsOfSeparated separator wordsOf s.toList = ws)
    (h : Matches rule words) :
    ∃ s : Series α, wordsOfSeparated separator wordsOf s.toList = words := by
  obtain rfl | rfl := List.mem_pair.mp hrule
  · obtain ⟨_, _, rfl, hfirst, _, rfl, _, _, rfl, hrest, rfl⟩ := h
    obtain ⟨first, rfl⟩ := hitem hfirst
    obtain ⟨rest, rfl⟩ := hseries hrest
    refine ⟨⟨first, rest.toList⟩, ?_⟩
    rw [List.append_nil]
    rfl
  · obtain ⟨_, _, rfl, hfirst, rfl⟩ := h
    obtain ⟨first, rfl⟩ := hitem hfirst
    exact ⟨⟨first, []⟩, rfl⟩

/-- The items of a series, or none, stand between two words of punctuation. -/
theorem spells_between {series : Production} {opening closing : String}
    {wordsOf : List α → List Word} (hnil : wordsOf [] = [])
    (hrule : rule ∈ [[.mark opening, .mark closing],
      [.mark opening, .part series, .mark closing]])
    (hseries : ∀ {ws}, series.Spells ws → ∃ s : Series α, wordsOf s.toList = ws)
    (h : Matches rule words) :
    ∃ items, .single opening :: (wordsOf items ++ [.single closing]) = words := by
  obtain rfl | rfl := List.mem_pair.mp hrule
  · obtain ⟨_, rfl, _, rfl, rfl⟩ := h
    exact ⟨[], by rw [hnil]; rfl⟩
  · obtain ⟨_, rfl, _, _, rfl, hitems, _, rfl, rfl⟩ := h
    obtain ⟨items, rfl⟩ := hseries hitems
    exact ⟨items.toList, rfl⟩

/-! ## Expressions -/

theorem spells_expression (hrule : rule ∈ Production.expression.rules) (h : Matches rule words) :
    Production.expression.Spells words := by
  obtain ⟨kind, rfl⟩ | rfl := Production.mem_rules_expression.mp hrule
  · obtain ⟨text, _, rfl, rfl⟩ := h
    refine ⟨.literal kind text, ?_⟩
    rw [(Word.normal_eq_mk kind.isBare_kind).mpr rfl, Expression.words]
  · obtain ⟨_, _, rfl, ⟨cs, rfl⟩, rfl⟩ := h
    refine ⟨.chain cs.first cs.rest, ?_⟩
    rw [Expression.words, Caller.wordsMore_eq, List.append_nil]
    rfl

theorem spells_caller (hrule : rule ∈ Production.caller.rules) (h : Matches rule words) :
    Production.caller.Spells words := by
  obtain ⟨kind, rfl | rfl⟩ := Production.mem_rules_caller.mp hrule
  · obtain ⟨text, _, rfl, rfl⟩ := h
    refine ⟨.ref kind text, ?_⟩
    rw [(Word.normal_eq_mk kind.isBare_kind).mpr rfl, Caller.words]
  · obtain ⟨text, _, rfl, _, _, rfl, ⟨es, rfl⟩, rfl⟩ := h
    refine ⟨.call kind text es, ?_⟩
    rw [(Word.normal_eq_mk kind.isBare_kind).mpr rfl, Caller.words, Expression.wordsOfArgs_eq,
      List.append_nil]

/-- What the rules for expressions and their parts stand for are such trees. -/
theorem spells_of_expressions (hgroup : production.group = .expressions)
    (hrule : rule ∈ production.rules) (h : Matches rule words) : production.Spells words := by
  cases production with
  | expression => exact spells_expression hrule h
  | caller => exact spells_caller hrule h
  | newObject =>
    obtain rfl := List.mem_singleton.mp hrule
    obtain ⟨_, _, rfl, name, _, rfl, _, _, rfl, ⟨es, rfl⟩, rfl⟩ := h
    refine ⟨⟨name, es⟩, ?_⟩
    rw [List.append_nil]
    rfl
  | refChain => exact spells_separated hrule id id h
  | argsPart => exact spells_between rfl hrule id h
  | args => exact spells_separated hrule id id h
  | _ => cases hgroup

/-! ## Statements -/

/-- A keyword, a condition and a body are the words of a statement that is made of them. -/
theorem spells_guarded {keyword : Kind} (make : Expression → List Statement → Statement)
    (hrule : rule ∈ [[.kind keyword, .mark "(", .part .expression, .mark ")", .part .loopBody]])
    (hkeyword : keyword.isBare = true)
    (hmake : ∀ e body, (make e body).production = production)
    (hwords : ∀ e body, (make e body).words =
      .ofKind keyword :: (wordsInParens e.words ++ Statement.wordsOfBlock body))
    (h : Matches rule words) : ∃ s : Statement, s.production = production ∧ s.words = words := by
  obtain rfl := List.mem_singleton.mp hrule
  obtain ⟨text, _, rfl, _, rfl, _, _, rfl, ⟨e, rfl⟩, _, rfl, _, _, rfl, ⟨body, rfl⟩, rfl⟩ := h
  refine ⟨make e body, hmake e body, ?_⟩
  have hfirst : (Word.mk keyword text).normal = .ofKind keyword :=
    (Word.normal_eq_ofKind hkeyword).mpr rfl
  simp [hwords, hfirst, wordsInParens]

/-- What the rules for statements and their parts stand for are such trees. -/
theorem spells_of_statements (hgroup : production.group = .statements)
    (hrule : rule ∈ production.rules) (h : Matches rule words) : production.Spells words := by
  cases production with
  | statements => exact spells_run hrule id id h
  | statement =>
    simp only [Production.rules, List.mem_cons, List.not_mem_nil, or_false] at hrule
    obtain rfl | rfl | rfl | rfl | rfl := hrule
    · obtain ⟨_, _, rfl, ⟨s, -, rfl⟩, rfl⟩ := h
      exact ⟨s, (List.append_nil _).symm⟩
    · obtain ⟨_, _, rfl, ⟨s, -, rfl⟩, rfl⟩ := h
      exact ⟨s, (List.append_nil _).symm⟩
    · obtain ⟨_, _, rfl, ⟨s, -, rfl⟩, rfl⟩ := h
      exact ⟨s, (List.append_nil _).symm⟩
    · obtain ⟨_, _, rfl, ⟨s, -, rfl⟩, rfl⟩ := h
      exact ⟨s, (List.append_nil _).symm⟩
    · obtain ⟨_, _, rfl, ⟨o, rfl⟩, rfl⟩ := h
      exact ⟨.new o, (List.append_nil _).symm⟩
  | whileStatement =>
    refine spells_guarded .while hrule rfl (fun _ _ => rfl) (fun e body => ?_) h
    rw [Statement.words, Statement.wordsOfAll_eq]
    rfl
  | ifStatement =>
    refine spells_guarded .if hrule rfl (fun _ _ => rfl) (fun e body => ?_) h
    rw [Statement.words, Statement.wordsOfAll_eq]
    rfl
  | returnStatement =>
    obtain rfl := List.mem_singleton.mp hrule
    obtain ⟨_, _, rfl, _, _, rfl, ⟨e, rfl⟩, rfl⟩ := h
    refine ⟨.return e, rfl, ?_⟩
    rw [List.append_nil]
    rfl
  | assignment =>
    obtain rfl := List.mem_singleton.mp hrule
    obtain ⟨name, _, rfl, _, rfl, _, _, rfl, ⟨r, rfl⟩, rfl⟩ := h
    refine ⟨.assign name r, rfl, ?_⟩
    rw [List.append_nil]
    rfl
  | loopBody => exact spells_between rfl hrule id h
  | rhs =>
    obtain rfl | rfl := List.mem_pair.mp hrule
    · obtain ⟨_, _, rfl, ⟨e, rfl⟩, rfl⟩ := h
      exact ⟨.expression e, (List.append_nil _).symm⟩
    · obtain ⟨_, _, rfl, ⟨o, rfl⟩, rfl⟩ := h
      exact ⟨.new o, (List.append_nil _).symm⟩
  | _ => cases hgroup

/-! ## Programs -/

/-- A name and a method are the words of a member that is made of them. -/
theorem spells_namedMethod {kind : Kind} (make : String → Method → Member)
    (hrule : rule ∈ [[.kind kind, .part .restOfMethod]])
    (hmake : ∀ name method, (make name method).production = production)
    (hwords : ∀ name method, (make name method).words =
      (Word.mk kind name).normal :: method.words)
    (h : Matches rule words) : ∃ m : Member, m.production = production ∧ m.words = words := by
  obtain rfl := List.mem_singleton.mp hrule
  obtain ⟨name, _, rfl, _, _, rfl, ⟨method, rfl⟩, rfl⟩ := h
  refine ⟨make name method, hmake name method, ?_⟩
  rw [hwords, List.append_nil]

/-- What the rules for classes and their parts stand for are such trees. -/
theorem spells_of_classes (hgroup : production.group = .classes)
    (hrule : rule ∈ production.rules) (h : Matches rule words) : production.Spells words := by
  cases production with
  | program =>
    obtain rfl := List.mem_singleton.mp hrule
    obtain ⟨_, _, rfl, ⟨cs, rfl⟩, _, _, rfl, rfl⟩ := h
    exact ⟨⟨cs⟩, rfl⟩
  | classes => exact spells_run hrule id id h
  | classBody =>
    obtain rfl := List.mem_singleton.mp hrule
    obtain ⟨_, _, rfl, name, _, rfl, _, rfl, _, _, rfl, ⟨ms, rfl⟩, _, rfl, rfl⟩ := h
    exact ⟨⟨name, ms⟩, rfl⟩
  | members => exact spells_run hrule id id h
  | member =>
    simp only [Production.rules, List.mem_cons, List.not_mem_nil, or_false] at hrule
    obtain rfl | rfl | rfl | rfl | rfl := hrule <;>
    · obtain ⟨_, _, rfl, ⟨m, -, rfl⟩, rfl⟩ := h
      exact ⟨m, (List.append_nil _).symm⟩
  | staticField =>
    obtain rfl | rfl := List.mem_pair.mp hrule
    · obtain ⟨_, _, rfl, name, _, rfl, rfl⟩ := h
      exact ⟨.staticField name none, rfl, rfl⟩
    · obtain ⟨_, _, rfl, name, _, rfl, _, rfl, _, _, rfl, ⟨e, rfl⟩, rfl⟩ := h
      refine ⟨.staticField name (some e), rfl, ?_⟩
      rw [List.append_nil]
      rfl
  | staticMethod =>
    obtain rfl := List.mem_singleton.mp hrule
    obtain ⟨_, _, rfl, name, _, rfl, _, _, rfl, ⟨m, rfl⟩, rfl⟩ := h
    refine ⟨.staticMethod name m, rfl, ?_⟩
    rw [List.append_nil]
    rfl
  | instanceField =>
    obtain rfl := List.mem_singleton.mp hrule
    obtain ⟨name, _, rfl, rfl⟩ := h
    exact ⟨.instanceField name, rfl, rfl⟩
  | instanceMethod =>
    exact spells_namedMethod .instanceMethod hrule (fun _ _ => rfl) (fun _ _ => rfl) h
  | constructor =>
    exact spells_namedMethod .constructor hrule (fun _ _ => rfl) (fun _ _ => rfl) h
  | restOfMethod =>
    obtain rfl | rfl := List.mem_pair.mp hrule
    · obtain ⟨_, rfl, _, rfl, _, _, rfl, ⟨body, rfl⟩, rfl⟩ := h
      refine ⟨⟨[], body⟩, ?_⟩
      rw [List.append_nil]
      rfl
    · obtain ⟨_, rfl, _, _, rfl, ⟨ps, rfl⟩, _, rfl, _, _, rfl, ⟨body, rfl⟩, rfl⟩ := h
      refine ⟨⟨ps.toList, body⟩, ?_⟩
      simp [Method.words, wordsInParens]
  | params =>
    obtain rfl | rfl := List.mem_pair.mp hrule
    · obtain ⟨name, _, rfl, _, rfl, _, _, rfl, ⟨ps, rfl⟩, rfl⟩ := h
      refine ⟨⟨name, ps.toList⟩, ?_⟩
      rw [List.append_nil]
      rfl
    · obtain ⟨name, _, rfl, rfl⟩ := h
      exact ⟨⟨name, []⟩, rfl⟩
  | methodBody => exact spells_between rfl hrule id h
  | _ => cases hgroup

theorem spells_of_matches (hrule : rule ∈ production.rules) (h : Matches rule words) :
    production.Spells words := by
  cases hgroup : production.group with
  | classes => exact spells_of_classes hgroup hrule h
  | statements => exact spells_of_statements hgroup hrule h
  | expressions => exact spells_of_expressions hgroup hrule h

end

theorem Derives.matches {symbols : List Symbol} {words : List Word} (h : Derives symbols words) :
    Matches symbols (words.map Word.normal) := by
  induction h with
  | nil => rfl
  | @kind kind word rest words hkind _ ih =>
    refine ⟨word.text, words.map Word.normal, ?_, ih⟩
    rw [List.map_cons, ← hkind]
  | mark _ ih => exact ⟨_, by rw [List.map_cons, Word.normal_eq_single.mpr rfl], ih⟩
  | part hrule _ _ ihfront ihback =>
    exact ⟨_, _, List.map_append, spells_of_matches hrule ihfront, ihback⟩

/-- What a production derives are the words of a tree that it gives. -/
theorem Derives.spells {production : Production} {words : List Word}
    (h : Derives [.part production] words) : production.Spells (words.map Word.normal) := by
  obtain ⟨_, _, hwords, hspells, rfl⟩ := h.matches
  rwa [hwords, List.append_nil]

end FrappeSyntax
