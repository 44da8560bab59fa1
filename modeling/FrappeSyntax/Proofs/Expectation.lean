import FrappeSyntax.Proofs.Derivation
import FrappeSyntax.Proofs.Reading

/-!
# What a syntax error expects

A syntax error tells what word should have stood where another one was found. This is a promise: the
tokens before that place, with such a word after them, go on to something that the grammar derives.

* `Production.starts`: the words that the alternatives of a production start with.
* `Cause.Expects`: the words that an error expects.
* `exists_derives`: all symbols derive some words, so what was begun can be finished.
* `Cause.Suggests`: what an error expects goes on to what symbols derive.
* `Cause.Stands`: the places where the routines may find another word than the one they expect.
-/

namespace FrappeSyntax

/-! ## Words that are expected -/

/-- The kinds of words that the alternatives of a production start with, for the productions where
the first word tells the alternative. -/
def Production.starts : Production → List Kind
  | member => [.staticWord, .name, .className]
  | statement => [.whileWord, .ifWord, .returnWord, .newWord, .name]
  | expression => [.string, .number, .null, .true, .false, .this, .name, .className]
  | caller => [.name, .className, .this]
  | _ => []

/-- The words that an error expects, in the place of the one it is about. -/
def Cause.Expects : Cause → Word → Prop
  | unexpectedKind _ expected _, word => word.kind = expected
  | unexpectedText _ expected _, word => word = expected
  | unexpectedAlternative label _ _, word =>
    ∃ production, Production.ofLabel? label = some production ∧ word.kind ∈ production.starts
  | _, _ => False

/-! ## Everything can be finished -/

/-- Every production derives some words: those of a small tree. -/
theorem Production.exists_derives (production : Production) :
    ∃ words, Derives [.part production] words := by
  let value : Expression := .literal .null ""
  let method : Method := ⟨[], []⟩
  let field : Member := .instanceField ""
  let classDef : ClassDef := ⟨"", ⟨field, []⟩⟩
  cases production with
  | program => exact ⟨_, Program.derives ⟨⟨classDef, []⟩⟩⟩
  | classes => exact ⟨_, ClassDef.derives_series ⟨classDef, []⟩⟩
  | classBody => exact ⟨_, classDef.derives⟩
  | members => exact ⟨_, Member.derives_series ⟨field, []⟩⟩
  | member => exact ⟨_, field.derives⟩
  | staticField => exact ⟨_, Member.derives_body (.staticField "" none)⟩
  | staticMethod => exact ⟨_, Member.derives_body (.staticMethod "" method)⟩
  | instanceField => exact ⟨_, field.derives_body⟩
  | instanceMethod => exact ⟨_, Member.derives_body (.instanceMethod "" method)⟩
  | constructor => exact ⟨_, Member.derives_body (.constructor "" method)⟩
  | restOfMethod => exact ⟨_, method.derives⟩
  | params => exact ⟨_, Method.derives_params "" []⟩
  | methodBody => exact ⟨_, Statement.derives_methodBody []⟩
  | statements => exact ⟨_, Statement.derives_series ⟨.return value, []⟩⟩
  | statement => exact ⟨_, Statement.derives (.return value)⟩
  | whileStatement => exact ⟨_, Statement.derives_body (.while value [])⟩
  | ifStatement => exact ⟨_, Statement.derives_body (.if value [])⟩
  | loopBody => exact ⟨_, Statement.derives_loopBody []⟩
  | returnStatement => exact ⟨_, Statement.derives_body (.return value)⟩
  | assignment => exact ⟨_, Statement.derives_body (.assign "" (.expression value))⟩
  | rhs => exact ⟨_, Rhs.derives (.expression value)⟩
  | newObject => exact ⟨_, NewObject.derives ⟨"", []⟩⟩
  | expression => exact ⟨_, value.derives⟩
  | refChain => exact ⟨_, Caller.derives_chain ⟨.ref .this "", []⟩⟩
  | caller => exact ⟨_, Caller.derives (.ref .this "")⟩
  | argsPart => exact ⟨_, Expression.derives_argsPart []⟩
  | args => exact ⟨_, Expression.derives_args ⟨value, []⟩⟩

/-- All symbols derive some words. -/
theorem exists_derives (symbols : List Symbol) : ∃ words, Derives symbols words := by
  induction symbols with
  | nil => exact ⟨[], .nil⟩
  | cons symbol symbols ih =>
    obtain ⟨words, h⟩ := ih
    cases symbol with
    | kind kind => exact ⟨⟨kind, ""⟩ :: words, .kind rfl h⟩
    | mark text => exact ⟨_, .mark h⟩
    | part production =>
      obtain ⟨front, hfront⟩ := production.exists_derives
      exact ⟨_, .part_cons hfront h⟩

/-- A production has a rule that begins with a kind of words, or one that begins with a production
of which this holds. -/
inductive Production.Begins (kind : Kind) : Production → Prop
  | kind {production : Production} :
    (∃ rule ∈ production.rules, rule.head? = some (.kind kind)) → Begins kind production
  | part {production : Production} (inner : Production) :
    (∃ rule ∈ production.rules, rule.head? = some (.part inner)) → Begins kind inner →
    Begins kind production

theorem Production.Begins.exists_derives {production : Production} {word : Word}
    (h : production.Begins word.kind) : ∃ more, Derives [.part production] (word :: more) := by
  induction h with
  | kind hrule =>
    obtain ⟨rule, hrule, hhead⟩ := hrule
    obtain ⟨rest, rfl⟩ := List.head?_eq_some_iff.mp hhead
    obtain ⟨more, hmore⟩ := FrappeSyntax.exists_derives rest
    exact ⟨more, .of_rule hrule (.kind rfl hmore)⟩
  | part inner hrule _ ih =>
    obtain ⟨rule, hrule, hhead⟩ := hrule
    obtain ⟨rest, rfl⟩ := List.head?_eq_some_iff.mp hhead
    obtain ⟨front, hfront⟩ := ih
    obtain ⟨more, hmore⟩ := FrappeSyntax.exists_derives rest
    exact ⟨front ++ more, .of_rule hrule (.part_cons hfront hmore)⟩

/-- A production can begin with each kind of words that its alternatives start with. -/
theorem Production.begins_of_mem_starts (production : Production) :
    ∀ kind ∈ production.starts, production.Begins kind := by
  -- a word that a rule begins with, and one that the rules of an alternative begin with
  have hinner : ∀ (inner : Production) {production : Production} {kind : Kind},
      (∃ rule ∈ production.rules, rule.head? = some (.part inner)) →
      (∃ rule ∈ inner.rules, rule.head? = some (.kind kind)) → production.Begins kind :=
    fun inner _ _ hpart hkind => .part inner hpart (.kind hkind)
  have hchain : ∀ {kind : Kind}, (∃ rule ∈ caller.rules, rule.head? = some (.kind kind)) →
      expression.Begins kind :=
    fun hkind => .part refChain (by decide) (hinner caller (by decide) hkind)
  cases production with
  | member =>
    simp only [starts, List.forall_mem_cons]
    exact ⟨hinner staticField (by decide) (by decide), hinner instanceField (by decide) (by decide),
      hinner constructor (by decide) (by decide), List.forall_mem_nil _⟩
  | statement =>
    simp only [starts, List.forall_mem_cons]
    exact ⟨hinner whileStatement (by decide) (by decide), hinner ifStatement (by decide) (by decide),
      hinner returnStatement (by decide) (by decide), hinner newObject (by decide) (by decide),
      hinner assignment (by decide) (by decide), List.forall_mem_nil _⟩
  | expression =>
    simp only [starts, List.forall_mem_cons]
    exact ⟨.kind (by decide), .kind (by decide), .kind (by decide), .kind (by decide),
      .kind (by decide), .kind (by decide), hchain (by decide), hchain (by decide),
      List.forall_mem_nil _⟩
  | caller =>
    simp only [starts, List.forall_mem_cons]
    exact ⟨.kind (by decide), .kind (by decide), .kind (by decide), List.forall_mem_nil _⟩
  | _ => exact List.forall_mem_nil _

theorem Production.ofLabel?_label (production : Production) :
    ofLabel? production.label = some production := by
  cases production <;> decide

/-- The words that an error about the alternatives of a production expects. -/
theorem Cause.expects_alternative_iff {production : Production} {text : String} {found word : Word} :
    (unexpectedAlternative production.label text found).Expects word ↔
      word.kind ∈ production.starts := by
  constructor
  · rintro ⟨other, hother, hword⟩
    obtain rfl : production = other := Option.some.inj (production.ofLabel?_label.symm.trans hother)
    exact hword
  · exact fun hword => ⟨production, production.ofLabel?_label, hword⟩

/-! ## What is promised -/

/-- An error after some tokens expects something; and whatever it expects, these tokens with it after
them begin what symbols derive. -/
structure Cause.Suggests (symbols : List Symbol) (tokens : List Token) (cause : Cause) : Prop where
  expects : ∃ word, cause.Expects word
  derives : ∀ {word}, cause.Expects word →
    ∃ more, Derives symbols (tokens.map Token.toWord ++ word :: more)

namespace Cause.Suggests

variable {symbols rest : List Symbol} {tokens front : List Token} {cause : Cause}

/-- More symbols can follow. -/
theorem append (h : cause.Suggests symbols tokens) (rest : List Symbol) :
    cause.Suggests (symbols ++ rest) tokens where
  expects := h.expects
  derives := by
    intro word hword
    obtain ⟨more, hmore⟩ := h.derives hword
    obtain ⟨words, hwords⟩ := exists_derives rest
    refine ⟨more ++ words, ?_⟩
    rw [← List.cons_append, ← List.append_assoc]
    exact hmore.append hwords

/-- What other symbols derive can stand before. -/
theorem prepend (hfront : Derives symbols (front.map Token.toWord))
    (h : cause.Suggests rest tokens) : cause.Suggests (symbols ++ rest) (front ++ tokens) where
  expects := h.expects
  derives := by
    intro word hword
    obtain ⟨more, hmore⟩ := h.derives hword
    refine ⟨more, ?_⟩
    rw [List.map_append, List.append_assoc]
    exact hfront.append hmore

/-- A production derives what one of its rules derives. -/
theorem of_rule {production : Production} {rule : List Symbol} (hrule : rule ∈ production.rules)
    (h : cause.Suggests rule tokens) : cause.Suggests [.part production] tokens where
  expects := h.expects
  derives := by
    intro word hword
    obtain ⟨more, hmore⟩ := h.derives hword
    exact ⟨more, .of_rule hrule hmore⟩

/-- A word of a kind is expected where it comes next. -/
theorem kind (label : String) (kind : Kind) (found : Word) :
    (unexpectedKind label kind found).Suggests [.kind kind] [] where
  expects := ⟨⟨kind, ""⟩, rfl⟩
  derives hword := ⟨[], .kind hword .nil⟩

/-- A word of punctuation is expected where it comes next. -/
theorem mark (label text : String) (found : Word) :
    (unexpectedText label (.single text) found).Suggests [.mark text] [] where
  expects := ⟨.single text, rfl⟩
  derives := by
    rintro _ rfl
    exact ⟨[], .mark .nil⟩

/-- The alternatives of a production are expected where it comes next. -/
theorem alternative {production : Production} (text : String) (found : Word)
    (hne : production.starts ≠ []) :
    (unexpectedAlternative production.label text found).Suggests [.part production] [] where
  expects := by
    obtain ⟨kind, hkind⟩ := List.exists_mem_of_ne_nil _ hne
    exact ⟨⟨kind, ""⟩, Cause.expects_alternative_iff.mpr hkind⟩
  derives := fun hword =>
    (production.begins_of_mem_starts _ (Cause.expects_alternative_iff.mp hword)).exists_derives

end Cause.Suggests

/-! ## Where other words may be found -/

namespace Cause

/-- The productions that check the kind of a word which was not looked at before, and the kind. -/
def kindSites : List (Production × Kind) :=
  [(.classBody, .classWord), (.classBody, .className), (.member, .name), (.params, .name),
    (.newObject, .className)]

/-- The productions that check punctuation which was not looked at before, and the punctuation. -/
def textSites : List (Production × String) :=
  [(.classBody, "\x7b"), (.restOfMethod, ")"), (.methodBody, "\x7b"), (.loopBody, "\x7b"),
    (.whileStatement, "("), (.whileStatement, ")"), (.ifStatement, "("), (.ifStatement, ")"),
    (.assignment, "="), (.argsPart, ")")]

/-- The productions that tell their alternatives by a word which was not looked at before. -/
def alternativeSites : List Production := [.member, .statement, .expression]

/-- The syntax errors that the routines may give after some tokens. -/
inductive Stands : List Token → Cause → Prop
  | kind {tokens : List Token} {production : Production} {kind : Kind} {found : Word} :
    (production, kind) ∈ kindSites → Stands tokens (.unexpectedKind production.label kind found)
  | text {tokens : List Token} {production : Production} {text : String} {found : Word} :
    (production, text) ∈ textSites →
    Stands tokens (.unexpectedText production.label (.single text) found)
  | alternative {tokens : List Token} {production : Production} {text : String} {found : Word} :
    production ∈ alternativeSites →
    Stands tokens (.unexpectedAlternative production.label text found)
  /-- No segment starts after a point. -/
  | segment {front : List Token} {point : Token} {text : String} {found : Word} :
    point.toWord = .single "." →
    Stands (front ++ [point]) (.unexpectedAlternative Production.caller.label text found)
  /-- No arguments follow the class of a new object. -/
  | arguments {front : List Token} {new name : Token} {found : Word} :
    new.kind = .newWord → name.kind = .className →
    Stands (front ++ [new, name])
      (.unexpectedText Production.argsPart.label (.single "(") found)

/-- An error may be given after more tokens as well. -/
theorem Stands.prepend {tokens : List Token} {cause : Cause} (h : cause.Stands tokens)
    (front : List Token) : cause.Stands (front ++ tokens) := by
  cases h with
  | kind hsite => exact .kind hsite
  | text hsite => exact .text hsite
  | alternative hsite => exact .alternative hsite
  | segment hpoint =>
    rw [← List.append_assoc]
    exact .segment hpoint
  | arguments hnew hname =>
    rw [← List.append_assoc]
    exact .arguments hnew hname

/-- The syntax errors that a routine may give whose first word was looked at before: one of those
that may be given anywhere, or that the first word is not what it has to be. -/
def StandsOr (shape : Word → Cause) (tokens : List Token) (cause : Cause) : Prop :=
  cause.Stands tokens ∨ tokens = [] ∧ ∃ found, cause = shape found

/-- The syntax errors that may be given after some tokens of a class: one of those that may be given
anywhere, or that no parameters follow the class name of a constructor, and then the words before the
constructor are told by `before`. -/
def StandsOrNamed (before : List Word → Prop) (tokens : List Token) (cause : Cause) : Prop :=
  cause.Stands tokens ∨ ∃ front name found, tokens = front ++ [name] ∧ before (normals front) ∧
    name.kind = .className ∧
    cause = .unexpectedText Production.restOfMethod.label (.single "(") found

/-- An error may be given after more tokens as well, if the constructor may stand there. -/
theorem StandsOrNamed.prepend {before before' : List Word → Prop} {tokens : List Token}
    {cause : Cause} (h : cause.StandsOrNamed before tokens) (front : List Token)
    (himp : ∀ {words}, before words → before' (normals front ++ words)) :
    cause.StandsOrNamed before' (front ++ tokens) := by
  rcases h with hstands | ⟨middle, name, found, rfl, hbefore, hname, rfl⟩
  · exact .inl (hstands.prepend front)
  · refine .inr ⟨front ++ middle, name, found, (List.append_assoc ..).symm, ?_, hname, rfl⟩
    rw [normals_append]
    exact himp hbefore

end Cause

/-- Words after which a member may come next, in a class that begins with them: they open the class,
and are those of whole members from there on. -/
def ClassDef.OpenBefore (words : List Word) : Prop :=
  ∃ name members, words = .ofKind .classWord :: ⟨.className, name⟩ :: .single "\x7b" ::
    wordsOfRun Member.words members

/-- Words after which a member may come next, in a program that begins with them: those of whole
classes, and then those that open one more. -/
def Program.OpenBefore (words : List Word) : Prop :=
  ∃ classes rest, words = wordsOfRun ClassDef.words classes ++ rest ∧ ClassDef.OpenBefore rest

end FrappeSyntax
