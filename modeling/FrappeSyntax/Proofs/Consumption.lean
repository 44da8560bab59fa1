import FrappeSyntax.Proofs.Derivation
import FrappeSyntax.Proofs.Program

/-!
# The tokens that a routine takes

From any state of a parser, however its tokens are divided between those handed back and those not
drawn yet, a routine for a production that gives a fragment takes exactly the tokens of this
fragment. The production derives them, and the token after them does not go on with the fragment.

* `Parser.Took`: the tokens taken between two states of a parser.
* `took_of_form`, `took_of_statement`, `took_of_member`: what a routine takes, given what it reads.
* `Production.took_of_parse`: what the routine for a production takes.
-/

namespace FrappeSyntax

/-- Between two states a parser took the tokens of some words, which symbols of the grammar derive,
and the tokens after them are left. -/
def Parser.Took (before after : Parser) (symbols : List Symbol) (words : List Word) : Prop :=
  ∃ tokens, before.sequence = tokens ++ₛ after.sequence ∧ normals tokens = words ∧
    Derives symbols (tokens.map Token.toWord)

theorem Routine.eq_ok_of_run {routine : Routine α} {parser after : Parser} {result : α}
    (h : parser.run routine = (.ok result, after)) : routine parser = .ok result after := by
  rw [Parser.run] at h
  cases hrun : routine parser with
  | ok tree after' =>
    rw [hrun] at h
    cases h
    rfl
  | error error after' =>
    rw [hrun] at h
    cases h

/-- A result that is given under a name comes from a result of the routine. -/
theorem Routine.exists_of_map_eq_ok {make : α → β} {routine : Routine α} {parser after : Parser}
    {result : β} (h : (make <$> routine) parser = .ok result after) :
    ∃ tree, routine parser = .ok tree after ∧ result = make tree := by
  have hbind : (routine >>= fun tree => pure (make tree)) parser = .ok result after := h
  obtain ⟨tree, middle, hrun, hpure⟩ := Routine.ok_of_bind hbind
  cases hpure
  exact ⟨tree, hrun, rfl⟩

section

variable {levels : Nat} {routine : Routine α} {make : α → Fragment} {production : Production}
  {parser after : Parser} {fragment : Fragment}

/-- What a routine takes, if what it reads are fragments of a production. -/
theorem took_of_reading {reading : Reading α} (h : (make <$> routine) parser = .ok fragment after)
    (hreads : Reads levels levels routine routine reading)
    (hreading : ∀ {tokens tree following}, reading.accepts levels tokens tree following →
      normals tokens = (make tree).words ∧ (make tree).StopsBefore following ∧
        Derives [.part production] (make tree).words) :
    parser.Took after [.part production] fragment.words ∧
      fragment.StopsBefore after.sequence.head := by
  obtain ⟨tree, hrun, rfl⟩ := Routine.exists_of_map_eq_ok h
  obtain ⟨tokens, hseq, hacc⟩ := hreads.sound hrun
  obtain ⟨hwords, hstops, hderives⟩ := hreading hacc
  refine ⟨⟨tokens, hseq, hwords, .of_map_normal ?_⟩, hstops⟩
  rwa [map_normal_map_toWord, hwords]

/-- What a routine takes that reads a form. -/
theorem took_of_form {form : Form α} (h : (make <$> routine) parser = .ok fragment after)
    (hreads : Reads levels levels routine routine form.reading)
    (hwords : ∀ tree, form.words tree = (make tree).words)
    (hstops : ∀ {following tree}, form.stops following tree → (make tree).StopsBefore following)
    (hderives : ∀ tree, Derives [.part production] (make tree).words) :
    parser.Took after [.part production] fragment.words ∧
      fragment.StopsBefore after.sequence.head := by
  refine took_of_reading h hreads ?_
  rintro tokens tree following ⟨htokens, -, hstop⟩
  exact ⟨htokens.trans (hwords tree), hstops hstop, hderives tree⟩

/-- What the routine for a kind of statement takes. -/
theorem took_of_statement {routine : Routine Statement} {kind : Kind}
    {hkind : ∃ s : Statement, s.firstKind = kind}
    (h : (Fragment.statementBody <$> routine) parser = .ok fragment after)
    (hreads : Reads levels levels routine routine (Statement.readingOf kind hkind))
    (hproduction : ∀ s : Statement, s.firstKind = kind → s.production = production) :
    parser.Took after [.part production] fragment.words ∧
      fragment.StopsBefore after.sequence.head := by
  refine took_of_reading h hreads ?_
  rintro tokens s following ⟨⟨htokens, -, hstop⟩, hfirst⟩
  exact ⟨htokens, hstop, hproduction s hfirst ▸ s.derives_body⟩

/-- What the routine for a kind of member takes. -/
theorem took_of_member {routine : Routine Member}
    {hproduction : ∃ m : Member, m.production = production}
    (h : (Fragment.memberBody <$> routine) parser = .ok fragment after)
    (hreads : Reads levels levels routine routine (Member.readingOf production hproduction)) :
    parser.Took after [.part production] fragment.words ∧
      fragment.StopsBefore after.sequence.head := by
  refine took_of_reading h hreads ?_
  rintro tokens m following ⟨⟨htokens, -, hstop⟩, hm⟩
  exact ⟨htokens, hstop, hm ▸ m.derives_body⟩

end

section

variable {levels : Nat} {production : Production} {parser after : Parser} {fragment : Fragment}

/-- What the routine for a production takes, with some number of levels: one case for each
production, from what its routine reads. -/
theorem Production.took_of_parseAt (h : production.parseAt levels parser = .ok fragment after) :
    parser.Took after [.part production] fragment.words ∧
      fragment.StopsBefore after.sequence.head := by
  have hexpression := Expression.reads (le_refl levels)
  have hblock := Statement.block_reads (le_refl levels)
  cases production with
  | program => exact took_of_form h (Program.reads le_rfl) (fun _ => rfl) id Program.derives
  | classes =>
    refine took_of_form h (ClassDef.series_reads le_rfl) (fun _ => rfl) ?_ ClassDef.derives_series
    intro following classes hends
    exact beq_iff_eq.mp hends
  | classBody => exact took_of_form h (ClassDef.reads le_rfl) (fun _ => rfl) id ClassDef.derives
  | members =>
    exact took_of_form h (Member.series_reads le_rfl) (fun _ => rfl) id Member.derives_series
  | member => exact took_of_form h (Member.reads le_rfl) (fun _ => rfl) id Member.derives
  | staticField => exact took_of_member h (Member.staticField_reads le_rfl)
  | staticMethod => exact took_of_member h (Member.staticMethod_reads le_rfl)
  | instanceField => exact took_of_member h (Member.instanceField_reads (le_refl levels))
  | instanceMethod => exact took_of_member h (Member.instanceMethod_reads le_rfl)
  | constructor => exact took_of_member h (Member.constructor_reads le_rfl)
  | restOfMethod => exact took_of_form h (Method.reads le_rfl) (fun _ => rfl) id Method.derives
  | params =>
    exact took_of_form h (Method.params_reads (le_refl levels)) (fun _ => rfl) And.right
      fun names => Method.derives_params names.first names.rest
  | methodBody =>
    exact took_of_form h (Method.body_reads le_rfl) (fun _ => rfl) id Statement.derives_methodBody
  | statements =>
    exact took_of_form h (Statement.series_reads (Statement.reads le_rfl)) (fun _ => rfl) id
      Statement.derives_series
  | statement => exact took_of_form h (Statement.reads le_rfl) (fun _ => rfl) id Statement.derives
  | whileStatement =>
    refine took_of_statement h (Statement.while_reads hexpression hblock) ?_
    intro s hfirst
    cases s <;> cases hfirst
    rfl
  | ifStatement =>
    refine took_of_statement h (Statement.if_reads hexpression hblock) ?_
    intro s hfirst
    cases s <;> cases hfirst
    rfl
  | loopBody =>
    exact took_of_form h (Statement.loopBody_reads hblock) (fun _ => rfl) id
      Statement.derives_loopBody
  | returnStatement =>
    refine took_of_statement h (Statement.return_reads hexpression) ?_
    intro s hfirst
    cases s <;> cases hfirst
    rfl
  | assignment =>
    refine took_of_statement h (Statement.assignment_reads hexpression) ?_
    intro s hfirst
    cases s <;> cases hfirst
    rfl
  | rhs => exact took_of_form h (Rhs.reads hexpression) (fun _ => rfl) id Rhs.derives
  | newObject =>
    exact took_of_form h (NewObject.reads hexpression) (fun _ => rfl) id NewObject.derives
  | expression => exact took_of_form h hexpression (fun _ => rfl) id Expression.derives
  | refChain =>
    exact took_of_form h (Caller.chain_reads hexpression) (fun _ => rfl) id Caller.derives_chain
  | caller => exact took_of_form h (Caller.reads hexpression) (fun _ => rfl) id Caller.derives
  | argsPart =>
    exact took_of_form h (Expression.argsPart_reads hexpression) Expression.words_argsPart id
      Expression.derives_argsPart
  | args =>
    exact took_of_form h (Expression.args_reads hexpression) (fun _ => rfl) id
      Expression.derives_args

/-- The routine for a block takes its statements, if there are any, and the braces around them. -/
theorem took_of_parseBlock {label : String} {statements : Option Fragment}
    (h : Fragment.parseBlock label parser = .ok statements after) :
    parser.Took after [.part .methodBody] (wordsInBraces (statements.elim [] Fragment.words)) := by
  have hmap : ((fun body => (Series.ofList? body).map Fragment.statements) <$>
    Statement.parseBlock parser.levels label) parser = .ok statements after := h
  obtain ⟨body, hrun, rfl⟩ := Routine.exists_of_map_eq_ok hmap
  obtain ⟨tokens, hseq, hwords, -⟩ := (Statement.block_reads le_rfl label).sound hrun
  have hbody : normals tokens = Statement.wordsOfBlock body := hwords
  refine ⟨tokens, hseq, ?_, .of_map_normal ?_⟩
  · rw [hbody, Statement.wordsOfBlock]
    cases body <;> rfl
  · rw [map_normal_map_toWord, hbody]
    exact Statement.derives_methodBody body

end

/-- From any state, a routine for a production that gives a fragment takes the tokens of this
fragment, which the production derives, and stops where the fragment ends; and the routine for a
block takes the tokens of the block. -/
theorem Production.took_of_parse (parser after : Parser) :
    (∀ (production : Production) (fragment : Fragment),
      production.parse parser = .ok fragment after →
      parser.Took after [.part production] fragment.words ∧
        fragment.StopsBefore after.sequence.head) ∧
    ∀ (label : String) (statements : Option Fragment),
      Fragment.parseBlock label parser = .ok statements after →
      parser.Took after [.part .methodBody] (wordsInBraces (statements.elim [] Fragment.words)) :=
  ⟨fun _ _ h => took_of_parseAt h, fun _ _ h => took_of_parseBlock h⟩

/-- A parser to which `this` was handed back, with `. x )` still to be drawn and no level open. -/
def Parser.beforeChain : Parser :=
  .ofStream ((TokenStream.ofTokens [⟨.single ".", ⟨⟨4, "a"⟩, ⟨5, "a"⟩⟩⟩,
    ⟨⟨.name, "x"⟩, ⟨⟨5, "a"⟩, ⟨6, "a"⟩⟩⟩, ⟨.single ")", ⟨⟨6, "a"⟩, ⟨7, "a"⟩⟩⟩] "a").pushBack
      ⟨⟨.this, "this"⟩, ⟨⟨0, "a"⟩, ⟨4, "a"⟩⟩⟩) {}

/-- A parser with an empty block to be drawn. -/
def Parser.beforeBlock : Parser :=
  .ofStream (TokenStream.ofTokens [⟨.single "\x7b", ⟨⟨0, "a"⟩, ⟨1, "a"⟩⟩⟩,
    ⟨.single "\x7d", ⟨⟨1, "a"⟩, ⟨2, "a"⟩⟩⟩] "a") {}

/-- The chain `this . x` is taken, and so is an empty block. -/
theorem took_of_parse_chain_and_block :
    Parser.beforeChain.Took (Parser.beforeChain.run Production.expression.parse).2
        [.part .expression] [⟨.this, "this"⟩, .single ".", ⟨.name, "x"⟩] ∧
      Parser.beforeBlock.Took (Parser.beforeBlock.run (Fragment.parseBlock "loopBody")).2
        [.part .methodBody] [.single "\x7b", .single "\x7d"] := by
  have hchain : Parser.beforeChain.run Production.expression.parse =
      (.ok (.expression (.chain (.ref .this "this") [.ref .name "x"])),
        (Parser.beforeChain.run Production.expression.parse).2) := by
    decide +kernel
  have hblock : Parser.beforeBlock.run (Fragment.parseBlock "loopBody") =
      (.ok none, (Parser.beforeBlock.run (Fragment.parseBlock "loopBody")).2) := by
    decide +kernel
  exact ⟨((Production.took_of_parse _ _).1 _ _ (Routine.eq_ok_of_run hchain)).1,
    (Production.took_of_parse _ _).2 _ _ (Routine.eq_ok_of_run hblock)⟩

end FrappeSyntax
