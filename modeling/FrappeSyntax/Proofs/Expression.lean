import FrappeSyntax.Expression.Parser
import FrappeSyntax.Proofs.Lookahead
import FrappeSyntax.Proofs.Series

/-!
# Reading expressions

The routines for expressions and their parts read the tokens of canonical trees, as far as they go
on. A token tells at once whether an expression is a literal or a chain, but for the word `this`:
there the next token tells.

* `Expression.reads`: the routine for expressions reads expressions.
* `Caller.reads`, `Caller.chain_reads`, `Expression.args_reads`, `Expression.argsPart_reads`,
  `NewObject.reads`: its parts, given this.
-/

namespace FrappeSyntax

/-! ## Words -/

/-- Holds for the kinds of words that an expression can start with. -/
def Kind.StartsExpression (kind : Kind) : Prop :=
  (LiteralKind.ofKind? kind).isSome = Bool.true ∨ (CallerKind.ofKind? kind).isSome = Bool.true

theorem Kind.StartsExpression.ne {kind kind' : Kind} (h : kind.StartsExpression)
    (h' : ¬ kind'.StartsExpression) : kind ≠ kind' := by
  rintro rfl
  exact h' h

instance (kind : Kind) : Decidable kind.StartsExpression :=
  inferInstanceAs (Decidable (_ ∨ _))

theorem CallerKind.kind_ne_of_ofKind? {kind : Kind} {caller : CallerKind}
    (h : ofKind? kind = some caller) : kind ≠ .eof := by
  rintro rfl
  cases h

/-- The first word of a segment has the kind of the segment. -/
theorem Caller.words_eq_cons (caller : Caller) :
    ∃ rest, caller.words = ⟨caller.kind.kind, caller.name⟩ :: rest := by
  cases caller <;> exact ⟨_, rfl⟩

/-- The first word of an expression shows that it starts one. -/
theorem Expression.words_eq_cons (expression : Expression) :
    ∃ word rest, expression.words = word :: rest ∧ word.kind.StartsExpression := by
  cases expression with
  | literal kind value => exact ⟨_, _, rfl, by cases kind <;> exact .inl rfl⟩
  | chain first rest =>
    obtain ⟨others, hwords⟩ := first.words_eq_cons
    refine ⟨⟨first.kind.kind, first.name⟩, others ++ Caller.wordsMore rest, ?_, ?_⟩
    · rw [Expression.words, hwords, List.cons_append]
    · cases first.kind <;> exact .inr rfl

mutual

theorem Expression.isInner_of_mem : ∀ (e : Expression), ∀ word ∈ e.words, word.IsInner
  | .literal kind value => by
    simpa [Expression.words] using Word.isInner_mk kind.isBare_kind value
  | .chain first rest => by
    simpa [Expression.words, or_imp, forall_and] using
      ⟨first.isInner_of_mem, Caller.isInner_of_mem_wordsMore rest⟩

theorem Caller.isInner_of_mem : ∀ (c : Caller), ∀ word ∈ c.words, word.IsInner
  | .ref kind name => by simpa [Caller.words] using Word.isInner_mk kind.isBare_kind name
  | .call kind name args => by
    simpa [Caller.words, wordsInParens, or_imp, forall_and, Word.isInner_single] using
      ⟨Word.isInner_mk kind.isBare_kind name, Expression.isInner_of_mem_wordsOfArgs args⟩

theorem Caller.isInner_of_mem_wordsMore :
    ∀ (cs : List Caller), ∀ word ∈ Caller.wordsMore cs, word.IsInner
  | [] => by simp [Caller.wordsMore]
  | c :: cs => by
    simpa [Caller.wordsMore, or_imp, forall_and, Word.isInner_single] using
      ⟨c.isInner_of_mem, Caller.isInner_of_mem_wordsMore cs⟩

theorem Expression.isInner_of_mem_wordsOfArgs :
    ∀ (es : List Expression), ∀ word ∈ Expression.wordsOfArgs es, word.IsInner
  | [] => by simp [Expression.wordsOfArgs]
  | e :: es => by
    simpa [Expression.wordsOfArgs, or_imp, forall_and] using
      ⟨e.isInner_of_mem, Expression.isInner_of_mem_wordsMore es⟩

theorem Expression.isInner_of_mem_wordsMore :
    ∀ (es : List Expression), ∀ word ∈ Expression.wordsMore es, word.IsInner
  | [] => by simp [Expression.wordsMore]
  | e :: es => by
    simpa [Expression.wordsMore, or_imp, forall_and, Word.isInner_single] using
      ⟨e.isInner_of_mem, Expression.isInner_of_mem_wordsMore es⟩

end

/-- The words of arguments in parentheses can stand inside a tree. -/
theorem Expression.isInner_of_mem_argsPart (args : List Expression) :
    ∀ word ∈ wordsInParens (wordsOfSeparated "," Expression.words args), word.IsInner :=
  isInner_of_mem_wordsInParens (isInner_of_mem_wordsOfSeparated Expression.isInner_of_mem args)

theorem NewObject.isInner_of_mem (object : NewObject) : ∀ word ∈ object.words, word.IsInner :=
  List.forall_mem_cons.mpr ⟨Word.isInner_ofKind (by decide), List.forall_mem_cons.mpr
    ⟨Word.isInner_mk rfl _, Expression.isInner_of_mem_argsPart object.args⟩⟩

/-! ## Forms -/

/-- Expressions, as they are read. -/
def Expression.form : Form Expression where
  words := Expression.words
  fits := Expression.Fits
  stops following expression := expression.StopsBefore following
  fits_mono hle h := ⟨Nat.le_trans h.1 hle, h.2⟩
  exists_tokens := ⟨[⟨.ofKind .null, .null, .null⟩], .literal .null _, rfl⟩

/-- Segments, as they are read. -/
def Caller.form : Form Caller where
  words := Caller.words
  fits := Caller.Fits
  stops following caller := caller.StopsBefore following
  fits_mono hle h := ⟨Nat.le_trans h.1 hle, h.2⟩
  exists_tokens := ⟨[⟨.ofKind .name, .null, .null⟩], .ref .name _, rfl⟩

/-- The segments of a chain, as they are read. -/
def Caller.chainForm : Form (Series Caller) := Caller.form.separated "."

/-- Arguments, as they are read. -/
def Expression.argsForm : Form (Series Expression) := Expression.form.separated ","

/-- Arguments in parentheses, if there are any, as they are read. -/
def Expression.argsPartForm : Form (List Expression) := Expression.argsForm.between "(" ")"

/-- New objects, as they are read. -/
def NewObject.form : Form NewObject where
  words := NewObject.words
  fits := NewObject.Fits
  stops _ _ := True
  fits_mono hle h := ⟨Nat.le_trans h.1 hle, h.2⟩
  exists_tokens := by
    refine ⟨[⟨.ofKind .newWord, .null, .null⟩, ⟨.ofKind .className, .null, .null⟩,
      ⟨.single "(", .null, .null⟩, ⟨.single ")", .null, .null⟩], ⟨_, []⟩, rfl⟩

theorem Expression.words_argsPart (args : List Expression) :
    argsPartForm.words args = wordsInParens (wordsOfSeparated "," Expression.words args) :=
  Expression.form.words_between_separated "," "(" ")" args

theorem Expression.fits_argsPart {levels : Nat} {args : List Expression} :
    argsPartForm.fits levels args ↔ ∀ e ∈ args, e.Fits levels :=
  Form.fits_between_separated

theorem Caller.words_call (kind : CallerKind) (name : String) (args : List Expression) :
    (Caller.call kind name args).words = ⟨kind.kind, name⟩ :: Expression.argsPartForm.words args := by
  rw [Expression.words_argsPart, ← Expression.wordsOfArgs_eq]
  rfl

theorem NewObject.words_eq (object : NewObject) :
    object.words = .ofKind .newWord :: ⟨.className, object.className⟩ ::
      Expression.argsPartForm.words object.args := by
  rw [Expression.words_argsPart]
  rfl

theorem Expression.words_chain (first : Caller) (rest : List Caller) :
    (Expression.chain first rest).words = Caller.chainForm.words ⟨first, rest⟩ := by
  rw [Expression.words, Caller.wordsMore_eq]
  rfl

/-! ## Parts of expressions -/

section

variable {levels more : Nat} {expression expression' : Routine Expression}

/-- The routine for arguments reads arguments. -/
theorem Expression.args_reads (h : Reads levels more expression expression' form.reading) :
    Reads levels more (parseArgs expression) (parseArgs expression') argsForm.reading := by
  refine ReadsAfter.enter _ (Reads.separated h Expression.isInner_of_mem ?_)
  intro following tree hcomma
  exact tree.stopsBefore_of_isSingle hcomma (by decide) (by decide)

/-- The routine for arguments in parentheses reads these. -/
theorem Expression.argsPart_reads (h : Reads levels more expression expression' form.reading) :
    Reads levels more (parseArgsPart expression) (parseArgsPart expression')
      argsPartForm.reading := by
  refine ReadsAfter.enter _ (Reads.between _ (args_reads h) ?_ ?_)
  · intro following series hclose
    exact ⟨series.last.stopsBefore_of_isSingle hclose (by decide) (by decide),
      isSingle_eq_false_of_isSingle hclose (by decide)⟩
  · intro tokens series hwords
    obtain ⟨word, others, hword, hkind⟩ := series.first.words_eq_cons
    have hwords : normals tokens = word :: (others ++ wordsOfMore "," Expression.words series.rest) := by
      rw [← List.cons_append, ← hword]
      exact hwords
    obtain ⟨token, rest, rfl, htoken, -⟩ := normals_eq_cons.mp hwords
    refine ⟨token, rest, rfl, isSingle_eq_false_of_kind_ne ?_ _⟩
    rw [← Word.kind_normal, htoken]
    exact hkind.ne (by decide)

/-- The routine for segments reads segments. -/
theorem Caller.reads (h : Reads levels more expression expression' Expression.form.reading) :
    Reads levels more (parse expression) (parse expression') form.reading := by
  refine ReadsAfter.enter _ (.next_bind fun token => ?_)
  cases hkind : CallerKind.ofKind? token.kind with
  | none =>
    refine .fail h.le ⟨rfl, rfl⟩ form.exists_tokens ?_
    rintro s tokens caller rest hseq ⟨hwords, -⟩
    obtain ⟨others, hcaller⟩ := caller.words_eq_cons
    obtain ⟨back, rfl, htoken, -⟩ := exists_of_normals_eq_cons hseq (hwords.trans hcaller)
    rw [Word.normal_eq_mk caller.kind.isBare_kind] at htoken
    have hsome := CallerKind.ofKind?_eq_some_iff.mpr (congrArg Word.kind htoken).symm
    rw [hkind] at hsome
    cases hsome
  | some kind =>
    have htoken := Word.normal_of_kind_eq kind.isBare_kind
      (CallerKind.ofKind?_eq_some_iff.mp hkind).symm
    have hunique : ∀ {kind' : CallerKind} {name : String},
        token.toWord.normal = ⟨kind'.kind, name⟩ → kind' = kind ∧ name = token.text := by
      intro kind' name h
      rw [Word.normal_eq_mk kind'.isBare_kind] at h
      have hsome := CallerKind.ofKind?_eq_some_iff.mpr (congrArg Word.kind h).symm
      exact ⟨Option.some.inj (hsome.symm.trans hkind), (congrArg Word.text h).symm⟩
    refine .form (.of_reads [token] (Reads.bind (Reads.peek h.le) fun next =>
      Reads.ite (Reads.bind (Expression.argsPart_reads h) fun args =>
        Reads.pure h.le (Caller.call kind token.text args))
        (Reads.pure h.le (Caller.ref kind token.text)))) ?_ ?_ ?_
    · rintro _ caller ⟨_, rfl, next, _, back, rfl, rfl, hcaller⟩
      dsimp only at hcaller
      split at hcaller
      · obtain ⟨args, front, _, rfl, hargs, rfl, rfl⟩ := hcaller
        have hargs : normals front = Expression.argsPartForm.words args := hargs
        show normals _ = Caller.words _
        rw [Caller.words_call, List.append_nil, ← htoken, ← hargs]
        rfl
      · obtain ⟨rfl, rfl⟩ := hcaller
        exact congrArg (· :: []) htoken
    · rintro levels tokens caller s rest hseq ⟨_, rfl, next, _, back, rfl, ⟨rfl, hnext⟩, hcaller⟩
      dsimp only at hcaller
      split at hcaller
      case isTrue =>
        obtain ⟨args, front, _, rfl, ⟨-, hfits, -⟩, rfl, rfl⟩ := hcaller
        exact ⟨Caller.fits_call.mpr (Expression.fits_argsPart.mp hfits), trivial⟩
      case isFalse hnone =>
        obtain ⟨rfl, rfl⟩ := hcaller
        refine ⟨Caller.fits_ref, ?_⟩
        rw [hnext] at hnone
        show rest.head.isSingle "(" = false
        simpa using hnone
    · rintro levels tokens caller s rest hseq ⟨hwords, hfits, hstop⟩
      cases caller with
      | ref kind' name =>
        obtain ⟨back, rfl, hfirst, hback⟩ := exists_of_normals_eq_cons hseq hwords
        obtain ⟨rfl, rfl⟩ := hunique hfirst
        obtain rfl := normals_eq_nil.mp hback
        have hstop : rest.head.isSingle "(" = false := hstop
        refine ⟨[], rfl, rest.head, [], [], rfl, ⟨rfl, rfl⟩, ?_⟩
        dsimp only
        rw [if_neg (by simp [hstop])]
        exact ⟨rfl, rfl⟩
      | call kind' name args =>
        obtain ⟨back, rfl, hfirst, hback⟩ :=
          exists_of_normals_eq_cons hseq (hwords.trans (Caller.words_call kind' name args))
        obtain ⟨rfl, rfl⟩ := hunique hfirst
        obtain ⟨paren, back, rfl, hparen, -⟩ := normals_eq_cons.mp hback
        rw [Word.normal_eq_single] at hparen
        refine ⟨paren :: back, rfl, paren, [], paren :: back, rfl, ⟨rfl, rfl⟩, ?_⟩
        dsimp only
        rw [if_pos (Word.isSingle_iff.mpr hparen)]
        exact ⟨args, paren :: back, [], (List.append_nil _).symm,
          ⟨hback, Expression.fits_argsPart.mpr (Caller.fits_call.mp hfits), trivial⟩, rfl, rfl⟩

/-- The routine for chains reads chains. -/
theorem Caller.chain_reads (h : Reads levels more expression expression' Expression.form.reading) :
    Reads levels more (parseChain expression) (parseChain expression') chainForm.reading := by
  refine ReadsAfter.enter _ (Reads.separated (reads h) Caller.isInner_of_mem ?_)
  intro following caller hpoint
  exact caller.stopsBefore_of_isSingle_eq_false (isSingle_eq_false_of_isSingle hpoint (by decide))

/-- The routine for new objects reads new objects. -/
theorem NewObject.reads (h : Reads levels more expression expression' Expression.form.reading) :
    Reads levels more (parse expression) (parse expression') form.reading := by
  refine ReadsAfter.enter _ (Reads.form (.bind (.expect h.le .newWord _) fun _ =>
    .bind (.expect h.le .className _) fun className => .bind (Expression.argsPart_reads h)
      fun args => .pure h.le (NewObject.mk className.text args)) ?_ ?_ ?_)
  · rintro _ object ⟨token, _, _, rfl, ⟨rfl, hnew⟩, name, _, _, rfl, ⟨rfl, hname⟩, args, back, _,
      rfl, hargs, rfl, rfl⟩
    have hargs : normals back = Expression.argsPartForm.words args := hargs
    have hname := Word.normal_of_kind_eq rfl hname
    show normals _ = NewObject.words _
    rw [NewObject.words_eq, List.append_nil, ← hargs, ← hname, ← (Word.normal_eq_ofKind rfl).mpr hnew]
    rfl
  · rintro levels _ object following ⟨_, _, _, rfl, -, _, _, _, rfl, -, args, back, _, rfl,
      ⟨-, hfits, -⟩, rfl, rfl⟩
    exact ⟨NewObject.fits_iff.mpr (Expression.fits_argsPart.mp hfits), trivial⟩
  · rintro levels tokens object following ⟨hwords, hfits, -⟩
    obtain ⟨token, _, rfl, hnew, htokens⟩ := normals_eq_cons.mp (hwords.trans object.words_eq)
    obtain ⟨name, back, rfl, hname, hargs⟩ := normals_eq_cons.mp htokens
    rw [Word.normal_eq_ofKind rfl] at hnew
    rw [Word.normal_eq_mk rfl] at hname
    refine ⟨token, [token], name :: back, rfl, ⟨rfl, hnew⟩, name, [name], back, rfl,
      ⟨rfl, congrArg Word.kind hname⟩, object.args, back, [], (List.append_nil _).symm,
      ⟨hargs, Expression.fits_argsPart.mpr (NewObject.fits_iff.mp hfits), trivial⟩, rfl, ?_⟩
    rw [congrArg Word.text hname]

/-! ## Expressions -/

/-- The first token of an expression is all of it, or starts the first segment of a chain. -/
theorem Expression.cases_of_first {token : Token} {tokens : List Token} {e : Expression}
    {s rest : Stream' Token} (hseq : [token] ++ₛ s = tokens ++ₛ rest)
    (hwords : normals tokens = e.words) :
    (∃ kind, LiteralKind.ofKind? token.kind = some kind ∧ e = .literal kind token.text ∧
      tokens = [token]) ∨
    ∃ first others, CallerKind.ofKind? token.kind = some first.kind ∧ e = .chain first others := by
  cases e with
  | literal kind value =>
    obtain ⟨back, rfl, hfirst, hback⟩ := exists_of_normals_eq_cons hseq hwords
    obtain rfl := normals_eq_nil.mp hback
    rw [Word.normal_eq_mk kind.isBare_kind] at hfirst
    refine .inl ⟨kind, LiteralKind.ofKind?_eq_some_iff.mpr (congrArg Word.kind hfirst).symm, ?_, rfl⟩
    rw [congrArg Word.text hfirst]
  | chain first others =>
    obtain ⟨more, hcaller⟩ := first.words_eq_cons
    rw [words, hcaller, List.cons_append] at hwords
    obtain ⟨back, rfl, hfirst, -⟩ := exists_of_normals_eq_cons hseq hwords
    rw [Word.normal_eq_mk first.kind.isBare_kind] at hfirst
    exact .inr ⟨first, others, CallerKind.ofKind?_eq_some_iff.mpr (congrArg Word.kind hfirst).symm,
      rfl⟩

theorem Caller.eq_of_isBareThis (caller : Caller) (h : caller.isBareThis = true) :
    caller = .ref .this caller.name := by
  match caller, h with
  | .ref .this _, _ => rfl

/-- A chain that starts with `this` goes on after it, unless the chain is this word alone. -/
theorem Expression.words_chain_of_this {first : Caller} {others : List Caller}
    (hthis : first.kind = .this) (hbare : ¬ (first.isBareThis = true ∧ others = [])) :
    ∃ text words, (Expression.chain first others).words = ⟨.this, first.name⟩ :: .single text :: words ∧
      (text = "." ∨ text = "(") := by
  cases first with
  | ref kind name =>
    obtain rfl : kind = .this := hthis
    cases others with
    | nil => exact absurd ⟨rfl, rfl⟩ hbare
    | cons next others => exact ⟨_, _, rfl, .inl rfl⟩
  | call kind name args =>
    obtain rfl : kind = .this := hthis
    exact ⟨_, _, rfl, .inr rfl⟩

/-- What the routine for chains makes an expression of. -/
def Expression.chainReading : Reading Expression :=
  Caller.chainForm.reading.bind fun chain => .pure (.chain chain.first chain.rest)

theorem Expression.words_of_chainReading {tokens : List Token} {e : Expression}
    (h : chainReading.admits tokens e) : normals tokens = e.words := by
  obtain ⟨chain, front, _, rfl, hwords, rfl, rfl⟩ := h
  have hwords : normals front = Caller.chainForm.words chain := hwords
  rw [List.append_nil, hwords, words_chain]

theorem Expression.chainReading_iff {levels : Nat} {tokens : List Token} {e : Expression}
    {following : Token} :
    chainReading.accepts levels tokens e following ↔
      ∃ first others, e = .chain first others ∧ normals tokens = e.words ∧
        (∀ c ∈ first :: others, c.Fits levels) ∧ e.StopsBefore following := by
  constructor
  · rintro ⟨chain, front, _, rfl, ⟨hwords, hfits, hstop⟩, rfl, rfl⟩
    refine ⟨chain.first, chain.rest, rfl, ?_, hfits, hstop⟩
    rw [List.append_nil, hwords, words_chain]
  · rintro ⟨first, others, rfl, hwords, hfits, hstop⟩
    rw [words_chain] at hwords
    exact ⟨⟨first, others⟩, tokens, [], (List.append_nil _).symm, ⟨hwords, hfits, hstop⟩, rfl, rfl⟩

theorem Expression.chain_reads (h : Reads levels more expression expression' form.reading) :
    Reads levels more
      (Caller.parseChain expression >>= fun chain => pure (.chain chain.first chain.rest))
      (Caller.parseChain expression' >>= fun chain => pure (.chain chain.first chain.rest))
      chainReading :=
  .bind (Caller.chain_reads h) fun _ => .pure h.le _

/-- An expression whose first token is no literal is a chain. -/
theorem Expression.chainAt_reads (h : Reads levels more expression expression' form.reading)
    {token : Token} (hliteral : LiteralKind.ofKind? token.kind = none) :
    ReadsAfter [token] levels more (parseChainAt expression token) (parseChainAt expression' token)
      form.reading.inside := by
  show ReadsAfter ([] ++ [token]) _ _ _ _ _
  unfold parseChainAt
  cases hkind : CallerKind.ofKind? token.kind with
  | none =>
    refine .fail h.le ⟨rfl, rfl⟩ form.exists_tokens ?_
    rintro s tokens e rest hseq ⟨hwords, -⟩
    rcases cases_of_first hseq hwords with ⟨kind, hsome, -⟩ | ⟨first, others, hsome, -⟩
    · rw [hliteral] at hsome
      cases hsome
    · rw [hkind] at hsome
      cases hsome
  | some kind =>
    refine .weaken (.of_handsBack [] (Routine.pushBack_handsBack token _)
      (Routine.pushBack_handsBack token _) (chain_reads h)) ?_ ?_
    · rintro _ e ⟨tokens, rfl, hadm⟩
      exact words_of_chainReading hadm
    · intro levels tokens e s rest hseq
      constructor
      · rintro ⟨_, rfl, hacc⟩
        obtain ⟨first, others, rfl, hwords, hfits, hstop⟩ := chainReading_iff.mp hacc
        refine ⟨hwords, fits_chain.mpr ⟨?_, hfits⟩, hstop⟩
        rintro ⟨hbare, -⟩
        rcases cases_of_first hseq hwords with ⟨_, -, h, -⟩ | ⟨_, _, hsome, h⟩
        · cases h
        · cases h
          rw [first.eq_of_isBareThis hbare, CallerKind.ofKind?_eq_some_iff] at hsome
          rw [← hsome] at hliteral
          cases hliteral
      · rintro ⟨hwords, hfits, hstop⟩
        rcases cases_of_first hseq hwords with ⟨kind, hsome, -⟩ | ⟨first, others, -, rfl⟩
        · rw [hliteral] at hsome
          cases hsome
        · exact ⟨tokens, rfl, chainReading_iff.mpr
            ⟨first, others, rfl, hwords, (fits_chain.mp hfits).2, hstop⟩⟩

/-- After `this` the next token tells whether a chain goes on. -/
theorem Expression.thisAt_reads (h : Reads levels more expression expression' form.reading)
    {token : Token} (hthis : token.kind = .this) :
    ReadsAfter [token] levels more
      (Routine.peek >>= fun next => if continuesThis next then parseChainAt expression token
        else pure (.literal .this token.text))
      (Routine.peek >>= fun next => if continuesThis next then parseChainAt expression' token
        else pure (.literal .this token.text))
      form.reading.inside := by
  have htoken : token.toWord.normal = ⟨.this, token.text⟩ := Word.normal_of_kind_eq rfl hthis
  have hcaller : CallerKind.ofKind? token.kind = some .this := by rw [hthis]; rfl
  have hkind : LiteralKind.ofKind? token.kind = some .this := by rw [hthis]; rfl
  have hchain : ∀ expression, parseChainAt expression token =
      (Routine.pushBack token >>= fun _ => Caller.parseChain expression >>= fun chain =>
        pure (.chain chain.first chain.rest)) := by
    intro expression
    rw [parseChainAt, hcaller]
  refine .peek_bind fun next => ?_
  rw [hchain, hchain]
  cases hnext : continuesThis next with
  | true =>
    have haccepts : chainReading.accepts more [token] (.chain (.ref .this token.text) [])
        (Token.endAt .null) :=
      chainReading_iff.mpr ⟨_, _, rfl, congrArg (· :: []) htoken, by simp, rfl, rfl⟩
    refine .weaken (.pushBack_two (chain_reads h) ⟨[], _, _, haccepts⟩) words_of_chainReading ?_
    intro levels tokens e s rest hseq
    rw [Stream'.append_append_stream] at hseq
    constructor
    · intro hacc
      obtain ⟨first, others, rfl, hwords, hfits, hstop⟩ := chainReading_iff.mp hacc
      refine ⟨hwords, fits_chain.mpr ⟨?_, hfits⟩, hstop⟩
      rintro ⟨hbare, rfl⟩
      rw [first.eq_of_isBareThis hbare] at hwords hstop
      obtain ⟨back, rfl, -, hback⟩ := exists_of_normals_eq_cons hseq hwords
      obtain rfl := normals_eq_nil.mp hback
      have hhead : next = rest.head := congrArg Stream'.head ((Stream'.append_right_inj ..).mp hseq)
      have hstop : continuesThis rest.head = false :=
        continuesThis_eq_false_iff.mpr ⟨hstop.2, hstop.1⟩
      rw [← hhead, hnext] at hstop
      cases hstop
    · rintro ⟨hwords, hfits, hstop⟩
      rcases cases_of_first hseq hwords with ⟨kind, hsome, rfl, rfl⟩ | ⟨first, others, -, rfl⟩
      · rw [hkind] at hsome
        cases hsome
        have hhead : next = rest.head :=
          congrArg Stream'.head ((Stream'.append_right_inj ..).mp hseq)
        have hstop : continuesThis rest.head = false := hstop
        rw [← hhead, hnext] at hstop
        cases hstop
      · exact chainReading_iff.mpr ⟨first, others, rfl, hwords, (fits_chain.mp hfits).2, hstop⟩
  | false =>
    refine .weaken (.of_handsBack [token] (Routine.pushBack_handsBack next _)
      (Routine.pushBack_handsBack next _) (Reads.pure h.le (Expression.literal .this token.text))) ?_ ?_
    · rintro _ e ⟨_, rfl, rfl, rfl⟩
      exact congrArg (· :: []) htoken
    · intro levels tokens e s rest hseq
      rw [Stream'.append_append_stream] at hseq
      constructor
      · rintro ⟨_, rfl, rfl, rfl⟩
        have hhead : next = rest.head :=
          congrArg Stream'.head ((Stream'.append_right_inj ..).mp hseq)
        exact ⟨congrArg (· :: []) htoken, fits_literal, by rwa [hhead] at hnext⟩
      · rintro ⟨hwords, hfits, hstop⟩
        rcases cases_of_first hseq hwords with ⟨kind, hsome, rfl, rfl⟩ | ⟨first, others, hsome, rfl⟩
        · rw [hkind] at hsome
          cases hsome
          exact ⟨[], rfl, rfl, rfl⟩
        · rw [hcaller] at hsome
          obtain ⟨text, words, hchain, htext⟩ :=
            words_chain_of_this (Option.some.inj hsome).symm (fits_chain.mp hfits).1
          obtain ⟨back, rfl, -, hback⟩ := exists_of_normals_eq_cons hseq (hwords.trans hchain)
          obtain ⟨second, back, rfl, hsecond, -⟩ := normals_eq_cons.mp hback
          have hhead : next = second :=
            congrArg Stream'.head ((Stream'.append_right_inj [token] ..).mp hseq)
          rw [Word.normal_eq_single, ← Word.isSingle_iff, ← hhead] at hsecond
          rw [continuesThis_eq_false_iff] at hnext
          rcases htext with rfl | rfl
          · rw [hnext.1] at hsecond
            cases hsecond
          · rw [hnext.2] at hsecond
            cases hsecond

/-- Any other literal is an expression by itself. -/
theorem Expression.literalAt_reads (hle : levels ≤ more) {token : Token} {kind : LiteralKind}
    (hkind : LiteralKind.ofKind? token.kind = some kind) (hthis : kind ≠ .this) :
    ReadsAfter [token] levels more (pure (.literal kind token.text))
      (pure (.literal kind token.text)) form.reading.inside := by
  have htoken := Word.normal_of_kind_eq kind.isBare_kind
    (LiteralKind.ofKind?_eq_some_iff.mp hkind).symm
  refine .weaken (.of_reads [token] (Reads.pure hle (Expression.literal kind token.text))) ?_ ?_
  · rintro _ e ⟨_, rfl, rfl, rfl⟩
    exact congrArg (· :: []) htoken
  · intro levels tokens e s rest hseq
    constructor
    · rintro ⟨_, rfl, rfl, rfl⟩
      refine ⟨congrArg (· :: []) htoken, fits_literal, ?_⟩
      cases kind with
      | this => exact absurd rfl hthis
      | _ => trivial
    · rintro ⟨hwords, -, -⟩
      rcases cases_of_first hseq hwords with ⟨kind', hsome, rfl, rfl⟩ | ⟨first, others, hsome, rfl⟩
      · rw [hkind] at hsome
        cases hsome
        exact ⟨[], rfl, rfl, rfl⟩
      · rw [LiteralKind.ofKind?_eq_some_iff] at hkind
        rw [CallerKind.ofKind?_eq_some_iff, ← hkind] at hsome
        exfalso
        revert hthis hsome
        cases kind <;> cases first.kind <;> decide

/-- What an expression is shows in its first token, or after `this` in its second. -/
theorem Expression.opened_reads (h : Reads levels more expression expression' form.reading) :
    Reads levels more (parseOpened expression) (parseOpened expression') form.reading.inside := by
  refine ReadsAfter.next_bind fun token => ?_
  cases hkind : LiteralKind.ofKind? token.kind with
  | none => exact chainAt_reads h hkind
  | some kind =>
    cases kind with
    | this => exact thisAt_reads h (LiteralKind.ofKind?_eq_some_iff.mp hkind).symm
    | _ => exact literalAt_reads h.le hkind (by decide)

end

/-- The routine for expressions reads expressions. -/
theorem Expression.reads {levels more : Nat} (hle : levels ≤ more) :
    Reads levels more (parse levels) (parse more) form.reading := by
  induction more using Nat.strongRecOn generalizing levels with
  | ind more ih =>
    refine Reads.of_inside parse (fun n => parseOpened (parse n)) (Routine.enter_resembles _ _)
      (fun _ => Routine.enter_resembles _ _) ?_ hle ?_
    · rintro tokens e following ⟨-, hfits, -⟩
      exact not_fits_zero hfits
    · intro n m hnm hm
      exact opened_reads (ih m hm hnm)

end FrappeSyntax
