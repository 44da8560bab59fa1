import FrappeSyntax.Proofs.Expression
import FrappeSyntax.Statement.Parser

/-!
# Reading statements

The first token of a statement tells its kind. A statement and a block open a level each, so the
routines for both are read together, one level less inside.

* `Statement.reads`, `Statement.block_reads`: the routines for statements and blocks read these.
* `Statement.while_reads`, `Statement.if_reads`, `Statement.return_reads`,
  `Statement.assignment_reads`, `Rhs.reads`: the routines for the kinds of statements, given what is
  read inside.
-/

namespace FrappeSyntax

/-! ## Words -/

namespace Statement

/-- The kind of word that a statement starts with. -/
def firstKind : Statement → Kind
  | .while .. => .whileWord
  | .if .. => .ifWord
  | .return _ => .returnWord
  | .assign .. => .name
  | .new _ => .newWord

/-- The first word of a statement has the kind that tells the kind of statement. -/
theorem words_eq_cons (s : Statement) : ∃ word rest, s.words = word :: rest ∧
    word.kind = s.firstKind := by
  cases s <;> exact ⟨_, _, rfl, rfl⟩

theorem firstKind_ne_single (s : Statement) : s.firstKind ≠ .single := by
  cases s <;> simp [firstKind]

end Statement

theorem Rhs.isInner_of_mem (rhs : Rhs) : ∀ word ∈ rhs.words, word.IsInner := by
  cases rhs with
  | expression value => exact value.isInner_of_mem
  | new object => exact object.isInner_of_mem

/-- The words of a condition and a block, after a keyword. -/
theorem isInner_of_mem_guarded {keyword : Kind} (h : keyword ≠ .eof) {condition body : List Word}
    (hcondition : ∀ word ∈ condition, word.IsInner) (hbody : ∀ word ∈ body, word.IsInner) :
    ∀ word ∈ Word.ofKind keyword :: (wordsInParens condition ++ wordsInBraces body),
      word.IsInner :=
  List.forall_mem_cons.mpr ⟨Word.isInner_ofKind h, List.forall_mem_append.mpr
    ⟨isInner_of_mem_wordsInParens hcondition, isInner_of_mem_wordsInBraces hbody⟩⟩

mutual

theorem Statement.isInner_of_mem : ∀ (s : Statement), ∀ word ∈ s.words, word.IsInner
  | .while condition body =>
    isInner_of_mem_guarded (by decide) condition.isInner_of_mem (isInner_of_mem_wordsOfAll body)
  | .if condition body =>
    isInner_of_mem_guarded (by decide) condition.isInner_of_mem (isInner_of_mem_wordsOfAll body)
  | .return value =>
    List.forall_mem_cons.mpr ⟨Word.isInner_ofKind (by decide), value.isInner_of_mem⟩
  | .assign name rhs =>
    List.forall_mem_cons.mpr ⟨Word.isInner_mk rfl name,
      List.forall_mem_cons.mpr ⟨Word.isInner_single "=", rhs.isInner_of_mem⟩⟩
  | .new object => object.isInner_of_mem

theorem Statement.isInner_of_mem_wordsOfAll :
    ∀ (ss : List Statement), ∀ word ∈ Statement.wordsOfAll ss, word.IsInner
  | [] => by simp [Statement.wordsOfAll]
  | s :: ss => by
    simpa [Statement.wordsOfAll, or_imp, forall_and] using
      ⟨s.isInner_of_mem, Statement.isInner_of_mem_wordsOfAll ss⟩

end

/-! ## Forms -/

/-- What is assigned, as it is read. -/
def Rhs.form : Form Rhs where
  words := Rhs.words
  fits := Rhs.Fits
  stops following rhs := rhs.StopsBefore following
  fits_mono hle h := ⟨Nat.le_trans h.1 hle, h.2⟩
  exists_tokens := ⟨[⟨.ofKind .null, .null, .null⟩], .expression (.literal .null _), rfl⟩

namespace Statement

/-- Statements, as they are read. -/
def form : Form Statement where
  words := Statement.words
  fits := Statement.Fits
  stops following s := s.StopsBefore following
  fits_mono hle h := ⟨Nat.le_trans h.1 hle, h.2⟩
  exists_tokens := ⟨[⟨.ofKind .returnWord, .null, .null⟩, ⟨.ofKind .null, .null, .null⟩],
    .return (.literal .null _), rfl⟩

/-- The statements of a block, as they are read. -/
def seriesForm : Form (Series Statement) := form.run (·.isSingle "\x7d")

/-- Blocks, as they are read. -/
def blockForm : Form (List Statement) where
  words := Statement.wordsOfBlock
  fits := Statement.BlockFits
  stops _ _ := True
  fits_mono hle h := ⟨Nat.le_trans h.1 hle, h.2⟩
  exists_tokens :=
    ⟨[⟨.single "\x7b", .null, .null⟩, ⟨.single "\x7d", .null, .null⟩], [], rfl⟩

/-- The statements that start with a word of kind `kind`, after their level was opened. -/
def readingOf (kind : Kind) (h : ∃ s : Statement, s.firstKind = kind) : Reading Statement :=
  form.reading.inside.only (·.firstKind = kind) <| by
    obtain ⟨s, hs⟩ := h
    obtain ⟨tokens, htokens⟩ := exists_normals_eq fun word hword => (s.isInner_of_mem word hword).1
    exact ⟨tokens, s, htokens, hs⟩

end Statement

section

variable {levels more : Nat} {expression expression' : Routine Expression}
  {block block' : String → Routine (List Statement)}

/-! ## Kinds of statements -/

/-- The routine for what is assigned reads this. -/
theorem Rhs.reads (h : Reads levels more expression expression' Expression.form.reading) :
    Reads levels more (parse expression) (parse expression') form.reading := by
  refine ReadsAfter.enter _ (Reads.congr (.bind (.peek h.le) fun next => .ite
    (.bind (NewObject.reads h) fun object => .pure h.le (Rhs.new object))
    (.bind h fun value => .pure h.le (Rhs.expression value))) ?_ ?_)
  · rintro _ rhs ⟨next, _, back, rfl, rfl, hrhs⟩
    dsimp only at hrhs
    split at hrhs
    · obtain ⟨object, front, _, rfl, hwords, rfl, rfl⟩ := hrhs
      rwa [List.append_nil]
    · obtain ⟨value, front, _, rfl, hwords, rfl, rfl⟩ := hrhs
      rwa [List.append_nil]
  · intro levels tokens rhs following
    constructor
    · rintro ⟨next, _, back, rfl, ⟨rfl, hnext⟩, hrhs⟩
      dsimp only at hrhs
      split at hrhs
      · obtain ⟨object, front, _, rfl, hacc, rfl, rfl⟩ := hrhs
        rwa [List.append_nil]
      · obtain ⟨value, front, _, rfl, hacc, rfl, rfl⟩ := hrhs
        rwa [List.append_nil]
    · rintro ⟨hwords, hfits, hstop⟩
      cases rhs with
      | new object =>
        obtain ⟨token, back, rfl, htoken, -⟩ := normals_eq_cons.mp hwords
        rw [Word.normal_eq_ofKind rfl] at htoken
        refine ⟨token, [], token :: back, rfl, ⟨rfl, rfl⟩, ?_⟩
        dsimp only
        rw [if_pos (by simp [Token.isKind, htoken])]
        exact ⟨object, token :: back, [], (List.append_nil _).symm, ⟨hwords, hfits, hstop⟩, rfl, rfl⟩
      | expression value =>
        obtain ⟨word, others, hword, hkind⟩ := value.words_eq_cons
        obtain ⟨token, back, rfl, htoken, -⟩ := normals_eq_cons.mp (hwords.trans hword)
        have hne : token.kind ≠ .newWord := by
          rw [← Word.kind_normal, htoken]
          exact hkind.ne (by decide)
        refine ⟨token, [], token :: back, rfl, ⟨rfl, rfl⟩, ?_⟩
        dsimp only
        rw [if_neg (by simp [Token.isKind, hne])]
        exact ⟨value, token :: back, [], (List.append_nil _).symm, ⟨hwords, hfits, hstop⟩, rfl, rfl⟩

namespace Statement

/-- What is read are the statements that start with a word of kind `kind`. -/
theorem reads_readingOf {kind : Kind} {hkind : ∃ s : Statement, s.firstKind = kind}
    {routine full : Routine Statement} {reading : Reading Statement}
    (h : Reads levels more routine full reading)
    (hwords : ∀ {tokens s}, reading.admits tokens s → normals tokens = s.words ∧ s.firstKind = kind)
    (hholds : ∀ {levels tokens s following}, reading.accepts levels tokens s following →
      s.Fits (levels + 1) ∧ s.StopsBefore following)
    (haccepts : ∀ {levels tokens s following},
      (readingOf kind hkind).accepts levels tokens s following →
        reading.accepts levels tokens s following) :
    Reads levels more routine full (readingOf kind hkind) :=
  h.congr_and and_right_comm hwords hholds haccepts

/-- The routine for returns reads returns. -/
theorem return_reads (h : Reads levels more expression expression' Expression.form.reading) :
    Reads levels more (parseReturn expression) (parseReturn expression')
      (readingOf .returnWord ⟨.return (.literal .null ""), rfl⟩) := by
  refine ReadsAfter.enter _ (reads_readingOf (.bind (.expect h.le .returnWord _) fun _ =>
    .bind h fun value => .pure h.le (Statement.return value)) ?_ ?_ ?_)
  · rintro _ s ⟨token, _, _, rfl, ⟨rfl, htoken⟩, value, back, _, rfl, hwords, rfl, rfl⟩
    refine ⟨?_, rfl⟩
    have hwords : normals back = value.words := hwords
    show normals _ = Word.ofKind .returnWord :: value.words
    rw [List.append_nil, ← hwords, ← (Word.normal_eq_ofKind rfl).mpr htoken]
    rfl
  · rintro levels _ s following ⟨_, _, _, rfl, -, value, back, _, rfl, ⟨-, hfits, hstop⟩, rfl, rfl⟩
    exact ⟨fits_return.mpr hfits, hstop⟩
  · rintro levels tokens s following ⟨⟨hwords, hfits, hstop⟩, hkind⟩
    cases s with
    | «return» value =>
      obtain ⟨token, back, rfl, htoken, hback⟩ := normals_eq_cons.mp hwords
      rw [Word.normal_eq_ofKind rfl] at htoken
      exact ⟨token, [token], back, rfl, ⟨rfl, htoken⟩, value, back, [], (List.append_nil _).symm,
        ⟨hback, fits_return.mp hfits, hstop⟩, rfl, rfl⟩
    | _ => cases hkind

/-- The routine for assignments reads assignments. -/
theorem assignment_reads (h : Reads levels more expression expression' Expression.form.reading) :
    Reads levels more (parseAssignment expression) (parseAssignment expression')
      (readingOf .name ⟨.assign "" (.new ⟨"", []⟩), rfl⟩) := by
  refine ReadsAfter.enter _ (reads_readingOf (.bind (.expect h.le .name _) fun name =>
    .bind (.expectSingle h.le "=" _) fun _ => .bind (Rhs.reads h) fun rhs =>
      .pure h.le (Statement.assign name.text rhs)) ?_ ?_ ?_)
  · rintro _ s ⟨name, _, _, rfl, ⟨rfl, hname⟩, token, _, _, rfl, ⟨rfl, htoken⟩, rhs, back, _, rfl,
      hwords, rfl, rfl⟩
    have hwords : normals back = rhs.words := hwords
    have hname := Word.normal_of_kind_eq rfl hname
    refine ⟨?_, rfl⟩
    show normals _ = ⟨.name, name.text⟩ :: Word.single "=" :: rhs.words
    rw [List.append_nil, ← hwords, ← hname, ← Word.normal_eq_single.mpr htoken]
    rfl
  · rintro levels _ s following ⟨_, _, _, rfl, -, _, _, _, rfl, -, rhs, back, _, rfl,
      ⟨-, hfits, hstop⟩, rfl, rfl⟩
    exact ⟨fits_assign.mpr hfits, hstop⟩
  · rintro levels tokens s following ⟨⟨hwords, hfits, hstop⟩, hkind⟩
    cases s with
    | assign text rhs =>
      obtain ⟨name, _, rfl, hname, hrest⟩ := normals_eq_cons.mp hwords
      obtain ⟨token, back, rfl, htoken, hback⟩ := normals_eq_cons.mp hrest
      rw [Word.normal_eq_mk rfl] at hname
      rw [Word.normal_eq_single] at htoken
      refine ⟨name, [name], token :: back, rfl, ⟨rfl, congrArg Word.kind hname⟩, token, [token],
        back, rfl, ⟨rfl, htoken⟩, rhs, back, [], (List.append_nil _).symm,
        ⟨hback, fits_assign.mp hfits, hstop⟩, rfl, ?_⟩
      rw [congrArg Word.text hname]
    | _ => cases hkind

/-- The routine for the body of a loop or condition reads a block. -/
theorem loopBody_reads (hblock : ∀ production, Reads levels more (block production)
      (block' production) blockForm.reading) :
    Reads levels more (parseLoopBody block) (parseLoopBody block') blockForm.reading :=
  ReadsAfter.enter _ (hblock _)

/-- The routine for a kind of statement with a condition and a body reads this kind. -/
theorem guarded_reads (production : Production) {keyword : Kind}
    {make : Expression → List Statement → Statement} (hkeyword : keyword.isBare = true)
    (hmake : ∀ s : Statement, s.firstKind = keyword ↔ ∃ condition body, s = make condition body)
    (hwords : ∀ condition body, (make condition body).words =
      .ofKind keyword :: (wordsInParens condition.words ++ wordsOfBlock body))
    (hfits : ∀ {levels condition body}, (make condition body).Fits (levels + 1) ↔
      condition.Fits levels ∧ BlockFits levels body)
    (hstops : ∀ following condition body, (make condition body).StopsBefore following)
    (h : Reads levels more expression expression' Expression.form.reading)
    (hblock : ∀ production, Reads levels more (block production) (block' production)
      blockForm.reading) (hkind : ∃ s : Statement, s.firstKind = keyword) :
    Reads levels more (parseGuarded production keyword make expression block)
      (parseGuarded production keyword make expression' block') (readingOf keyword hkind) := by
  refine ReadsAfter.enter _ (reads_readingOf (.bind (.expect h.le keyword _) fun _ =>
    .bind (.expectSingle h.le "(" _) fun _ => .bind h fun condition =>
      .bind (.expectSingle h.le ")" _) fun _ => .bind (loopBody_reads hblock) fun body =>
        .pure h.le (make condition body)) ?_ ?_ ?_)
  · rintro _ s ⟨token, _, _, rfl, ⟨rfl, htoken⟩, paren, _, _, rfl, ⟨rfl, hparen⟩, condition, front,
      _, rfl, hcondition, paren', _, _, rfl, ⟨rfl, hparen'⟩, body, back, _, rfl, hbody, rfl, rfl⟩
    refine ⟨?_, (hmake _).mpr ⟨_, _, rfl⟩⟩
    have hcondition : normals front = condition.words := hcondition
    have hbody : normals back = wordsOfBlock body := hbody
    have htoken := (Word.normal_eq_ofKind hkeyword).mpr htoken
    show normals _ = (make condition body).words
    simp [hwords, wordsInParens, htoken, hparen, hparen', hcondition, hbody]
  · rintro levels _ s following ⟨_, _, _, rfl, -, _, _, _, rfl, -, condition, front, _, rfl,
      ⟨-, hfits', -⟩, _, _, _, rfl, -, body, back, _, rfl, ⟨-, hfits'', -⟩, rfl, rfl⟩
    exact ⟨hfits.mpr ⟨hfits', hfits''⟩, hstops _ _ _⟩
  · rintro levels tokens s following ⟨⟨htokens, hfits', -⟩, hkind⟩
    obtain ⟨condition, body, rfl⟩ := (hmake s).mp hkind
    obtain ⟨token, _, rfl, htoken, hrest⟩ :=
      normals_eq_cons.mp (htokens.trans (hwords condition body))
    obtain ⟨_, back, rfl, hrest, hbody⟩ := normals_eq_append.mp hrest
    obtain ⟨paren, _, rfl, hparen, hrest⟩ := normals_eq_cons.mp hrest
    obtain ⟨front, _, rfl, hcondition, hrest⟩ := normals_eq_append.mp hrest
    obtain ⟨paren', _, rfl, hparen', hrest⟩ := normals_eq_cons.mp hrest
    obtain rfl := normals_eq_nil.mp hrest
    rw [Word.normal_eq_ofKind hkeyword] at htoken
    rw [Word.normal_eq_single] at hparen hparen'
    obtain ⟨hfits', hfits''⟩ := hfits.mp hfits'
    exact ⟨token, [token], _, rfl, ⟨rfl, htoken⟩, paren, [paren], _, rfl, ⟨rfl, hparen⟩,
      condition, front, paren' :: back, by simp,
      ⟨hcondition, hfits', condition.stopsBefore_of_isSingle (Word.isSingle_iff.mpr hparen')
        (by decide) (by decide)⟩,
      paren', [paren'], back, rfl, ⟨rfl, hparen'⟩, body, back, [], (List.append_nil _).symm,
      ⟨hbody, hfits'', trivial⟩, rfl, rfl⟩

/-- The routine for loops reads loops. -/
theorem while_reads (h : Reads levels more expression expression' Expression.form.reading)
    (hblock : ∀ production, Reads levels more (block production) (block' production)
      blockForm.reading) :
    Reads levels more (parseWhile expression block) (parseWhile expression' block')
      (readingOf .whileWord ⟨.while (.literal .null "") [], rfl⟩) := by
  refine guarded_reads _ rfl ?_ ?_ fits_while (fun _ _ _ => trivial) h hblock _
  · intro s
    cases s <;> simp [firstKind]
  · intro condition body
    rw [Statement.words, wordsOfAll_eq]
    rfl

/-- The routine for conditions reads conditions. -/
theorem if_reads (h : Reads levels more expression expression' Expression.form.reading)
    (hblock : ∀ production, Reads levels more (block production) (block' production)
      blockForm.reading) :
    Reads levels more (parseIf expression block) (parseIf expression' block')
      (readingOf .ifWord ⟨.if (.literal .null "") [], rfl⟩) := by
  refine guarded_reads _ rfl ?_ ?_ fits_if (fun _ _ _ => trivial) h hblock _
  · intro s
    cases s <;> simp [firstKind]
  · intro condition body
    rw [Statement.words, wordsOfAll_eq]
    rfl

/-- The routine for new objects, where it stands for a statement, reads these statements. -/
theorem new_reads (h : Reads levels more expression expression' Expression.form.reading) :
    Reads levels more (NewObject.parse expression >>= fun object => pure (Statement.new object))
      (NewObject.parse expression' >>= fun object => pure (Statement.new object))
      (readingOf .newWord ⟨.new ⟨"", []⟩, rfl⟩) := by
  refine Reads.congr (.bind (NewObject.reads h) fun object => .pure h.le _) ?_ ?_
  · rintro _ s ⟨object, front, _, rfl, hwords, rfl, rfl⟩
    rw [List.append_nil]
    exact ⟨hwords, rfl⟩
  · intro levels tokens s following
    constructor
    · rintro ⟨object, front, _, rfl, ⟨hwords, hfits, -⟩, rfl, rfl⟩
      rw [List.append_nil]
      exact ⟨⟨hwords, fits_new.mpr hfits, trivial⟩, rfl⟩
    · rintro ⟨⟨hwords, hfits, -⟩, hkind⟩
      cases s with
      | new object =>
        exact ⟨object, tokens, [], (List.append_nil _).symm,
          ⟨hwords, fits_new.mp hfits, trivial⟩, rfl, rfl⟩
      | _ => cases hkind

/-! ## Statements -/

/-- The first token of a statement tells its kind. -/
theorem firstKind_of_first {token : Token} {tokens : List Token} {s : Statement}
    {sequence rest : Stream' Token} (hseq : [token] ++ₛ sequence = tokens ++ₛ rest)
    (hwords : normals tokens = s.words) : s.firstKind = token.kind := by
  obtain ⟨word, others, hword, hkind⟩ := s.words_eq_cons
  obtain ⟨back, rfl, htoken, -⟩ := exists_of_normals_eq_cons hseq (hwords.trans hword)
  rw [← hkind, ← htoken, Word.kind_normal]

/-- A token that was handed back tells which kind of statement is read. -/
theorem kindAt_reads {token : Token} {kind : Kind} {routine full : Routine Statement}
    {hkind : ∃ s : Statement, s.firstKind = kind}
    (h : Reads levels more routine full (readingOf kind hkind)) (htoken : token.kind = kind) :
    ReadsAfter [token] levels more (Routine.pushBack token >>= fun _ => routine)
      (Routine.pushBack token >>= fun _ => full) form.reading.inside := by
  refine .weaken (.of_handsBack [] (Routine.pushBack_handsBack token _)
    (Routine.pushBack_handsBack token _) h) ?_ ?_
  · rintro _ s ⟨tokens, rfl, hwords, -⟩
    exact hwords
  · intro levels tokens s sequence rest hseq
    constructor
    · rintro ⟨_, rfl, hacc, -⟩
      exact hacc
    · intro hacc
      exact ⟨tokens, rfl, hacc, (firstKind_of_first hseq hacc.1).trans htoken⟩

/-- What a statement is shows in its first token. -/
theorem opened_reads (h : Reads levels more expression expression' Expression.form.reading)
    (hblock : ∀ production, Reads levels more (block production) (block' production)
      blockForm.reading) :
    Reads levels more (parseOpened expression block) (parseOpened expression' block')
      form.reading.inside := by
  refine ReadsAfter.next_bind fun token => ?_
  cases hkind : token.kind with
  | whileWord => exact kindAt_reads (while_reads h hblock) hkind
  | ifWord => exact kindAt_reads (if_reads h hblock) hkind
  | returnWord => exact kindAt_reads (return_reads h) hkind
  | newWord => exact kindAt_reads (new_reads h) hkind
  | name => exact kindAt_reads (assignment_reads h) hkind
  | _ =>
    refine .fail h.le ⟨rfl, rfl⟩ form.exists_tokens ?_
    rintro sequence tokens s rest hseq ⟨hwords, -⟩
    have hfirst := firstKind_of_first hseq hwords
    rw [hkind] at hfirst
    cases s <;> cases hfirst

/-! ## Blocks -/

/-- The routine for the statements of a block reads these. -/
theorem series_reads {statement statement' : Routine Statement}
    (h : Reads levels more statement statement' form.reading) :
    Reads levels more (parseSeries statement) (parseSeries statement') seriesForm.reading := by
  refine ReadsAfter.enter _ (Reads.run h isInner_of_mem ?_ ?_)
  · intro following s hclose
    exact s.stopsBefore_of_continuesThis_eq_false
      (continuesThis_eq_false_of_isSingle hclose (by decide) (by decide))
  · intro tokens s hwords
    obtain ⟨word, others, hword, hkind⟩ := s.words_eq_cons
    obtain ⟨token, rest, rfl, htoken, -⟩ := normals_eq_cons.mp (hwords.trans hword)
    have hne : token.kind ≠ .single := by
      rw [← Word.kind_normal, htoken, hkind]
      exact s.firstKind_ne_single
    exact ⟨token, rest, rfl, isSingle_eq_false_of_kind_ne hne _, fun before =>
      before.stopsBefore_of_continuesThis_eq_false (continuesThis_eq_false_of_kind_ne hne)⟩

/-- What a block is, after its level was opened. -/
theorem braced_reads {statement statement' : Routine Statement}
    (h : Reads levels more statement statement' form.reading) (production : String) :
    Reads levels more (parseBraced statement production) (parseBraced statement' production)
      blockForm.reading.inside := by
  refine Reads.congr (Reads.between production (series_reads h) id ?_) ?_ ?_
  · intro tokens series hwords
    obtain ⟨word, others, hword, hkind⟩ := series.first.words_eq_cons
    have hwords : normals tokens = word :: (others ++ wordsOfRun Statement.words series.rest) := by
      rw [← List.cons_append, ← hword]
      exact hwords
    obtain ⟨token, rest, rfl, htoken, -⟩ := normals_eq_cons.mp hwords
    refine ⟨token, rest, rfl, isSingle_eq_false_of_kind_ne ?_ _⟩
    rw [← Word.kind_normal, htoken, hkind]
    exact series.first.firstKind_ne_single
  · intro tokens body hwords
    exact Eq.trans hwords (form.words_between_run _ _ _ body)
  · intro levels tokens body following
    constructor
    · rintro ⟨hwords, hfits, -⟩
      exact ⟨hwords.trans (form.words_between_run _ _ _ body),
        blockFits_iff.mpr (Form.fits_between_run.mp hfits), trivial⟩
    · rintro ⟨hwords, hfits, -⟩
      exact ⟨hwords.trans (form.words_between_run _ _ _ body).symm,
        Form.fits_between_run.mpr (blockFits_iff.mp hfits), trivial⟩

/-- The routines for statements and blocks read these. -/
theorem reads_and_block_reads {levels more : Nat} (hle : levels ≤ more) :
    Reads levels more (parse levels) (parse more) form.reading ∧
      ∀ production, Reads levels more (parseBlock levels production) (parseBlock more production)
        blockForm.reading := by
  induction more using Nat.strongRecOn generalizing levels with
  | ind more ih =>
    constructor
    · refine Reads.of_inside parse (fun n => parseOpened (Expression.parse n) (parseBlock n))
        (Routine.enter_resembles _ _) (fun _ => Routine.enter_resembles _ _) ?_ hle ?_
      · rintro tokens s following ⟨-, hfits, -⟩
        exact not_fits_zero hfits
      · intro n m hnm hm
        exact opened_reads (Expression.reads hnm) (ih m hm hnm).2
    · intro production
      refine Reads.of_inside (parseBlock · production) (fun n => parseBraced (parse n) production)
        (.refl _) (fun _ => .refl _) ?_ hle ?_
      · rintro tokens body following ⟨-, hfits, -⟩
        exact not_blockFits_zero hfits
      · intro n m hnm hm
        exact braced_reads (ih m hm hnm).1 production

theorem reads {levels more : Nat} (hle : levels ≤ more) :
    Reads levels more (parse levels) (parse more) form.reading :=
  (reads_and_block_reads hle).1

theorem block_reads {levels more : Nat} (hle : levels ≤ more) (production : String) :
    Reads levels more (parseBlock levels production) (parseBlock more production)
      blockForm.reading :=
  (reads_and_block_reads hle).2 production

end Statement

end

end FrappeSyntax
