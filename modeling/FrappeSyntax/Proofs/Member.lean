import FrappeSyntax.Proofs.Statement
import FrappeSyntax.Program.Parser

/-!
# Reading members

Which member comes next shows in its first three tokens at most: in `static`, a name or a class
name, and for the first two in whether an opening parenthesis comes after the name. All tokens taken
for this are handed back, and the routine for the member takes them again.

* `Method.reads`, `Member.reads`, `Member.series_reads`: the routines for methods, members and series
  of members read these.
* `Member.staticField_reads`, `Member.staticMethod_reads`, `Member.instanceField_reads`,
  `Member.namedMethod_reads`: the routines for the kinds of members.
-/

namespace FrappeSyntax

/-! ## Words -/

theorem Statement.isInner_of_mem_wordsOfBlock (body : List Statement) :
    ∀ word ∈ Statement.wordsOfBlock body, word.IsInner :=
  isInner_of_mem_wordsInBraces (isInner_of_mem_wordsOfRun Statement.isInner_of_mem body)

theorem Method.isInner_of_mem_wordsOfParam (name : String) :
    ∀ word ∈ Method.wordsOfParam name, word.IsInner := by
  simpa [Method.wordsOfParam] using Word.isInner_mk rfl name

theorem Method.isInner_of_mem (method : Method) : ∀ word ∈ method.words, word.IsInner :=
  List.forall_mem_append.mpr
    ⟨isInner_of_mem_wordsInParens
        (isInner_of_mem_wordsOfSeparated isInner_of_mem_wordsOfParam method.params),
      Statement.isInner_of_mem_wordsOfBlock method.body⟩

namespace Member

/-- The kind of word that a member starts with. -/
def firstKind : Member → Kind
  | staticField .. | staticMethod .. => .staticWord
  | instanceField _ | instanceMethod .. => .name
  | constructor .. => .className

theorem isInner_of_mem (member : Member) : ∀ word ∈ member.words, word.IsInner := by
  have hstatic : (Word.ofKind .staticWord).IsInner := Word.isInner_ofKind (by decide)
  match member with
  | staticField name none => simpa [words] using ⟨hstatic, Word.isInner_mk rfl name⟩
  | staticField name (some initializer) =>
    simpa [words] using
      ⟨hstatic, Word.isInner_mk rfl name, Word.isInner_single "=", initializer.isInner_of_mem⟩
  | staticMethod name method =>
    simpa [words] using ⟨hstatic, Word.isInner_mk rfl name, method.isInner_of_mem⟩
  | instanceField name => simpa [words] using Word.isInner_mk rfl name
  | instanceMethod name method =>
    simpa [words] using ⟨Word.isInner_mk rfl name, method.isInner_of_mem⟩
  | constructor name method =>
    simpa [words] using ⟨Word.isInner_mk rfl name, method.isInner_of_mem⟩

/-- The first word of a member has one of the kinds that start a member. -/
theorem words_eq_cons (member : Member) : ∃ word rest, member.words = word :: rest ∧
    word.kind = member.firstKind := by
  match member with
  | staticField _ none | staticField _ (some _) | staticMethod .. | instanceField _
  | instanceMethod .. | constructor .. => exact ⟨_, _, rfl, rfl⟩

theorem firstKind_ne_single (member : Member) : member.firstKind ≠ .single := by
  cases member <;> simp [firstKind]

end Member

/-! ## Methods -/

namespace Method

/-- Parameters, as they are read. -/
def paramForm : Form String where
  words := wordsOfParam
  fits _ _ := True
  stops _ _ := True
  fits_mono _ h := h
  exists_tokens := ⟨[⟨⟨.name, ""⟩, .null, .null⟩], "", rfl⟩

/-- The parameters of a method, as they are read. -/
def paramsForm : Form (Series String) := paramForm.separated ","

/-- The parameters and the body of a method, as they are read. -/
def form : Form Method where
  words := Method.words
  fits levels method := Statement.BlockFits levels method.body
  stops _ _ := True
  fits_mono hle h := Statement.blockForm.fits_mono hle h
  exists_tokens := by
    obtain ⟨tokens, h⟩ := exists_normals_eq fun word hword =>
      ((⟨[], []⟩ : Method).isInner_of_mem word hword).1
    exact ⟨tokens, _, h⟩

section

variable {levels more : Nat}

/-- The routine for a parameter reads a name. -/
theorem param_reads (hle : levels ≤ more) (production : String) :
    Reads levels more (do pure (← Routine.expect .name production).text)
      (do pure (← Routine.expect .name production).text) paramForm.reading := by
  refine Reads.form (.bind (.expect hle .name _) fun name => .pure hle name.text) ?_ ?_ ?_
  · rintro _ text ⟨name, _, _, rfl, ⟨rfl, hname⟩, rfl, rfl⟩
    exact congrArg (· :: []) (Word.normal_of_kind_eq rfl hname)
  · intro _ _ _ _ _
    exact ⟨trivial, trivial⟩
  · rintro levels tokens text following ⟨hwords, -, -⟩
    obtain ⟨name, back, rfl, hname, hback⟩ := normals_eq_cons.mp hwords
    obtain rfl := normals_eq_nil.mp hback
    rw [Word.normal_eq_mk rfl] at hname
    refine ⟨name, [name], [], rfl, ⟨rfl, congrArg Word.kind hname⟩, rfl, ?_⟩
    rw [congrArg Word.text hname]

/-- The routine for parameters reads parameters. -/
theorem params_reads (hle : levels ≤ more) :
    Reads levels more parseParams parseParams paramsForm.reading :=
  ReadsAfter.enter _ (Reads.separated (param_reads hle _) isInner_of_mem_wordsOfParam
    fun _ => trivial)

/-- The routine for the body of a method reads a block. -/
theorem body_reads (hle : levels ≤ more) :
    Reads levels more (parseBody levels) (parseBody more) Statement.blockForm.reading :=
  ReadsAfter.enter _ (Statement.block_reads hle _)

/-- The routine for the parameters and the body of a method reads these. -/
theorem reads (hle : levels ≤ more) :
    Reads levels more (parse levels) (parse more) form.reading := by
  have hparams : Reads levels more
      (Series.parseBetween "(" ")" Production.restOfMethod.label parseParams)
      (Series.parseBetween "(" ")" Production.restOfMethod.label parseParams)
      (paramsForm.between "(" ")").reading := by
    refine Reads.between _ (params_reads hle) ?_ ?_
    · intro following series hclose
      exact ⟨trivial, isSingle_eq_false_of_isSingle hclose (by decide)⟩
    · intro tokens series hwords
      obtain ⟨name, back, rfl, hname, -⟩ := normals_eq_cons.mp hwords
      refine ⟨name, back, rfl, isSingle_eq_false_of_kind_ne ?_ _⟩
      rw [← Word.kind_normal, hname]
      exact Kind.noConfusion
  refine ReadsAfter.enter _ (Reads.form (.bind hparams fun params =>
    .bind (body_reads hle) fun body => .pure hle (Method.mk params body)) ?_ ?_ ?_)
  · rintro _ method ⟨params, front, _, rfl, hparams, body, back, _, rfl, hbody, rfl, rfl⟩
    have hparams : normals front = (paramsForm.between "(" ")").words params := hparams
    have hbody : normals back = Statement.wordsOfBlock body := hbody
    show normals _ = Method.words _
    rw [normals_append, List.append_nil, hparams, hbody, paramsForm, Form.words_between_separated]
    rfl
  · rintro levels _ method following ⟨_, _, _, rfl, -, body, _, _, rfl, ⟨-, hfits, -⟩, rfl, rfl⟩
    exact ⟨hfits, trivial⟩
  · rintro levels tokens method following ⟨hwords, hfits, -⟩
    obtain ⟨front, back, rfl, hparams, hbody⟩ := normals_eq_append.mp hwords
    refine ⟨method.params, front, back, rfl, ⟨?_, ?_, trivial⟩, method.body, back, [],
      (List.append_nil _).symm, ⟨hbody, hfits, trivial⟩, rfl, rfl⟩
    · rw [hparams, paramsForm, Form.words_between_separated]
      rfl
    · exact Form.fits_between_separated.mpr fun _ _ => trivial

end

end Method

/-! ## Kinds of members -/

namespace Member

/-- Members, as they are read. -/
def form : Form Member where
  words := Member.words
  fits := Member.Fits
  stops following member := member.StopsBefore following
  fits_mono hle h := ⟨Nat.le_trans h.1 hle, h.2⟩
  exists_tokens := ⟨[⟨⟨.name, ""⟩, .null, .null⟩], .instanceField "", rfl⟩

/-- Members, as the routines for their kinds read them. -/
def bodyForm : Form Member where
  words := Member.words
  fits := Member.Fits
  stops following member := member.BodyStopsBefore following
  fits_mono hle h := ⟨Nat.le_trans h.1 hle, h.2⟩
  exists_tokens := ⟨[⟨⟨.name, ""⟩, .null, .null⟩], .instanceField "", rfl⟩

/-- The members that a production gives. -/
def readingOf (production : Production) (h : ∃ m : Member, m.production = production) :
    Reading Member :=
  bodyForm.reading.only (·.production = production) <| by
    obtain ⟨m, hm⟩ := h
    obtain ⟨tokens, htokens⟩ := exists_normals_eq fun word hword => (m.isInner_of_mem word hword).1
    exact ⟨tokens, m, htokens, hm⟩

/-- What may follow the name of a static field, as it is read. -/
def initializerForm : Form (Option Expression) where
  words
    | none => []
    | some initializer => .single "=" :: initializer.words
  fits levels initializer := ∀ e ∈ initializer, e.Fits levels
  stops following
    | none => following.isSingle "=" = false
    | some initializer => initializer.StopsBefore following
  fits_mono hle h e he := Expression.form.fits_mono hle (h e he)
  exists_tokens := ⟨[], none, rfl⟩

section

variable {levels more : Nat}

/-- The routine for what follows the name of a static field reads this. -/
theorem initializer_reads (hle : levels ≤ more) (name : String) :
    Reads levels more (parseInitializer levels name) (parseInitializer more name)
      (initializerForm.reading.bind fun initializer => .pure (.staticField name initializer)) := by
  refine ReadsAfter.next_bind fun token => ?_
  cases hvalue : token.isSingle "=" with
  | true =>
    have hword : token.toWord.normal = .single "=" :=
      Word.normal_eq_single.mpr (Word.isSingle_iff.mp hvalue)
    refine .weaken (.of_reads [token] (Reads.bind (Expression.reads hle) fun initializer =>
      Reads.pure hle (Member.staticField name (some initializer)))) ?_ ?_
    · rintro _ member ⟨_, rfl, e, front, _, rfl, hwords, rfl, rfl⟩
      have hwords : normals front = e.words := hwords
      refine ⟨some e, token :: front, [], by simp, ?_, rfl, rfl⟩
      show normals _ = .single "=" :: e.words
      rw [normals_cons, hword, hwords]
    · intro levels tokens member s rest hseq
      constructor
      · rintro ⟨_, rfl, e, front, _, rfl, ⟨hwords, hfits, hstop⟩, rfl, rfl⟩
        refine ⟨some e, token :: front, [], by simp, ⟨?_, ?_, hstop⟩, rfl, rfl⟩
        · show normals _ = .single "=" :: e.words
          rw [normals_cons, hword, hwords]
          rfl
        · rintro _ ⟨⟩
          exact hfits
      · rintro ⟨initializer, front, _, rfl, ⟨hwords, hfits, hstop⟩, rfl, rfl⟩
        rw [List.append_nil] at hseq ⊢
        cases initializer with
        | none =>
          obtain rfl := normals_eq_nil.mp hwords
          have hhead : token = rest.head := congrArg Stream'.head hseq
          have hstop : rest.head.isSingle "=" = false := hstop
          rw [← hhead, hvalue] at hstop
          cases hstop
        | some e =>
          obtain ⟨back, rfl, -, hback⟩ := exists_of_normals_eq_cons hseq hwords
          exact ⟨back, rfl, e, back, [], (List.append_nil _).symm, ⟨hback, hfits e rfl, hstop⟩, rfl,
            rfl⟩
  | false =>
    refine .weaken (.of_handsBack [] (Routine.pushBack_handsBack token _)
      (Routine.pushBack_handsBack token _) (Reads.pure hle (Member.staticField name none))) ?_ ?_
    · rintro _ member ⟨_, rfl, rfl, rfl⟩
      exact ⟨none, [], [], rfl, rfl, rfl, rfl⟩
    · intro levels tokens member s rest hseq
      constructor
      · rintro ⟨_, rfl, rfl, rfl⟩
        have hhead : token = rest.head := congrArg Stream'.head hseq
        rw [hhead] at hvalue
        exact ⟨none, [], [], rfl, ⟨rfl, by simp [initializerForm], hvalue⟩, rfl, rfl⟩
      · rintro ⟨initializer, front, _, rfl, ⟨hwords, -, hstop⟩, rfl, rfl⟩
        rw [List.append_nil] at hseq ⊢
        cases initializer with
        | none =>
          obtain rfl := normals_eq_nil.mp hwords
          exact ⟨[], rfl, rfl, rfl⟩
        | some e =>
          obtain ⟨back, -, hfirst, -⟩ := exists_of_normals_eq_cons hseq hwords
          rw [Word.normal_eq_single, ← Word.isSingle_iff, hvalue] at hfirst
          cases hfirst

/-- What is read are the members that a production gives. -/
theorem reads_readingOf {production : Production}
    {hproduction : ∃ m : Member, m.production = production} {routine full : Routine Member}
    {reading : Reading Member} (h : Reads levels more routine full reading)
    (hwords : ∀ {tokens m}, reading.admits tokens m →
      normals tokens = m.words ∧ m.production = production)
    (hholds : ∀ {levels tokens m following}, reading.accepts levels tokens m following →
      m.Fits levels ∧ m.BodyStopsBefore following)
    (haccepts : ∀ {levels tokens m following},
      (readingOf production hproduction).accepts levels tokens m following →
        reading.accepts levels tokens m following) :
    Reads levels more routine full (readingOf production hproduction) :=
  h.congr_and and_right_comm hwords hholds haccepts

theorem fits_staticField {levels : Nat} {name : String} {initializer : Option Expression} :
    (Member.staticField name initializer).Fits levels ↔ initializerForm.fits levels initializer := by
  cases initializer with
  | none => simp [initializerForm]
  | some e => simp [initializerForm]

/-- The routine for static fields reads these. -/
theorem staticField_reads (hle : levels ≤ more) :
    Reads levels more (parseStaticField levels) (parseStaticField more)
      (readingOf .staticField ⟨.staticField "" none, rfl⟩) := by
  refine ReadsAfter.enter _ (reads_readingOf (.bind (.expect hle .staticWord _) fun _ =>
    .bind (.expect hle .name _) fun name => initializer_reads hle name.text) ?_ ?_ ?_)
  · rintro _ member ⟨token, _, _, rfl, ⟨rfl, htoken⟩, name, _, _, rfl, ⟨rfl, hname⟩, initializer,
      back, _, rfl, hwords, rfl, rfl⟩
    have htoken := (Word.normal_eq_ofKind rfl).mpr htoken
    have hname := Word.normal_of_kind_eq rfl hname
    have hwords : normals back = initializerForm.words initializer := hwords
    refine ⟨?_, rfl⟩
    show normals _ = (Member.staticField name.text initializer).words
    cases initializer <;> simp [words, htoken, hname, hwords, initializerForm]
  · rintro levels _ member following ⟨_, _, _, rfl, -, name, _, _, rfl, -, initializer, _, _, rfl,
      ⟨-, hfits, hstop⟩, rfl, rfl⟩
    refine ⟨fits_staticField.mpr hfits, ?_⟩
    cases initializer <;> exact hstop
  · rintro levels tokens member following ⟨⟨hwords, hfits, hstop⟩, hproduction⟩
    cases member with
    | staticField text initializer =>
      have hsplit : (Member.staticField text initializer).words =
          .ofKind .staticWord :: ⟨.name, text⟩ :: initializerForm.words initializer := by
        cases initializer <;> rfl
      obtain ⟨token, _, rfl, htoken, hrest⟩ := normals_eq_cons.mp (hwords.trans hsplit)
      obtain ⟨name, back, rfl, hname, hback⟩ := normals_eq_cons.mp hrest
      rw [Word.normal_eq_ofKind rfl] at htoken
      rw [Word.normal_eq_mk rfl] at hname
      refine ⟨token, [token], _, rfl, ⟨rfl, htoken⟩, name, [name], back, rfl,
        ⟨rfl, congrArg Word.kind hname⟩, initializer, back, [], (List.append_nil _).symm,
        ⟨hback, fits_staticField.mp hfits, ?_⟩, rfl, ?_⟩
      · cases initializer <;> exact hstop
      · rw [congrArg Word.text hname]
    | _ => cases hproduction

/-- The routine for instance fields reads these. -/
theorem instanceField_reads (hle : levels ≤ more) :
    Reads levels more parseInstanceField parseInstanceField
      (readingOf .instanceField ⟨.instanceField "", rfl⟩) := by
  refine ReadsAfter.enter _ (reads_readingOf (.bind (.expect hle .name _) fun name =>
    .pure hle (Member.instanceField name.text)) ?_ ?_ ?_)
  · rintro _ member ⟨name, _, _, rfl, ⟨rfl, hname⟩, rfl, rfl⟩
    exact ⟨congrArg (· :: []) (Word.normal_of_kind_eq rfl hname), rfl⟩
  · rintro levels _ member following ⟨name, _, _, rfl, -, rfl, rfl⟩
    exact ⟨fits_instanceField, trivial⟩
  · rintro levels tokens member following ⟨⟨hwords, -, -⟩, hproduction⟩
    cases member with
    | instanceField text =>
      obtain ⟨name, back, rfl, hname, hback⟩ := normals_eq_cons.mp hwords
      obtain rfl := normals_eq_nil.mp hback
      rw [Word.normal_eq_mk rfl] at hname
      refine ⟨name, [name], [], rfl, ⟨rfl, congrArg Word.kind hname⟩, rfl, ?_⟩
      rw [congrArg Word.text hname]
    | _ => cases hproduction

/-- The routine for what follows the name of a method reads this. -/
theorem method_reads (hle : levels ≤ more) (make : Method → Member) :
    Reads levels more (parseMethod levels make) (parseMethod more make)
      (Method.form.reading.bind fun method => .pure (make method)) :=
  .bind (Method.reads hle) fun _ => .pure hle _

/-- The routine for static methods reads these. -/
theorem staticMethod_reads (hle : levels ≤ more) :
    Reads levels more (parseStaticMethod levels) (parseStaticMethod more)
      (readingOf .staticMethod ⟨.staticMethod "" ⟨[], []⟩, rfl⟩) := by
  refine ReadsAfter.enter _ (reads_readingOf (.bind (.expect hle .staticWord _) fun _ =>
    .bind (.expect hle .name _) fun name => method_reads hle (.staticMethod name.text)) ?_ ?_ ?_)
  · rintro _ member ⟨token, _, _, rfl, ⟨rfl, htoken⟩, name, _, _, rfl, ⟨rfl, hname⟩, method, back, _,
      rfl, hwords, rfl, rfl⟩
    have htoken := (Word.normal_eq_ofKind rfl).mpr htoken
    have hname := Word.normal_of_kind_eq rfl hname
    have hwords : normals back = method.words := hwords
    refine ⟨?_, rfl⟩
    show normals _ = Word.ofKind .staticWord :: ⟨.name, name.text⟩ :: method.words
    rw [List.append_nil, ← hwords, ← htoken, ← hname]
    rfl
  · rintro levels _ member following ⟨_, _, _, rfl, -, _, _, _, rfl, -, method, _, _, rfl,
      ⟨-, hfits, -⟩, rfl, rfl⟩
    exact ⟨fits_staticMethod.mpr hfits, trivial⟩
  · rintro levels tokens member following ⟨⟨hwords, hfits, -⟩, hproduction⟩
    cases member with
    | staticMethod text method =>
      obtain ⟨token, _, rfl, htoken, hrest⟩ := normals_eq_cons.mp hwords
      obtain ⟨name, back, rfl, hname, hback⟩ := normals_eq_cons.mp hrest
      rw [Word.normal_eq_ofKind rfl] at htoken
      rw [Word.normal_eq_mk rfl] at hname
      refine ⟨token, [token], _, rfl, ⟨rfl, htoken⟩, name, [name], back, rfl,
        ⟨rfl, congrArg Word.kind hname⟩, method, back, [], (List.append_nil _).symm,
        ⟨hback, fits_staticMethod.mp hfits, trivial⟩, rfl, ?_⟩
      rw [congrArg Word.text hname]
    | _ => cases hproduction

/-- The routine for a kind of member that is a name and a method reads this kind. -/
theorem namedMethod_reads (hle : levels ≤ more) {production : Production} {kind : Kind}
    {make : String → Method → Member} (hkind : kind.isBare = false)
    (hmake : ∀ m : Member, m.production = production ↔ ∃ name method, m = make name method)
    (hwords : ∀ name method, (make name method).words = ⟨kind, name⟩ :: method.words)
    (hfits : ∀ {levels name method}, (make name method).Fits levels ↔
      Statement.BlockFits levels method.body)
    (hstops : ∀ following name method, (make name method).BodyStopsBefore following)
    (hproduction : ∃ m : Member, m.production = production) :
    Reads levels more (parseNamedMethod production kind make levels)
      (parseNamedMethod production kind make more) (readingOf production hproduction) := by
  refine ReadsAfter.enter _ (reads_readingOf (.bind (.expect hle kind _) fun name =>
    method_reads hle (make name.text)) ?_ ?_ ?_)
  · rintro _ member ⟨name, _, _, rfl, ⟨rfl, hname⟩, method, back, _, rfl, hback, rfl, rfl⟩
    have hback : normals back = method.words := hback
    refine ⟨?_, (hmake _).mpr ⟨_, _, rfl⟩⟩
    show normals _ = (make name.text method).words
    rw [hwords, List.append_nil, ← hback, ← Word.normal_of_kind_eq hkind hname]
    rfl
  · rintro levels _ member following ⟨name, _, _, rfl, -, method, back, _, rfl, ⟨-, hfits', -⟩, rfl,
      rfl⟩
    exact ⟨hfits.mpr hfits', hstops _ _ _⟩
  · rintro levels tokens member following ⟨⟨htokens, hfits', -⟩, hproduction⟩
    obtain ⟨text, method, rfl⟩ := (hmake member).mp hproduction
    obtain ⟨name, back, rfl, hname, hback⟩ := normals_eq_cons.mp (htokens.trans (hwords _ _))
    rw [Word.normal_eq_mk hkind] at hname
    refine ⟨name, [name], back, rfl, ⟨rfl, congrArg Word.kind hname⟩, method, back, [],
      (List.append_nil _).symm, ⟨hback, hfits.mp hfits', trivial⟩, rfl, ?_⟩
    rw [congrArg Word.text hname]

theorem instanceMethod_reads (hle : levels ≤ more) :
    Reads levels more (parseInstanceMethod levels) (parseInstanceMethod more)
      (readingOf .instanceMethod ⟨.instanceMethod "" ⟨[], []⟩, rfl⟩) := by
  refine namedMethod_reads hle rfl ?_ (fun _ _ => rfl) fits_instanceMethod (fun _ _ _ => trivial) _
  intro m
  cases m <;> simp [Member.production]

theorem constructor_reads (hle : levels ≤ more) :
    Reads levels more (parseConstructor levels) (parseConstructor more)
      (readingOf .constructor ⟨.constructor "" ⟨[], []⟩, rfl⟩) := by
  refine namedMethod_reads hle rfl ?_ (fun _ _ => rfl) fits_constructor (fun _ _ _ => trivial) _
  intro m
  cases m <;> simp [Member.production]

/-! ## Members -/

/-- The first token of a member is of a kind that starts a member. -/
theorem firstKind_of_first {token : Token} {tokens : List Token} {m : Member}
    {s rest : Stream' Token} (hseq : [token] ++ₛ s = tokens ++ₛ rest)
    (hwords : normals tokens = m.words) : m.firstKind = token.kind := by
  obtain ⟨word, others, hword, hkind⟩ := m.words_eq_cons
  obtain ⟨back, rfl, htoken, -⟩ := exists_of_normals_eq_cons hseq (hwords.trans hword)
  rw [← hkind, ← htoken, Word.kind_normal]

/-- After `static` and a name, a member goes on as a static field or a static method. -/
theorem cases_of_static {token name following : Token} {tokens : List Token} {m : Member}
    {s rest : Stream' Token}
    (hseq : [token, name, following] ++ₛ s = tokens ++ₛ rest) (hwords : normals tokens = m.words)
    (htoken : token.kind = .staticWord) :
    name.kind = .name ∧ ∃ back, tokens = token :: name :: back ∧
      following = back.headD rest.head ∧
      ((∃ initializer, m = .staticField name.text initializer ∧
          normals back = initializerForm.words initializer) ∨
        ∃ method, m = .staticMethod name.text method ∧ normals back = method.words) := by
  have hsplit : ∀ {text words}, m.words = .ofKind .staticWord :: ⟨.name, text⟩ :: words →
      name.kind = .name ∧ ∃ back, tokens = token :: name :: back ∧
        following = back.headD rest.head ∧ text = name.text ∧ normals back = words := by
    intro text words hm
    obtain ⟨back, rfl, -, hback⟩ := exists_of_normals_eq_cons hseq (hwords.trans hm)
    have hseq : [name, following] ++ₛ s = back ++ₛ rest := congrArg Stream'.tail hseq
    obtain ⟨back, rfl, hname, hback⟩ := exists_of_normals_eq_cons hseq hback
    have hseq : [following] ++ₛ s = back ++ₛ rest := congrArg Stream'.tail hseq
    rw [Word.normal_eq_mk rfl] at hname
    refine ⟨congrArg Word.kind hname, back, rfl, ?_, (congrArg Word.text hname).symm, hback⟩
    rw [← head_append_stream, ← hseq]
    rfl
  have hkind := firstKind_of_first hseq hwords
  rw [htoken] at hkind
  cases m with
  | staticField text initializer =>
    have hm : (staticField text initializer).words =
        .ofKind .staticWord :: ⟨.name, text⟩ :: initializerForm.words initializer := by
      cases initializer <;> rfl
    obtain ⟨hname, back, hback, hfollowing, rfl, hrest⟩ := hsplit hm
    exact ⟨hname, back, hback, hfollowing, .inl ⟨initializer, rfl, hrest⟩⟩
  | staticMethod text method =>
    obtain ⟨hname, back, hback, hfollowing, rfl, hrest⟩ := hsplit rfl
    exact ⟨hname, back, hback, hfollowing, .inr ⟨method, rfl, hrest⟩⟩
  | _ => cases hkind

/-- After a name, a member goes on as an instance field or an instance method. -/
theorem cases_of_name {token following : Token} {tokens : List Token} {m : Member}
    {s rest : Stream' Token} (hseq : [token, following] ++ₛ s = tokens ++ₛ rest)
    (hwords : normals tokens = m.words) (htoken : token.kind = .name) :
    ∃ back, tokens = token :: back ∧ following = back.headD rest.head ∧
      ((m = .instanceField token.text ∧ back = []) ∨
        ∃ method, m = .instanceMethod token.text method ∧ normals back = method.words) := by
  have hsplit : ∀ {text words}, m.words = ⟨.name, text⟩ :: words →
      ∃ back, tokens = token :: back ∧ following = back.headD rest.head ∧
        text = token.text ∧ normals back = words := by
    intro text words hm
    obtain ⟨back, rfl, hfirst, hback⟩ := exists_of_normals_eq_cons hseq (hwords.trans hm)
    have hseq : [following] ++ₛ s = back ++ₛ rest := congrArg Stream'.tail hseq
    rw [Word.normal_eq_mk rfl] at hfirst
    refine ⟨back, rfl, ?_, (congrArg Word.text hfirst).symm, hback⟩
    rw [← head_append_stream, ← hseq]
    rfl
  have hkind := firstKind_of_first hseq hwords
  rw [htoken] at hkind
  cases m with
  | instanceField text =>
    obtain ⟨back, hback, hfollowing, rfl, hrest⟩ := hsplit rfl
    exact ⟨back, hback, hfollowing, .inl ⟨rfl, normals_eq_nil.mp hrest⟩⟩
  | instanceMethod text method =>
    obtain ⟨back, hback, hfollowing, rfl, hrest⟩ := hsplit rfl
    exact ⟨back, hback, hfollowing, .inr ⟨method, rfl, hrest⟩⟩
  | _ => cases hkind

/-- A method starts with an opening parenthesis. -/
theorem isSingle_of_method {tokens : List Token} {method : Method}
    (h : normals tokens = method.words) (following : Token) :
    (tokens.headD following).isSingle "(" = true := by
  obtain ⟨paren, back, rfl, hparen, -⟩ := normals_eq_cons.mp h
  rw [Word.normal_eq_single] at hparen
  exact Word.isSingle_iff.mpr hparen

/-- After `static` and a name, the next token tells the kind of member. -/
theorem staticAt_reads (hle : levels ≤ more) {token name following : Token}
    (htoken : token.kind = .staticWord) (hname : name.kind = .name) :
    ReadsAfter ([token, name] ++ [following]) levels more
      (Routine.pushBack following >>= fun _ => Routine.pushBack name >>= fun _ =>
        Routine.pushBack token >>= fun _ =>
        if following.isSingle "(" then parseStaticMethod levels else parseStaticField levels)
      (Routine.pushBack following >>= fun _ => Routine.pushBack name >>= fun _ =>
        Routine.pushBack token >>= fun _ =>
        if following.isSingle "(" then parseStaticMethod more else parseStaticField more)
      form.reading := by
  have hfirst := (Word.normal_eq_ofKind rfl).mpr htoken
  have hsecond := Word.normal_of_kind_eq rfl hname
  cases hparen : following.isSingle "(" with
  | true =>
    refine .form (.of_handsBack [token, name]
      (Routine.expect_two_handsBack htoken hname .staticMethod _)
      (Routine.expect_two_handsBack htoken hname .staticMethod _)
      (method_reads hle (.staticMethod name.text))) ?_ ?_ ?_
    · rintro _ m ⟨_, rfl, method, back, _, rfl, hwords, rfl, rfl⟩
      have hwords : normals back = method.words := hwords
      show normals _ = Word.ofKind .staticWord :: ⟨.name, name.text⟩ :: method.words
      rw [List.append_nil, ← hwords, ← hfirst, ← hsecond]
      rfl
    · rintro levels _ m s rest - ⟨_, rfl, method, back, _, rfl, ⟨-, hfits, -⟩, rfl, rfl⟩
      exact ⟨fits_staticMethod.mpr hfits, trivial⟩
    · rintro levels tokens m s rest hseq ⟨hwords, hfits, hstop⟩
      obtain ⟨-, back, rfl, hhead, ⟨initializer, rfl, hback⟩ | ⟨method, rfl, hback⟩⟩ :=
        cases_of_static hseq hwords htoken
      · rw [hhead] at hparen
        cases initializer with
        | none =>
          obtain rfl := normals_eq_nil.mp hback
          have hstop : rest.head.isSingle "(" = false := hstop.2
          rw [List.headD_nil, hstop] at hparen
          cases hparen
        | some e =>
          obtain ⟨value, others, rfl, hvalue, -⟩ := normals_eq_cons.mp hback
          rw [Word.normal_eq_single, ← Word.isSingle_iff] at hvalue
          rw [List.headD_cons, isSingle_eq_false_of_isSingle hvalue (by decide)] at hparen
          cases hparen
      · exact ⟨back, rfl, method, back, [], (List.append_nil _).symm,
          ⟨hback, fits_staticMethod.mp hfits, trivial⟩, rfl, rfl⟩
  | false =>
    refine .form (.of_handsBack [token, name]
      (Routine.expect_two_handsBack htoken hname .staticField _)
      (Routine.expect_two_handsBack htoken hname .staticField _)
      (initializer_reads hle name.text)) ?_ ?_ ?_
    · rintro _ m ⟨_, rfl, initializer, back, _, rfl, hwords, rfl, rfl⟩
      have hwords : normals back = initializerForm.words initializer := hwords
      show normals _ = (Member.staticField name.text initializer).words
      cases initializer <;> simp [words, hfirst, hsecond, hwords, initializerForm]
    · rintro levels _ m s rest hseq ⟨_, rfl, initializer, back, _, rfl, ⟨hwords, hfits, hstop⟩, rfl,
        rfl⟩
      rw [List.append_nil] at hseq
      refine ⟨fits_staticField.mpr hfits, ?_⟩
      cases initializer with
      | none =>
        obtain rfl := normals_eq_nil.mp hwords
        have hhead : following = rest.head :=
          congrArg (fun sequence => sequence.tail.tail.head) hseq
        exact ⟨hstop, by rw [← hhead, hparen]⟩
      | some e => exact hstop
    · rintro levels tokens m s rest hseq ⟨hwords, hfits, hstop⟩
      obtain ⟨-, back, rfl, hhead, ⟨initializer, rfl, hback⟩ | ⟨method, rfl, hback⟩⟩ :=
        cases_of_static hseq hwords htoken
      · refine ⟨back, rfl, initializer, back, [], (List.append_nil _).symm,
          ⟨hback, fits_staticField.mp hfits, ?_⟩, rfl, rfl⟩
        cases initializer with
        | none => exact hstop.1
        | some e => exact hstop
      · rw [hhead, isSingle_of_method hback] at hparen
        cases hparen

/-- After a name, the next token tells the kind of member. -/
theorem nameAt_reads (hle : levels ≤ more) {token following : Token}
    (htoken : token.kind = .name) :
    ReadsAfter ([token] ++ [following]) levels more
      (Routine.pushBack following >>= fun _ => Routine.pushBack token >>= fun _ =>
        if following.isSingle "(" then parseInstanceMethod levels else parseInstanceField)
      (Routine.pushBack following >>= fun _ => Routine.pushBack token >>= fun _ =>
        if following.isSingle "(" then parseInstanceMethod more else parseInstanceField)
      form.reading := by
  have hfirst := Word.normal_of_kind_eq rfl htoken
  cases hparen : following.isSingle "(" with
  | true =>
    refine .form (.of_handsBack [token] (Routine.expect_handsBack htoken .instanceMethod _)
      (Routine.expect_handsBack htoken .instanceMethod _)
      (method_reads hle (.instanceMethod token.text))) ?_ ?_ ?_
    · rintro _ m ⟨_, rfl, method, back, _, rfl, hwords, rfl, rfl⟩
      have hwords : normals back = method.words := hwords
      show normals _ = ⟨.name, token.text⟩ :: method.words
      rw [List.append_nil, ← hwords, ← hfirst]
      rfl
    · rintro levels _ m s rest - ⟨_, rfl, method, back, _, rfl, ⟨-, hfits, -⟩, rfl, rfl⟩
      exact ⟨fits_instanceMethod.mpr hfits, trivial⟩
    · rintro levels tokens m s rest hseq ⟨hwords, hfits, hstop⟩
      obtain ⟨back, rfl, hhead, ⟨rfl, rfl⟩ | ⟨method, rfl, hback⟩⟩ :=
        cases_of_name hseq hwords htoken
      · have hstop : rest.head.isSingle "(" = false := hstop
        rw [hhead, List.headD_nil, hstop] at hparen
        cases hparen
      · exact ⟨back, rfl, method, back, [], (List.append_nil _).symm,
          ⟨hback, fits_instanceMethod.mp hfits, trivial⟩, rfl, rfl⟩
  | false =>
    refine .form (.of_handsBack [token] (Routine.expect_handsBack htoken .instanceField _)
      (Routine.expect_handsBack htoken .instanceField _)
      (Reads.pure hle (Member.instanceField token.text))) ?_ ?_ ?_
    · rintro _ m ⟨_, rfl, rfl, rfl⟩
      exact congrArg (· :: []) hfirst
    · rintro levels _ m s rest hseq ⟨_, rfl, rfl, rfl⟩
      have hhead : following = rest.head := congrArg (fun sequence => sequence.tail.head) hseq
      exact ⟨fits_instanceField, by rwa [hhead] at hparen⟩
    · rintro levels tokens m s rest hseq ⟨hwords, -, hstop⟩
      obtain ⟨back, rfl, hhead, ⟨rfl, rfl⟩ | ⟨method, rfl, hback⟩⟩ :=
        cases_of_name hseq hwords htoken
      · exact ⟨[], rfl, rfl, rfl⟩
      · rw [hhead, isSingle_of_method hback] at hparen
        cases hparen

/-- A class name starts a constructor. -/
theorem classNameAt_reads (hle : levels ≤ more) {token : Token} (htoken : token.kind = .className) :
    ReadsAfter [token] levels more
      (Routine.pushBack token >>= fun _ => parseConstructor levels)
      (Routine.pushBack token >>= fun _ => parseConstructor more) form.reading := by
  refine .weaken (.of_handsBack [] (Routine.pushBack_handsBack token _)
    (Routine.pushBack_handsBack token _) (constructor_reads hle)) ?_ ?_
  · rintro _ m ⟨tokens, rfl, hwords, -⟩
    exact hwords
  · intro levels tokens m s rest hseq
    constructor
    · rintro ⟨_, rfl, ⟨hwords, hfits, -⟩, hproduction⟩
      cases m with
      | constructor name method => exact ⟨hwords, hfits, trivial⟩
      | _ => cases hproduction
    · rintro ⟨hwords, hfits, -⟩
      have hkind := firstKind_of_first hseq hwords
      rw [htoken] at hkind
      cases m with
      | constructor name method => exact ⟨tokens, rfl, ⟨hwords, hfits, trivial⟩, rfl⟩
      | _ => cases hkind

/-- The routine for members reads members. -/
theorem reads (hle : levels ≤ more) :
    Reads levels more (parse levels) (parse more) form.reading := by
  refine ReadsAfter.enter _ (.next_bind fun token => ?_)
  cases hkind : token.kind with
  | staticWord =>
    refine .expect_bind _ hle ?_ ?_ fun name hname => .next_bind fun following =>
      staticAt_reads hle hkind hname
    · refine ⟨[⟨⟨.name, ""⟩, .null, .null⟩], .staticField "" none, ?_⟩
      exact congrArg (· :: [⟨.name, ""⟩]) ((Word.normal_eq_ofKind rfl).mpr hkind)
    · rintro name hname s tokens m rest hseq ⟨hwords, -⟩
      have hseq : [token, name, s.head] ++ₛ s.tail = tokens ++ₛ rest := by
        rw [← hseq, ← Stream'.eta s]
        rfl
      exact hname (cases_of_static hseq hwords hkind).1
  | name => exact .next_bind fun following => nameAt_reads hle hkind
  | className => exact classNameAt_reads hle hkind
  | _ =>
    refine .fail hle ⟨rfl, rfl⟩ form.exists_tokens ?_
    rintro s tokens m rest hseq ⟨hwords, -⟩
    have hfirst := firstKind_of_first hseq hwords
    rw [hkind] at hfirst
    cases m <;> cases hfirst

/-- Series of members, as they are read. -/
def seriesForm : Form (Series Member) := form.run (·.isSingle "\x7d")

/-- The routine for members up to a closing brace reads these. -/
theorem series_reads (hle : levels ≤ more) :
    Reads levels more (parseSeries levels) (parseSeries more) seriesForm.reading := by
  refine ReadsAfter.enter _ (Reads.run (reads hle) isInner_of_mem ?_ ?_)
  · intro following m hclose
    exact m.stopsBefore_of_continuesThis_eq_false
      (continuesThis_eq_false_of_isSingle hclose (by decide) (by decide))
      (isSingle_eq_false_of_isSingle hclose (by decide))
  · intro tokens m hwords
    obtain ⟨word, others, hword, hkind⟩ := m.words_eq_cons
    obtain ⟨token, rest, rfl, htoken, -⟩ := normals_eq_cons.mp (hwords.trans hword)
    have hne : token.kind ≠ .single := by
      rw [← Word.kind_normal, htoken, hkind]
      exact m.firstKind_ne_single
    exact ⟨token, rest, rfl, isSingle_eq_false_of_kind_ne hne _, fun before =>
      before.stopsBefore_of_continuesThis_eq_false (continuesThis_eq_false_of_kind_ne hne)
        (isSingle_eq_false_of_kind_ne hne _)⟩

end

end Member

end FrappeSyntax
