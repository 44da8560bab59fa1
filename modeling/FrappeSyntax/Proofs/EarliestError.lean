import FrappeSyntax.Proofs.Acceptance

/-!
# The place of a syntax error

A syntax error is about the first token that rules every program out: the tokens before it begin a
program, and with it they begin none. The stream is left right after this token.

* `Reads.blames_all`: with more levels, a routine fails at the same token, whatever follows.
* `not_derives_of_blamed`: no program begins with the tokens up to the one that is blamed.
* `parseWith_error_earliest`: the place of the error of a parse.
-/

namespace FrappeSyntax

/-! ## Where a marked sequence begins -/

theorem const_ne_append_stream {final marker : Token} (hne : marker ≠ final) (tokens : List Token)
    (rest : Stream' Token) : Stream'.const final ≠ tokens ++ₛ ([marker] ++ₛ rest) := by
  intro h
  have hdrop := congrArg (Stream'.drop tokens.length) h
  rw [Stream'.drop_const, Stream'.drop_append_stream] at hdrop
  exact hne (congrArg Stream'.head hdrop).symm

/-- A token that stands in a sequence only once marks its place. -/
theorem eq_of_append_marked {final marker : Token} (hne : marker ≠ final) {front front' : List Token}
    (h : front ++ₛ ([marker] ++ₛ Stream'.const final) =
      front' ++ₛ ([marker] ++ₛ Stream'.const final)) : front = front' := by
  induction front generalizing front' with
  | nil =>
    cases front' with
    | nil => rfl
    | cons token front' => exact absurd (congrArg Stream'.tail h) (const_ne_append_stream hne _ _)
  | cons token front ih =>
    cases front' with
    | nil => exact absurd (congrArg Stream'.tail h).symm (const_ne_append_stream hne _ _)
    | cons token' front' =>
      have hhead : token = token' := congrArg Stream'.head h
      rw [hhead, ih (congrArg Stream'.tail h)]

/-- A parser that is not pressed for time can have any tokens ahead, and a mark after them. -/
theorem Parser.exists_marked (tokens : List Token) :
    ∃ (parser : Parser) (marker final : Token), parser.limits.deadline = none ∧ marker ≠ final ∧
      parser.sequence = tokens ++ₛ ([marker] ++ₛ Stream'.const final) := by
  let marker : Token := ⟨.single "", ⟨.null, .null⟩⟩
  let stream := TokenStream.ofTokens (tokens ++ [marker]) ""
  refine ⟨.ofStream stream {}, marker, stream.final, rfl, ?_, ?_⟩
  · intro h
    have hkind := stream.final_kind
    rw [← h] at hkind
    cases hkind
  · exact Stream'.append_append_stream tokens [marker] (Stream'.const stream.final)

/-! ## The same token with more levels -/

section

variable {levels : Nat} {routine : Nat → Routine α} {reading : Reading α}

/-- The token that is blamed for a syntax error does not depend on the levels: with more of them the
routine fails at the same token, whatever follows. -/
theorem Reads.blames_all
    (h : ∀ more, levels ≤ more → Reads levels more (routine levels) (routine more) reading)
    {parser after : Parser} {error : Error} (hrun : routine levels parser = .error error after)
    (hsyn : error.IsSyntax) :
    ∃ tokens token, parser.sequence = (tokens ++ [token]) ++ₛ after.sequence ∧
      error.IsAbout token ∧ (∃ more result, reading.admits (tokens ++ more) result) ∧
      ∀ {more parser' rest}, levels ≤ more → parser'.limits.deadline = none →
        parser'.sequence = (tokens ++ [token]) ++ₛ rest →
        ∃ after', routine more parser' = .error error after' := by
  obtain ⟨tokens, token, hseq, -, habout, hviable, hlocal⟩ := (h levels le_rfl).blames hrun hsyn
  refine ⟨tokens, token, hseq, habout, hviable, ?_⟩
  intro more parser' rest hmore hfree hseq'
  -- a run on the same tokens with a mark after them shows where the error is
  obtain ⟨marked, marker, final, hfree', hne, hmarked⟩ := Parser.exists_marked (tokens ++ [token])
  obtain ⟨after', hrun', hafter'⟩ := hlocal hfree' hmarked
  obtain ⟨tokens', token', hseq'', -, -, -, hlocal'⟩ := (h more hmore).blames hrun' hsyn
  rw [hafter'] at hseq''
  have hsame : tokens ++ [token] = tokens' ++ [token'] :=
    eq_of_append_marked hne (hmarked.symm.trans hseq'')
  rw [hsame] at hseq'
  obtain ⟨after'', hrun'', -⟩ := hlocal' hfree hseq'
  exact ⟨after'', hrun''⟩

end

/-! ## Programs -/

/-- No program begins with tokens after which the routine for programs fails, whatever the levels. -/
theorem not_derives_of_blamed {tokens : List Token} {levels : Nat} {error : Error}
    (h : ∀ {more parser rest}, levels ≤ more → parser.limits.deadline = none →
      parser.sequence = tokens ++ₛ rest → ∃ after, Program.parse more parser = .error error after)
    (words : List Word) : ¬ Derives [.part .program] (tokens.map Token.toWord ++ words) := by
  intro hderives
  obtain ⟨tree, htree⟩ : ∃ tree : Program,
    tree.words = (tokens.map Token.toWord ++ words).map Word.normal := hderives.spells
  obtain ⟨back, rfl⟩ := exists_map_toWord_eq words
  obtain ⟨parser, rest, hfree, hseq, -⟩ :=
    Parser.exists_sequence (tokens ++ back) (Token.endAt .null)
  rw [← List.map_append, map_normal_map_toWord] at htree
  -- with levels enough, the canonical form of the tree is read from these tokens
  let more := max levels tree.canonical.nesting
  have haccepts : Program.form.reading.accepts more (tokens ++ back) tree.canonical rest.head :=
    ⟨htree.symm.trans tree.words_canonical.symm,
      ⟨Nat.le_max_right _ _, tree.isCanonical_canonical⟩, trivial⟩
  obtain ⟨_, hok, -⟩ := (Program.reads (le_refl more)).complete hfree hseq haccepts
  rw [Stream'.append_append_stream] at hseq
  obtain ⟨_, herror⟩ := h (Nat.le_max_left levels _) hfree hseq
  rw [hok] at herror
  cases herror

/-- A failed parse is a failed run of the routine for programs, which leaves the stream as it is. -/
theorem parseWith_eq_error {stream : TokenStream} {limits : Limits} {error : Error} {after : Parser}
    (h : parseWith stream limits = (.error error, after)) :
    ∃ after', Program.parse limits.maxDepth (.started stream limits) = .error error after' ∧
      after'.stream = after.stream := by
  obtain ⟨after', hrun, hparse⟩ := parseWith_fst_eq_error (congrArg Prod.fst h)
  rw [hparse] at h
  cases h
  exact ⟨after', hrun, rfl⟩

/-- When a parse fails with a syntax error, the tokens before the one that the error is about begin
a program, those up to it begin none, and the stream is left right after it. -/
theorem parseWith_error_earliest {tokens : List Token} {file : String} {limits : Limits}
    {error : Error} {after : Parser}
    (h : parseWith (.ofTokens tokens file) limits = (.error error, after))
    (hsyn : error.IsSyntax) :
    ∃ (front : List Token) (found : Token) (rest : Stream' Token),
      tokens ++ₛ Stream'.const (TokenStream.finalOf tokens file) = (front ++ [found]) ++ₛ rest ∧
      (∃ more, Derives [.part .program] (front.map Token.toWord ++ more)) ∧
      (∀ more, ¬ Derives [.part .program] ((front ++ [found]).map Token.toWord ++ more)) ∧
      error.IsAbout found ∧ after.stream.sequence = rest := by
  obtain ⟨after', hrun, hstream⟩ := parseWith_eq_error h
  obtain ⟨front, found, hseq, habout, ⟨back, tree, hviable⟩, hlocal⟩ :=
    Reads.blames_all (fun _ => Program.reads) hrun hsyn
  refine ⟨front, found, _, hseq, ⟨back.map Token.toWord, ?_⟩, not_derives_of_blamed hlocal, habout,
    by rw [← hstream]; rfl⟩
  have hwords : normals (front ++ back) = tree.words := hviable
  refine .of_map_normal ?_
  rw [← List.map_append, map_normal_map_toWord, hwords]
  exact tree.derives

/-- The tokens of `class A \x7b static x 1`, where a value follows a static field without `=`. -/
def tokensWithoutEquals : List Token :=
  [⟨⟨.classWord, "class"⟩, ⟨⟨0, "a"⟩, ⟨5, "a"⟩⟩⟩, ⟨⟨.className, "A"⟩, ⟨⟨6, "a"⟩, ⟨7, "a"⟩⟩⟩,
    ⟨.single "\x7b", ⟨⟨8, "a"⟩, ⟨9, "a"⟩⟩⟩, ⟨⟨.staticWord, "static"⟩, ⟨⟨10, "a"⟩, ⟨16, "a"⟩⟩⟩,
    ⟨⟨.name, "x"⟩, ⟨⟨17, "a"⟩, ⟨18, "a"⟩⟩⟩, ⟨⟨.number, "1"⟩, ⟨⟨19, "a"⟩, ⟨20, "a"⟩⟩⟩]

/-- The value is to blame: what stands before it could go on with another member. -/
theorem parseWith_tokensWithoutEquals :
    ∃ (front : List Token) (found : Token) (rest : Stream' Token),
      tokensWithoutEquals ++ₛ Stream'.const (TokenStream.finalOf tokensWithoutEquals "a") =
        (front ++ [found]) ++ₛ rest ∧
      (∃ more, Derives [.part .program] (front.map Token.toWord ++ more)) ∧
      (∀ more, ¬ Derives [.part .program] ((front ++ [found]).map Token.toWord ++ more)) ∧
      Error.IsAbout ⟨.unexpectedAlternative "member" "`static`, a name or a class name"
        ⟨.number, "1"⟩, ⟨19, "a"⟩⟩ found ∧
      (parseWith (.ofTokens tokensWithoutEquals "a") {}).2.stream.sequence = rest := by
  have h : parseWith (.ofTokens tokensWithoutEquals "a") {} =
      (.error ⟨.unexpectedAlternative "member" "`static`, a name or a class name" ⟨.number, "1"⟩,
        ⟨19, "a"⟩⟩, (parseWith (.ofTokens tokensWithoutEquals "a") {}).2) := by
    decide +kernel
  exact parseWith_error_earliest h rfl

end FrappeSyntax
