import FrappeSyntax.Proofs.EarliestError
import FrappeSyntax.Proofs.ProductionFault

/-!
# Suggestions are right

What a syntax error says it expected would have been accepted: the tokens before the one that the
error is about, with any token after them that is expected there, go on to tokens that are parsed.

* `Program.Begins`: tokens begin some that are parsed, with levels and time enough.
* `Error.FoundIn`, `Error.FoundIn.unique`: the place of an error, and that there is one only.
* `parseWith_error_fault`: how a parse fails, from how the routine for programs fails.
* `parseWith_error_suggests`: the main result.
-/

namespace FrappeSyntax

namespace Program

/-! ## Derived tokens are parsed -/

/-- Tokens begin some that are parsed as a program, from every file and under all limits that do not
end the parse: there is no deadline, and the levels are enough. -/
def Begins (tokens : List Token) : Prop :=
  ∃ more program depth, ∀ (file : String) (limits : Limits), limits.deadline = none →
    depth ≤ limits.maxDepth → (parseWith (.ofTokens (tokens ++ more) file) limits).1 = .ok program

/-- Tokens that the grammar derives are parsed as the canonical tree of their words. -/
theorem parseWith_of_derives {tokens : List Token}
    (h : Derives [.part .program] (tokens.map Token.toWord)) :
    ∃ program : Program, ∀ (file : String) (limits : Limits), limits.deadline = none →
      program.nesting ≤ limits.maxDepth →
        (parseWith (.ofTokens tokens file) limits).1 = .ok program := by
  obtain ⟨tree, htree⟩ : ∃ tree : Program,
    tree.words = (tokens.map Token.toWord).map Word.normal := h.spells
  rw [map_normal_map_toWord] at htree
  refine ⟨tree.canonical, fun file limits hfree hnesting => parseWith_fst_eq_ok.mpr ?_⟩
  have hseq : (Parser.started (.ofTokens tokens file) limits).sequence =
    tokens ++ₛ Stream'.const (TokenStream.finalOf tokens file) := rfl
  have haccepts : form.reading.accepts limits.maxDepth tokens tree.canonical
      (Stream'.const (TokenStream.finalOf tokens file)).head :=
    ⟨htree.symm.trans tree.words_canonical.symm, ⟨hnesting, tree.isCanonical_canonical⟩, trivial⟩
  obtain ⟨after, hrun, -⟩ := (reads (le_refl limits.maxDepth)).complete hfree hseq haccepts
  exact ⟨after, hrun⟩

theorem begins_of_derives {tokens : List Token} {words : List Word}
    (h : Derives [.part .program] (tokens.map Token.toWord ++ words)) : Begins tokens := by
  obtain ⟨more, rfl⟩ := exists_map_toWord_eq words
  rw [← List.map_append] at h
  obtain ⟨program, hparse⟩ := parseWith_of_derives h
  exact ⟨more, program, program.nesting, hparse⟩

/-- Of the words of a program only the last one ends the source. -/
theorem kind_ne_of_derives {front back : List Word} (hback : back ≠ [])
    (h : Derives [.part .program] (front ++ back)) : ∀ word ∈ front, word.kind ≠ .eof := by
  obtain ⟨inner, last, hwords, -, hinner⟩ := h.exists_of_program
  have hfront : front ++ back.dropLast = inner := by
    rw [← List.dropLast_append_of_ne_nil hback, hwords, List.dropLast_concat]
  exact fun word hmem => hinner word (hfront ▸ List.mem_append_left _ hmem)

end Program

/-! ## The place of an error -/

/-- The place of an error in tokens with `final` after them, over and over: the error is about
`found`, none of the tokens `front` before it ends the source, and `rest` is left after it. -/
structure Error.FoundIn (error : Error) (tokens : List Token) (final : Token) (rest : Stream' Token)
    (front : List Token) (found : Token) : Prop where
  about : error.IsAbout found
  listed : ∃ back, tokens ++ [final] = front ++ found :: back
  sequence_eq : tokens ++ₛ Stream'.const final = (front ++ [found]) ++ₛ rest
  kind_ne : ∀ token ∈ front, token.kind ≠ .eof

namespace Error.FoundIn

variable {error : Error} {tokens front front' : List Token} {final found found' : Token}
  {rest : Stream' Token}

/-- What comes after the place is what is left. -/
theorem get_after (h : error.FoundIn tokens final rest front found) (index : Nat) :
    (tokens ++ₛ Stream'.const final).get (front.length + 1 + index) = rest.get index := by
  have hlength : (front ++ [found]).length = front.length + 1 := List.length_append
  rw [h.sequence_eq, ← hlength, Stream'.get_append_right]

theorem get_length (h : error.FoundIn tokens final rest front found) :
    (tokens ++ₛ Stream'.const final).get front.length = found := by
  rw [h.sequence_eq, Stream'.append_append_stream, Stream'.get_append_length]
  rfl

/-- Where the same is left after a later place, what comes after the earlier one comes again and
again. So the token at the later place is the end token. -/
theorem eq_final_of_lt (h : error.FoundIn tokens final rest front found)
    (h' : error.FoundIn tokens final rest front' found') (hlt : front.length < front'.length) :
    found' = final := by
  obtain ⟨gap, hgap⟩ := Nat.exists_eq_add_of_lt hlt
  have hagain : ∀ index, rest.get (index + (gap + 1)) = rest.get index := by
    intro index
    rw [← h.get_after, ← h'.get_after, hgap]
    congr 1
    omega
  have hturns : ∀ turns, rest.get (gap + turns * (gap + 1)) = found' := by
    intro turns
    induction turns with
    | zero =>
      rw [← h'.get_length, ← h.get_after, hgap]
      congr 1
      omega
    | succ turns ih => rw [Nat.succ_mul, ← Nat.add_assoc, hagain, ih]
  -- after as many turns as there are tokens, the tokens are over
  obtain ⟨more, hmore⟩ : ∃ more, front.length + 1 + (gap + tokens.length * (gap + 1)) =
      tokens.length + more := by
    refine ⟨front.length + 1 + gap + tokens.length * gap, ?_⟩
    rw [Nat.mul_succ]
    omega
  rw [← hturns tokens.length, ← h.get_after, hmore, Stream'.get_append_right, Stream'.get_const]

/-- The token at a later place, where the same is left, would be the end token; but the one at the
earlier place is none, and the error is about both. -/
theorem length_le (hfinal : final.kind = .eof) (h : error.FoundIn tokens final rest front found)
    (h' : error.FoundIn tokens final rest front' found') : front'.length ≤ front.length := by
  by_contra hle
  have hlt : front.length < front'.length := Nat.lt_of_not_le hle
  have hmem : found ∈ front' := by
    rw [← h.get_length, h'.sequence_eq, Stream'.append_append_stream,
      Stream'.get_append_left _ _ _ hlt]
    exact List.getElem_mem hlt
  have hword : found.toWord = found'.toWord :=
    Option.some.inj (h.about.1.symm.trans h'.about.1)
  refine h'.kind_ne found hmem ?_
  rw [hword, eq_final_of_lt h h' hlt]
  exact hfinal

/-- An error has one place only, even where the same token stands many times. -/
theorem unique (hfinal : final.kind = .eof) (h : error.FoundIn tokens final rest front found)
    (h' : error.FoundIn tokens final rest front' found') : front' = front ∧ found' = found := by
  have hlength : front'.length = front.length :=
    Nat.le_antisymm (length_le hfinal h h') (length_le hfinal h' h)
  have htokens : front' ++ [found'] = front ++ [found] :=
    Stream'.append_left_injective _ _ _ _ (h'.sequence_eq.symm.trans h.sequence_eq)
      (by simp [hlength])
  obtain ⟨hfront, hfound⟩ := List.append_inj' htokens rfl
  exact ⟨hfront, List.singleton_inj.mp hfound⟩

end Error.FoundIn

/-! ## Failed parses -/

/-- Tokens that do not end the source, with one more after them, are the first ones of a list with
its end token after it. -/
theorem exists_eq_append_cons {tokens front : List Token} {final found : Token}
    {rest : Stream' Token} (hfinal : final.kind = .eof)
    (hfront : ∀ token ∈ front, token.kind ≠ .eof)
    (hseq : tokens ++ₛ Stream'.const final = (front ++ [found]) ++ₛ rest) :
    ∃ back, tokens ++ [final] = front ++ found :: back := by
  induction front generalizing tokens with
  | nil =>
    cases tokens with
    | nil =>
      obtain rfl : final = found := congrArg Stream'.head hseq
      exact ⟨[], rfl⟩
    | cons token tokens =>
      obtain rfl : token = found := congrArg Stream'.head hseq
      exact ⟨tokens ++ [final], rfl⟩
  | cons first front ih =>
    rw [List.forall_mem_cons] at hfront
    cases tokens with
    | nil =>
      obtain rfl : final = first := congrArg Stream'.head hseq
      exact absurd hfinal hfront.1
    | cons token tokens =>
      obtain rfl : token = first := congrArg Stream'.head hseq
      obtain ⟨back, hback⟩ := ih hfront.2 (congrArg Stream'.tail hseq)
      exact ⟨back, congrArg (token :: ·) hback⟩

/-- A parse that fails with a syntax error fails as the routine for programs does, after the tokens
before the one that the error is about. -/
theorem parseWith_error_fault {tokens : List Token} {file : String} {limits : Limits}
    {error : Error} (h : (parseWith (.ofTokens tokens file) limits).1 = .error error)
    (hsyn : error.IsSyntax) :
    ∃ front found,
      error.FoundIn tokens (TokenStream.finalOf tokens file)
        (parseWith (.ofTokens tokens file) limits).2.stream.sequence front found ∧
      Fault [.part .program] (Cause.StandsOrNamed Program.OpenBefore) front error.cause := by
  obtain ⟨after, hrun, hparse⟩ := parseWith_fst_eq_error h
  obtain ⟨front, found, hseq, habout, -, hsuggests, hokay⟩ := Program.faults.blames hrun hsyn
  rw [Stream'.nil_append_stream, Parser.sequence_started, TokenStream.sequence_ofTokens] at hseq
  obtain ⟨word, hword⟩ := hsuggests.expects
  obtain ⟨more, hmore⟩ := hsuggests.derives hword
  have hkinds : ∀ token ∈ front, token.kind ≠ .eof := fun token hmem =>
    Program.kind_ne_of_derives (List.cons_ne_nil word more) hmore _ (List.mem_map_of_mem hmem)
  have hleft : (parseWith (.ofTokens tokens file) limits).2.stream.sequence = after.sequence := by
    rw [hparse]
    rfl
  rw [hleft]
  have hlisted := exists_eq_append_cons (TokenStream.kind_finalOf tokens file) hkinds hseq
  exact ⟨front, found, ⟨habout, hlisted, hseq, hkinds⟩, hsuggests, hokay⟩

/-- When a parse fails with a syntax error, the error has exactly one place among the tokens, and it
expects something there; and the tokens before its place, with any token after them that the error
expects, begin some that are parsed, with levels and time enough. -/
theorem parseWith_error_suggests {tokens : List Token} {file : String} {limits : Limits}
    {error : Error} (h : (parseWith (.ofTokens tokens file) limits).1 = .error error)
    (hsyn : error.IsSyntax) :
    let final := TokenStream.finalOf tokens file
    let rest := (parseWith (.ofTokens tokens file) limits).2.stream.sequence
    ∃ front found, error.FoundIn tokens final rest front found ∧
      (∀ front' found', error.FoundIn tokens final rest front' found' →
        front' = front ∧ found' = found) ∧
      (∃ word, error.cause.Expects word) ∧
      ∀ token : Token, error.cause.Expects token.toWord → Program.Begins (front ++ [token]) := by
  intro final rest
  obtain ⟨front, found, hfound, hsuggests, -⟩ := parseWith_error_fault h hsyn
  have hunique : ∀ front' found', error.FoundIn tokens final rest front' found' →
      front' = front ∧ found' = found :=
    fun _ _ hfound' => hfound.unique (TokenStream.kind_finalOf tokens file) hfound'
  refine ⟨front, found, hfound, hunique, hsuggests.expects, fun token htoken => ?_⟩
  obtain ⟨more, hmore⟩ := hsuggests.derives htoken
  have hderives : Derives [.part .program] ((front ++ [token]).map Token.toWord ++ more) := by
    rw [List.map_append, List.append_assoc]
    exact hmore
  exact Program.begins_of_derives hderives

/-- After `class A \x7b static x` comes a number, and each word that starts a member would have been
right. -/
theorem parseWith_error_suggests_withoutEquals :
    let error : Error := ⟨.unexpectedAlternative "member" "`static`, a name or a class name"
      ⟨.number, "1"⟩, ⟨19, "a"⟩⟩
    let final := TokenStream.finalOf tokensWithoutEquals "a"
    let rest := (parseWith (.ofTokens tokensWithoutEquals "a") {}).2.stream.sequence
    ∃ front found, error.FoundIn tokensWithoutEquals final rest front found ∧
      (∀ front' found', error.FoundIn tokensWithoutEquals final rest front' found' →
        front' = front ∧ found' = found) ∧
      (∃ word, error.cause.Expects word) ∧
      ∀ token : Token, error.cause.Expects token.toWord → Program.Begins (front ++ [token]) := by
  intro error final rest
  have h : (parseWith (.ofTokens tokensWithoutEquals "a") {}).1 =
      .error ⟨.unexpectedAlternative "member" "`static`, a name or a class name" ⟨.number, "1"⟩,
        ⟨19, "a"⟩⟩ := by
    decide +kernel
  exact parseWith_error_suggests h rfl

end FrappeSyntax
