import FrappeSyntax.Proofs.Suggestion

/-!
# Checks that cannot fail

A production that was chosen by its first words checks them again, and a list that is read up to a
word is followed by a check for this word. These checks never fail, so no error comes from them.

* `Error.Sited`: where the errors of parses come from, and where they do not.
* `parseWith_error_sited`: the main result.
-/

namespace FrappeSyntax

/-! ## Errors of parses -/

/-- The name of the production that found an error. -/
def Cause.label? : Cause → Option String
  | unexpectedKind label _ _ => some label
  | unexpectedText label _ _ => some label
  | unexpectedAlternative label _ _ => some label
  | _ => none

/-- The productions that only check words which were looked at before. -/
def Production.rechecking : List Production :=
  [program, staticField, staticMethod, instanceField, instanceMethod, constructor, returnStatement]

/-- The kinds of words that are looked at before they are checked. -/
def Kind.rechecked : List Kind := [whileWord, ifWord, returnWord, newWord, staticWord, eof]

/-- Where an error of a parse of tokens comes from, given their end token and what the parse
left. -/
structure Error.Sited (tokens : List Token) (final : Token) (rest : Stream' Token) (error : Error) :
    Prop where
  label : ∀ production ∈ Production.rechecking, error.cause.label? ≠ some production.label
  brace : ∀ label expected found,
    error.cause = .unexpectedText label expected found → expected.text ≠ "\x7d"
  kind : ∀ label expected found,
    error.cause = .unexpectedKind label expected found → expected ∉ Kind.rechecked
  /-- No parameters follow the class name of a constructor, in a place where members stand. -/
  parameters : ∀ expected found,
    error.cause = .unexpectedText Production.restOfMethod.label expected found →
    expected.text = "(" →
    ∃ front name token, error.FoundIn tokens final rest (front ++ [name]) token ∧
      name.kind = .className ∧ Program.OpenBefore (normals front)
  /-- No arguments follow `new` and a class name. -/
  arguments : ∀ expected found,
    error.cause = .unexpectedText Production.argsPart.label expected found → expected.text = "(" →
    ∃ front new name token, error.FoundIn tokens final rest (front ++ [new, name]) token ∧
      new.kind = .newWord ∧ name.kind = .className
  /-- No segment follows a point. -/
  segment : ∀ expected found,
    error.cause = .unexpectedAlternative Production.caller.label expected found →
    ∃ front point token, error.FoundIn tokens final rest (front ++ [point]) token ∧
      point.toWord = .single "."

theorem Production.label_injective {production other : Production}
    (h : production.label = other.label) : production = other := by
  have hsome := production.ofLabel?_label
  rw [h, other.ofLabel?_label] at hsome
  exact (Option.some.inj hsome).symm

namespace Cause

/-! ## The sites of checks -/

theorem rechecking_of_mem_kindSites : ∀ site ∈ kindSites,
    site.1 ∉ Production.rechecking ∧ site.2 ∉ Kind.rechecked := by
  decide

theorem rechecking_of_mem_textSites : ∀ site ∈ textSites,
    site.1 ∉ Production.rechecking ∧ site.2 ≠ "\x7d" ∧
      (site.2 = "(" → site.1 ≠ .restOfMethod ∧ site.1 ≠ .argsPart) := by
  decide

theorem rechecking_of_mem_alternativeSites : ∀ production ∈ alternativeSites,
    production ∉ Production.rechecking ∧ production ≠ .caller := by
  decide

end Cause

namespace Error.Sited

variable {front tokens : List Token} {final found : Token} {rest : Stream' Token} {error : Error}

/-- An error tells its production by the label alone. -/
theorem label_ne {production : Production} (h : production ∉ Production.rechecking) :
    ∀ other ∈ Production.rechecking, some production.label ≠ some other.label := by
  intro other hmem heq
  exact h (Production.label_injective (Option.some.inj heq) ▸ hmem)

theorem of_kind {production : Production} {kind : Kind} {word : Word} {position : Position}
    (hproduction : production ∉ Production.rechecking) (hkind : kind ∉ Kind.rechecked) :
    Sited tokens final rest ⟨.unexpectedKind production.label kind word, position⟩ := by
  refine ⟨label_ne hproduction, fun _ _ _ h => Cause.noConfusion h, ?_,
    fun _ _ h => Cause.noConfusion h, fun _ _ h => Cause.noConfusion h,
    fun _ _ h => Cause.noConfusion h⟩
  intro _ _ _ hcause
  injection hcause with _ hexpected
  exact hexpected ▸ hkind

theorem of_text {production : Production} {text : String} {word : Word} {position : Position}
    (hproduction : production ∉ Production.rechecking) (hbrace : text ≠ "\x7d")
    (hparameters : production = .restOfMethod → text = "(" →
      ∃ front name token,
        Error.FoundIn ⟨.unexpectedText production.label (.single text) word, position⟩ tokens final
          rest (front ++ [name]) token ∧
        name.kind = .className ∧ Program.OpenBefore (normals front))
    (harguments : production = .argsPart → text = "(" →
      ∃ front new name token,
        Error.FoundIn ⟨.unexpectedText production.label (.single text) word, position⟩ tokens final
          rest (front ++ [new, name]) token ∧
        new.kind = .newWord ∧ name.kind = .className) :
    Sited tokens final rest ⟨.unexpectedText production.label (.single text) word, position⟩ := by
  refine ⟨label_ne hproduction, ?_, fun _ _ _ h => Cause.noConfusion h, ?_, ?_,
    fun _ _ h => Cause.noConfusion h⟩
  · intro _ _ _ hcause
    injection hcause with _ hexpected
    exact hexpected ▸ hbrace
  · intro expected found hcause htext
    injection hcause with hlabel hexpected
    subst hexpected
    exact hparameters (Production.label_injective hlabel) htext
  · intro expected found hcause htext
    injection hcause with hlabel hexpected
    subst hexpected
    exact harguments (Production.label_injective hlabel) htext

theorem of_alternative {production : Production} {text : String} {word : Word} {position : Position}
    (hproduction : production ∉ Production.rechecking)
    (hsegment : production = .caller → ∃ front point token,
      Error.FoundIn ⟨.unexpectedAlternative production.label text word, position⟩ tokens final rest
        (front ++ [point]) token ∧
      point.toWord = .single ".") :
    Sited tokens final rest ⟨.unexpectedAlternative production.label text word, position⟩ := by
  refine ⟨label_ne hproduction, fun _ _ _ h => Cause.noConfusion h, fun _ _ _ h =>
    Cause.noConfusion h, fun _ _ h => Cause.noConfusion h, fun _ _ h => Cause.noConfusion h, ?_⟩
  intro expected found hcause
  injection hcause with hlabel
  exact hsegment (Production.label_injective hlabel)

/-- Where the errors come from that the routine for programs may give. -/
theorem of_standsOrNamed (hfound : error.FoundIn tokens final rest front found)
    (h : error.cause.StandsOrNamed Program.OpenBefore front) : error.Sited tokens final rest := by
  obtain ⟨cause, position⟩ := error
  rcases h with hstands | ⟨middle, name, word, rfl, hbefore, hname, hcause⟩
  · cases hstands with
    | kind hsite =>
      obtain ⟨hproduction, hkind⟩ := Cause.rechecking_of_mem_kindSites _ hsite
      exact .of_kind hproduction hkind
    | text hsite =>
      obtain ⟨hproduction, hbrace, hparen⟩ := Cause.rechecking_of_mem_textSites _ hsite
      exact .of_text hproduction hbrace (fun heq htext => absurd heq (hparen htext).1)
        fun heq htext => absurd heq (hparen htext).2
    | alternative hsite =>
      obtain ⟨hproduction, hcaller⟩ := Cause.rechecking_of_mem_alternativeSites _ hsite
      exact .of_alternative hproduction fun heq => absurd heq hcaller
    | @segment front point _ _ hpoint =>
      exact .of_alternative (by decide) fun _ => ⟨front, point, found, hfound, hpoint⟩
    | @arguments front new name _ hnew hname =>
      exact .of_text (by decide) (by decide) nofun fun _ _ =>
        ⟨front, new, name, found, hfound, hnew, hname⟩
  · obtain rfl : cause = _ := hcause
    exact .of_text (by decide) (by decide)
      (fun _ _ => ⟨middle, name, found, hfound, hname, hbefore⟩) nofun

/-- An error that is not about a token comes from none of these checks. -/
theorem of_not_isSyntax (h : ¬ error.IsSyntax) : error.Sited tokens final rest := by
  obtain ⟨cause, position⟩ := error
  cases cause with
  | unexpectedKind | unexpectedText | unexpectedAlternative => exact absurd rfl h
  | _ =>
    exact ⟨nofun, fun _ _ _ h => Cause.noConfusion h, fun _ _ _ h => Cause.noConfusion h,
      fun _ _ h => Cause.noConfusion h, fun _ _ h => Cause.noConfusion h,
      fun _ _ h => Cause.noConfusion h⟩

end Error.Sited

/-- Where the error of a parse comes from, whatever is parsed and under whatever limits: checks of
words that were looked at before do not fail, and the others stand where they can. -/
theorem parseWith_error_sited {tokens : List Token} {file : String} {limits : Limits}
    {error : Error} (h : (parseWith (.ofTokens tokens file) limits).1 = .error error) :
    error.Sited tokens (TokenStream.finalOf tokens file)
      (parseWith (.ofTokens tokens file) limits).2.stream.sequence := by
  by_cases hsyn : error.IsSyntax
  · obtain ⟨front, found, hfound, -, hokay⟩ := parseWith_error_fault h hsyn
    exact .of_standsOrNamed hfound hokay
  · exact .of_not_isSyntax hsyn

/-- The tokens of `class A \x7b a B \x7d`, where a constructor has no parameters. -/
def tokensWithoutParameters : List Token :=
  [⟨⟨.classWord, "class"⟩, .within "a" 0 5⟩, ⟨⟨.className, "A"⟩, .within "a" 6 7⟩,
    ⟨.single "\x7b", .within "a" 8 9⟩, ⟨⟨.name, "a"⟩, .within "a" 10 11⟩,
    ⟨⟨.className, "B"⟩, .within "a" 12 13⟩, ⟨.single "\x7d", .within "a" 14 15⟩]

/-- The brace stands where the parameters should: after a class name, where members stand. -/
theorem parseWith_error_sited_withoutParameters :
    let error : Error :=
      ⟨.unexpectedText "restOfMethod" (.single "(") (.single "\x7d"), ⟨14, "a"⟩⟩
    let final := TokenStream.finalOf tokensWithoutParameters "a"
    let rest := (parseWith (.ofTokens tokensWithoutParameters "a") {}).2.stream.sequence
    error.Sited tokensWithoutParameters final rest ∧
      ∃ front name token,
        error.FoundIn tokensWithoutParameters final rest (front ++ [name]) token ∧
        name.kind = .className ∧ Program.OpenBefore (normals front) := by
  intro error final rest
  have h : (parseWith (.ofTokens tokensWithoutParameters "a") {}).1 =
      .error ⟨.unexpectedText "restOfMethod" (.single "(") (.single "\x7d"), ⟨14, "a"⟩⟩ := by
    decide +kernel
  have hsited := parseWith_error_sited h
  exact ⟨hsited, hsited.parameters _ _ rfl rfl⟩

end FrappeSyntax
