import FrappeSyntax.Proofs.ProgramAppend
import FrappeSyntax.Proofs.Writable

/-!
# Programs and layout

A word that is scanned keeps no more than a tree does: where its kind tells all, it has the text
that goes with this kind. So the words of the program of a source are the words that are scanned
from it. What is between them is not in the tree, and everything else is.

* `tokenize_parse_eq_ok_iff`: the words of a program are all the words of its source.
* `parse_eq_ok_iff_words_eq`: the sources from which a program is parsed.
* `program_eq_iff_words_eq`: two programs are equal if the words of their sources are, and only
  then.
-/

namespace FrappeSyntax

/-- A word that can be written can stand inside a tree. -/
theorem Word.isInner_of_isWritable {word : Word} (h : word.isWritable = true) : word.IsInner := by
  obtain ⟨kind, text⟩ := word
  by_cases hbare : kind.isBare = true
  · obtain ⟨hend, rfl⟩ : kind ≠ .eof ∧ text = kind.tag := by
      cases kind <;> simp_all [isWritable, Kind.isBare]
    exact isInner_ofKind hend
  · exact isInner_mk (Bool.eq_false_iff.mpr hbare) text

/-- A program is parsed from the tokens of a source if its words are the words of the source up to
the end, it is canonical, and it is not nested too deep. -/
theorem tokenize_parse_eq_ok_iff {source file : String} {tokens : List Token}
    (h : tokenize source file = .ok tokens) :
    ∃ front stop, tokens = front ++ [Token.endAt stop] ∧
      ∀ program : Program, (parse tokens file).1 = .ok program ↔
        wordsOfRun ClassDef.words program.classes.toList = front.map Token.toWord ∧
          program.isCanonical = true ∧ program.nesting ≤ 128 := by
  obtain ⟨front, stop, rfl, hwritable⟩ := exists_isWritable_of_tokenize h
  have hinner : ∀ token ∈ front, token.toWord.IsInner :=
    fun token htoken => Word.isInner_of_isWritable (hwritable token htoken)
  have hnormal : (front.map Token.toWord).map Word.normal = front.map Token.toWord := by
    rw [List.map_map]
    exact List.map_congr_left fun token htoken => (hinner token htoken).1
  refine ⟨front, stop, rfl, fun program => ?_⟩
  rw [parse, Program.parseWith_append_eof rfl (fun token htoken => (hinner token htoken).2) rfl,
    Program.IsTreeOf, hnormal, and_assoc]

/-- The program of a source is parsed from those sources that have the same words. -/
theorem parse_eq_ok_iff_words_eq {a b file file' : String} {tokens tokens' : List Token}
    {program : Program} (ha : tokenize a file = .ok tokens) (hb : tokenize b file' = .ok tokens')
    (hparse : (parse tokens file).1 = .ok program) :
    (parse tokens' file').1 = .ok program ↔
      tokens.map Token.toWord = tokens'.map Token.toWord := by
  obtain ⟨front, stop, rfl, hfront⟩ := tokenize_parse_eq_ok_iff ha
  obtain ⟨front', stop', rfl, hfront'⟩ := tokenize_parse_eq_ok_iff hb
  obtain ⟨hwords, hcanonical, hnesting⟩ := (hfront program).mp hparse
  have hend : (Token.endAt stop).toWord = (Token.endAt stop').toWord := rfl
  rw [hfront', hwords, List.map_append, List.map_append, List.map_singleton, List.map_singleton,
    hend, List.append_left_inj]
  exact ⟨And.left, fun hsame => ⟨hsame, hcanonical, hnesting⟩⟩

/-- The programs of two sources are equal exactly if the sources have equally many tokens, and these
agree in kind and text, one after the other. -/
theorem program_eq_iff_words_eq {a b file file' : String} {tokens tokens' : List Token}
    {program program' : Program} (ha : tokenize a file = .ok tokens)
    (hb : tokenize b file' = .ok tokens') (hparse : (parse tokens file).1 = .ok program)
    (hparse' : (parse tokens' file').1 = .ok program') :
    program = program' ↔ tokens.map Token.toWord = tokens'.map Token.toWord := by
  have hsources := parse_eq_ok_iff_words_eq ha hb hparse
  constructor
  · rintro rfl
    exact hsources.mp hparse'
  · intro hwords
    rw [hsources.mpr hwords] at hparse'
    exact Except.ok.inj hparse'

/-- A source that is scanned and then parsed has tokens. -/
theorem exists_tokens_of_bind_eq_ok {source file : String} {program : Program}
    (h : ((tokenize source file).bind fun tokens => (parse tokens file).1) = .ok program) :
    ∃ tokens, tokenize source file = .ok tokens ∧ (parse tokens file).1 = .ok program := by
  cases hscan : tokenize source file with
  | error error =>
    rw [hscan] at h
    cases h
  | ok tokens =>
    rw [hscan] at h
    exact ⟨tokens, rfl, h⟩

/-- A line feed in a string and its escape, a comment and other blanks give one program; a name with
no argument list and one with an empty list give two. -/
theorem program_eq_iff_words_eq_string :
    (∃ tokens tokens', tokenize "class A\x7bstatic x=\"\\n\"\x7d" "f" = .ok tokens ∧
      tokenize "class A \x7b // none\n\tstatic x = \"\n\" \x7d" "g" = .ok tokens' ∧
      tokens.map Token.toWord = tokens'.map Token.toWord) ∧
    ∃ tokens tokens', tokenize "class A\x7bstatic x=y\x7d" "f" = .ok tokens ∧
      tokenize "class A\x7bstatic x=y()\x7d" "f" = .ok tokens' ∧
      tokens.map Token.toWord ≠ tokens'.map Token.toWord := by
  let field (value : Expression) : Program := ⟨⟨⟨"A", ⟨.staticField "x" (some value), []⟩⟩, []⟩⟩
  constructor
  · have hescape : ((tokenize "class A\x7bstatic x=\"\\n\"\x7d" "f").bind fun tokens =>
        (parse tokens "f").1) = .ok (field (.literal .string "\n")) := by
      decide +kernel
    have hcomment : ((tokenize "class A \x7b // none\n\tstatic x = \"\n\" \x7d" "g").bind
        fun tokens => (parse tokens "g").1) = .ok (field (.literal .string "\n")) := by
      decide +kernel
    obtain ⟨tokens, ha, hparse⟩ := exists_tokens_of_bind_eq_ok hescape
    obtain ⟨tokens', hb, hparse'⟩ := exists_tokens_of_bind_eq_ok hcomment
    exact ⟨tokens, tokens', ha, hb, (program_eq_iff_words_eq ha hb hparse hparse').mp rfl⟩
  · have href : ((tokenize "class A\x7bstatic x=y\x7d" "f").bind fun tokens =>
        (parse tokens "f").1) = .ok (field (.chain (.ref .name "y") [])) := by
      decide +kernel
    have hcall : ((tokenize "class A\x7bstatic x=y()\x7d" "f").bind fun tokens =>
        (parse tokens "f").1) = .ok (field (.chain (.call .name "y" []) [])) := by
      decide +kernel
    obtain ⟨tokens, ha, hparse⟩ := exists_tokens_of_bind_eq_ok href
    obtain ⟨tokens', hb, hparse'⟩ := exists_tokens_of_bind_eq_ok hcall
    refine ⟨tokens, tokens', ha, hb, fun hwords => ?_⟩
    exact absurd ((program_eq_iff_words_eq ha hb hparse hparse').mpr hwords) (by decide +kernel)

end FrappeSyntax
