import FrappeSyntax.Parse
import FrappeSyntax.Proofs.Canonical
import FrappeSyntax.Proofs.Derivation
import FrappeSyntax.Proofs.DerivedTree
import FrappeSyntax.Proofs.Program

/-!
# The language that is accepted

With no deadline, the tokens that are parsed are those that the grammar derives, up to an end token,
as long as their tree is not nested too deep. There is one tree for them.

* `Program.parsesTo_iff`: what the routine for programs gives, from any parser that has the time.
* `Program.existsUnique_isTreeOf`: what `classes` derives is read as exactly one program.
* `parseWith_eq_ok_iff`: what is parsed as a program.
-/

namespace FrappeSyntax

/-! ## Parses from the start -/

/-- The parser for a parse from the start of a stream. -/
def Parser.started (stream : TokenStream) (limits : Limits) : Parser :=
  (Parser.ofStream stream limits).note .started

theorem Parser.sequence_started (stream : TokenStream) (limits : Limits) :
    (started stream limits).sequence = stream.sequence := rfl

/-- A parse is a run of the routine for programs, with all the levels there are. -/
theorem parseWith_eq (stream : TokenStream) (limits : Limits) :
    parseWith stream limits =
      match Program.parse limits.maxDepth (.started stream limits) with
      | .ok program after => (.ok program, after.note (.ofParse (.ok program)))
      | .error error after => (.error error, after.note (.ofParse (.error error))) := by
  have hrun : Routine.withLevels Program.parse (.started stream limits) =
      Program.parse limits.maxDepth (.started stream limits) := rfl
  rw [← hrun, parseWith, Parser.run, ← Parser.started]
  cases Routine.withLevels Program.parse (.started stream limits) <;> rfl

theorem parseWith_fst_eq_ok {stream : TokenStream} {limits : Limits} {program : Program} :
    (parseWith stream limits).1 = .ok program ↔
      ∃ after, Program.parse limits.maxDepth (.started stream limits) = .ok program after := by
  rw [parseWith_eq]
  cases Program.parse limits.maxDepth (.started stream limits) <;> simp

/-- A parse that fails is a run of the routine for programs that fails. -/
theorem parseWith_fst_eq_error {stream : TokenStream} {limits : Limits} {error : Error}
    (h : (parseWith stream limits).1 = .error error) :
    ∃ after, Program.parse limits.maxDepth (.started stream limits) = .error error after ∧
      parseWith stream limits = (.error error, after.note (.aborted error)) := by
  rw [parseWith_eq] at h ⊢
  cases hrun : Program.parse limits.maxDepth (.started stream limits) with
  | ok program after =>
    rw [hrun] at h
    cases h
  | error error' after =>
    rw [hrun] at h
    cases h
    exact ⟨after, rfl, rfl⟩

namespace Program

/-! ## Trees of words -/

/-- A program is the canonical tree of the words of its classes. -/
def IsTreeOf (program : Program) (words : List Word) : Prop :=
  wordsOfRun ClassDef.words program.classes.toList = words.map Word.normal ∧
    program.isCanonical = true

/-- The tokens of a program are those of its classes, and an end token. -/
theorem normals_eq_words_iff {tokens : List Token} {program : Program} :
    normals tokens = program.words ↔ ∃ front final, tokens = front ++ [final] ∧
      final.kind = .eof ∧
      wordsOfRun ClassDef.words program.classes.toList = (front.map Token.toWord).map Word.normal := by
  rw [words, normals_eq_append]
  constructor
  · rintro ⟨front, back, rfl, hfront, hback⟩
    obtain ⟨final, rest, rfl, hfinal, hrest⟩ := normals_eq_cons.mp hback
    obtain rfl := normals_eq_nil.mp hrest
    refine ⟨front, final, rfl, (Word.normal_eq_ofKind rfl).mp hfinal, ?_⟩
    rw [map_normal_map_toWord, hfront]
  · rintro ⟨front, final, rfl, hfinal, hwords⟩
    refine ⟨front, [final], rfl, ?_, ?_⟩
    · rw [hwords, map_normal_map_toWord]
    · rw [normals_cons, (Word.normal_eq_ofKind rfl).mpr hfinal, normals_nil]

/-- The routine for programs gives the program that the tokens ahead are a tree of, if there are
levels enough for it. -/
theorem parsesTo_iff {parser : Parser} {levels : Nat} {program : Program}
    (hfree : parser.limits.deadline = none) :
    (∃ after, parse levels parser = .ok program after) ↔
      ∃ front final rest, parser.sequence = (front ++ [final]) ++ₛ rest ∧ final.kind = .eof ∧
        program.IsTreeOf (front.map Token.toWord) ∧ program.nesting ≤ levels := by
  have hreads := reads (le_refl levels)
  constructor
  · rintro ⟨after, hrun⟩
    obtain ⟨tokens, hseq, hwords, ⟨hnesting, hcanonical⟩, -⟩ := hreads.sound hrun
    obtain ⟨front, final, rfl, hfinal, hfront⟩ := normals_eq_words_iff.mp hwords
    exact ⟨front, final, after.sequence, hseq, hfinal, ⟨hfront, hcanonical⟩, hnesting⟩
  · rintro ⟨front, final, rest, hseq, hfinal, ⟨hwords, hcanonical⟩, hnesting⟩
    have haccepts : form.reading.accepts levels (front ++ [final]) program rest.head :=
      ⟨normals_eq_words_iff.mpr ⟨front, final, rfl, hfinal, hwords⟩, ⟨hnesting, hcanonical⟩,
        trivial⟩
    obtain ⟨after, hrun, -⟩ := hreads.complete hfree hseq haccepts
    exact ⟨after, hrun⟩

/-! ## One tree -/

/-- The words of a tree are derived from `classes`. -/
theorem IsTreeOf.derives {program : Program} {words : List Word} (h : program.IsTreeOf words) :
    Derives [.part .classes] words := by
  refine .of_map_normal ?_
  rw [← h.1]
  exact ClassDef.derives_series program.classes

/-- What is derived from `classes` has a tree: the canonical form of one that spells it. -/
theorem exists_isTreeOf {words : List Word} (h : Derives [.part .classes] words) :
    ∃ program : Program, program.IsTreeOf words := by
  obtain ⟨classes, hwords⟩ : ∃ classes : Series ClassDef,
    wordsOfRun ClassDef.words classes.toList = words.map Word.normal := h.spells
  refine ⟨canonical ⟨classes⟩, ?_, isCanonical_canonical _⟩
  have hcanonical := words_canonical ⟨classes⟩
  rw [Program.words, Program.words, hwords] at hcanonical
  exact List.append_cancel_right hcanonical

/-- Words have one tree: with levels enough, the routine gives each tree that they have. -/
theorem IsTreeOf.unique {program program' : Program} {words : List Word}
    (h : program.IsTreeOf words) (h' : program'.IsTreeOf words) : program = program' := by
  obtain ⟨front, rfl⟩ := exists_map_toWord_eq words
  obtain ⟨parser, rest, hfree, hseq, -⟩ :=
    Parser.exists_sequence (front ++ [Token.endAt .null]) (Token.endAt .null)
  let levels := max program.nesting program'.nesting
  have hruns : ∀ tree : Program, tree.IsTreeOf (front.map Token.toWord) →
      tree.nesting ≤ levels → ∃ after, parse levels parser = .ok tree after := by
    intro tree htree hnesting
    exact (parsesTo_iff hfree).mpr ⟨front, _, rest, hseq, rfl, htree, hnesting⟩
  obtain ⟨after, hrun⟩ := hruns program h (Nat.le_max_left _ _)
  obtain ⟨after', hrun'⟩ := hruns program' h' (Nat.le_max_right _ _)
  rw [hrun] at hrun'
  cases hrun'
  rfl

/-- What `classes` derives, and nothing else, is read as exactly one program. -/
theorem existsUnique_isTreeOf {words : List Word} :
    Derives [.part .classes] words ↔ ∃! program : Program, program.IsTreeOf words := by
  constructor
  · intro h
    obtain ⟨program, hprogram⟩ := exists_isTreeOf h
    exact ⟨program, hprogram, fun _ h' => h'.unique hprogram⟩
  · rintro ⟨program, hprogram, -⟩
    exact hprogram.derives

end Program

/-! ## The language -/

/-- With no deadline, a program is parsed exactly if its tokens up to an end token are derived from
`classes`, the program is their tree, and it is not nested too deep; and what is derived has exactly
one tree. -/
theorem parseWith_eq_ok_iff (tokens : List Token) (file : String) (limits : Limits)
    (program : Program) :
    ((parseWith (.ofTokens tokens file) { limits with deadline := none }).1 = .ok program ↔
      ∃ (front : List Token) (final : Token) (rest : Stream' Token),
        tokens ++ₛ Stream'.const (TokenStream.finalOf tokens file) = (front ++ [final]) ++ₛ rest ∧
        final.kind = .eof ∧ Derives [.part .classes] (front.map Token.toWord) ∧
        program.IsTreeOf (front.map Token.toWord) ∧ program.nesting ≤ limits.maxDepth) ∧
    ∀ words, Derives [.part .classes] words ↔ ∃! tree : Program, tree.IsTreeOf words := by
  refine ⟨?_, fun _ => Program.existsUnique_isTreeOf⟩
  rw [parseWith_fst_eq_ok, Program.parsesTo_iff rfl, Parser.sequence_started,
    TokenStream.sequence_ofTokens]
  constructor
  · rintro ⟨front, final, rest, hseq, hfinal, htree, hnesting⟩
    exact ⟨front, final, rest, hseq, hfinal, htree.derives, htree, hnesting⟩
  · rintro ⟨front, final, rest, hseq, hfinal, -, htree, hnesting⟩
    exact ⟨front, final, rest, hseq, hfinal, htree, hnesting⟩

end FrappeSyntax
