import FrappeSyntax.Proofs.Acceptance
import FrappeSyntax.Proofs.Spelling

/-!
# Writing a program and reading it again

A program is written as the words of its classes, with a space between them. If every word can be
written, this is scanned as the same words. They have one canonical tree, so a program that is
canonical, and not nested too deep, is parsed from its own source.

* `parse_source`: a program is read from its source.
-/

namespace FrappeSyntax

namespace Program

/-- The source that a program is written as. -/
def source (program : Program) : String :=
  .ofList ([' '].intercalate
    ((wordsOfRun ClassDef.words program.classes.toList).map Word.spelling))

/-- Holds when each name and each literal in a program can be written as a word of its kind. -/
def isWritable (program : Program) : Bool :=
  (wordsOfRun ClassDef.words program.classes.toList).all Word.isWritable

theorem writes_source (program : Program) :
    Writes program.source.toList (wordsOfRun ClassDef.words program.classes.toList) := by
  rw [source, String.toList_ofList]
  exact writes_intercalate _

/-- The words of a tree keep no more than the tree does. -/
theorem isTreeOf_words {program : Program} (h : program.isCanonical = true) :
    program.IsTreeOf (wordsOfRun ClassDef.words program.classes.toList) := by
  refine ⟨?_, h⟩
  have hnormal : ∀ word ∈ wordsOfRun ClassDef.words program.classes.toList, word.normal = word :=
    fun word hword =>
      (isInner_of_mem_wordsOfRun ClassDef.isInner_of_mem program.classes.toList word hword).1
  rw [List.map_congr_left hnormal]
  exact (List.map_id' _).symm

end Program

/-- A canonical program whose words can be written, and that is nested no deeper than the usual
limit, is written as a source from which it is scanned and parsed again. -/
theorem parse_source (program : Program) (file : String) (hwritable : program.isWritable = true)
    (hcanonical : program.isCanonical = true) (hnesting : program.nesting ≤ 128) :
    ∃ tokens, tokenize program.source file = .ok tokens ∧
      (parse tokens file).1 = .ok program := by
  obtain ⟨front, stop, hscan, hwords⟩ :=
    tokenize_of_writes program.writes_source (List.all_eq_true.mp hwritable)
  refine ⟨front ++ [Token.endAt stop], hscan, ?_⟩
  have htree := Program.isTreeOf_words hcanonical
  rw [← hwords] at htree
  rw [parse, parseWith_fst_eq_ok, Program.parsesTo_iff rfl]
  exact ⟨front, Token.endAt stop, _, rfl, rfl, htree, hnesting⟩

/-- A class with each kind of member, statement and literal. -/
def Program.sample : Program :=
  ⟨⟨⟨"A", ⟨.instanceField "x",
    [.staticField "y" (some (.literal .string "say \"hi\"")), .staticField "z" none,
      .constructor "A" ⟨["a", "b"], [.assign "x" (.new ⟨"B", [.literal .number "1.5"]⟩)]⟩,
      .instanceMethod "run" ⟨[], [.while (.literal .true "true")
        [.if (.literal .this "this") [.return (.literal .null "null")]]]⟩,
      .staticMethod "make_1" ⟨["c"], [.new ⟨"A", []⟩,
        .return (.chain (.ref .this "this") [.call .name "at" [.literal .false "false"]])]⟩]⟩⟩, []⟩⟩

theorem parse_source_sample :
    ∃ tokens, tokenize Program.sample.source "a" = .ok tokens ∧
      (parse tokens "a").1 = .ok Program.sample :=
  parse_source Program.sample "a" (by decide +kernel) (by decide +kernel) (by decide +kernel)

end FrappeSyntax
