import FrappeSyntax.Proofs.Member

/-!
# Reading programs

* `ClassDef.reads`, `ClassDef.series_reads`, `Program.reads`: the routines for classes, series of
  classes and programs read these.
-/

namespace FrappeSyntax

namespace ClassDef

theorem isInner_of_mem (classDef : ClassDef) : ∀ word ∈ classDef.words, word.IsInner :=
  List.forall_mem_cons.mpr ⟨Word.isInner_ofKind (by decide), List.forall_mem_cons.mpr
    ⟨Word.isInner_mk rfl _, isInner_of_mem_wordsInBraces
      (isInner_of_mem_wordsOfRun Member.isInner_of_mem classDef.members.toList)⟩⟩

/-- A class with one field. -/
def least : ClassDef := ⟨"", ⟨.instanceField "", []⟩⟩

/-- Classes, as they are read. -/
def form : Form ClassDef where
  words := ClassDef.words
  fits := ClassDef.Fits
  stops _ _ := True
  fits_mono hle h := ⟨Nat.le_trans h.1 hle, h.2⟩
  exists_tokens := by
    obtain ⟨tokens, h⟩ := exists_normals_eq fun word hword => (least.isInner_of_mem word hword).1
    exact ⟨tokens, least, h⟩

/-- Series of classes, as they are read. -/
def seriesForm : Form (Series ClassDef) := form.run (·.isKind .eof)

section

variable {levels more : Nat}

/-- The routine for classes reads classes. -/
theorem reads (hle : levels ≤ more) :
    Reads levels more (parse levels) (parse more) form.reading := by
  refine ReadsAfter.enter _ (Reads.form (.bind (.expect hle .classWord _) fun _ =>
    .bind (.expect hle .className _) fun name => .bind (.expectSingle hle "\x7b" _) fun _ =>
      .bind (Member.series_reads hle) fun members => .bind (.expectSingle hle "\x7d" _) fun _ =>
        .pure hle (ClassDef.mk name.text members)) ?_ ?_ ?_)
  · rintro _ classDef ⟨token, _, _, rfl, ⟨rfl, htoken⟩, name, _, _, rfl, ⟨rfl, hname⟩, brace, _, _,
      rfl, ⟨rfl, hbrace⟩, members, front, _, rfl, hmembers, brace', _, _, rfl, ⟨rfl, hbrace'⟩, rfl,
      rfl⟩
    have htoken := (Word.normal_eq_ofKind rfl).mpr htoken
    have hname := Word.normal_of_kind_eq rfl hname
    have hmembers : normals front = wordsOfRun Member.words members.toList := hmembers
    show normals _ = ClassDef.words _
    simp [words, wordsInBraces, htoken, hname, hbrace, hbrace', hmembers]
  · rintro levels _ classDef following ⟨_, _, _, rfl, -, _, _, _, rfl, -, _, _, _, rfl, -, members,
      front, _, rfl, ⟨-, hfits, -⟩, _, _, _, rfl, -, rfl, rfl⟩
    exact ⟨fits_iff.mpr hfits, trivial⟩
  · rintro levels tokens classDef following ⟨hwords, hfits, -⟩
    obtain ⟨token, _, rfl, htoken, hrest⟩ := normals_eq_cons.mp hwords
    obtain ⟨name, _, rfl, hname, hrest⟩ := normals_eq_cons.mp hrest
    obtain ⟨brace, _, rfl, hbrace, hrest⟩ := normals_eq_cons.mp hrest
    obtain ⟨front, _, rfl, hmembers, hrest⟩ := normals_eq_append.mp hrest
    obtain ⟨brace', _, rfl, hbrace', hrest⟩ := normals_eq_cons.mp hrest
    obtain rfl := normals_eq_nil.mp hrest
    rw [Word.normal_eq_ofKind rfl] at htoken
    rw [Word.normal_eq_mk rfl] at hname
    rw [Word.normal_eq_single] at hbrace hbrace'
    refine ⟨token, [token], _, rfl, ⟨rfl, htoken⟩, name, [name], _, rfl,
      ⟨rfl, congrArg Word.kind hname⟩, brace, [brace], _, rfl, ⟨rfl, hbrace⟩, classDef.members,
      front, [brace'], rfl, ⟨hmembers, fits_iff.mp hfits, Word.isSingle_iff.mpr hbrace'⟩, brace',
      [brace'], [], rfl, ⟨rfl, hbrace'⟩, rfl, ?_⟩
    rw [congrArg Word.text hname]

/-- The routine for classes up to the end reads these. -/
theorem series_reads (hle : levels ≤ more) :
    Reads levels more (parseSeries levels) (parseSeries more) seriesForm.reading := by
  refine ReadsAfter.enter _ (Reads.run (reads hle) isInner_of_mem (fun _ => trivial) ?_)
  intro tokens classDef hwords
  obtain ⟨token, rest, rfl, htoken, -⟩ := normals_eq_cons.mp hwords
  rw [Word.normal_eq_ofKind rfl] at htoken
  exact ⟨token, rest, rfl, by simp [Token.isKind, htoken], fun _ => trivial⟩

end

end ClassDef

namespace Program

/-- Programs, as they are read. -/
def form : Form Program where
  words := Program.words
  fits := Program.Fits
  stops _ _ := True
  fits_mono hle h := ⟨Nat.le_trans h.1 hle, h.2⟩
  exists_tokens := by
    obtain ⟨tokens, h⟩ := exists_normals_eq fun word hword =>
      (ClassDef.least.isInner_of_mem word hword).1
    refine ⟨tokens ++ [Token.endAt .null], ⟨⟨.least, []⟩⟩, ?_⟩
    rw [normals_append, h, words, Series.toList, wordsOfRun, List.flatMap_singleton]
    rfl

/-- The routine for programs reads programs. -/
theorem reads {levels more : Nat} (hle : levels ≤ more) :
    Reads levels more (parse levels) (parse more) form.reading := by
  refine ReadsAfter.enter _ (Reads.form (.bind (ClassDef.series_reads hle) fun classes =>
    .bind (.expect hle .eof _) fun _ => .pure hle (Program.mk classes)) ?_ ?_ ?_)
  · rintro _ program ⟨classes, front, _, rfl, hclasses, token, _, _, rfl, ⟨rfl, htoken⟩, rfl, rfl⟩
    have htoken := (Word.normal_eq_ofKind rfl).mpr htoken
    have hclasses : normals front = wordsOfRun ClassDef.words classes.toList := hclasses
    show normals _ = wordsOfRun ClassDef.words classes.toList ++ [.ofKind .eof]
    rw [List.append_nil, normals_append, hclasses, ← htoken]
    rfl
  · rintro levels _ program following ⟨classes, front, _, rfl, ⟨-, hfits, -⟩, _, _, _, rfl, -, rfl,
      rfl⟩
    exact ⟨fits_iff.mpr hfits, trivial⟩
  · rintro levels tokens program following ⟨hwords, hfits, -⟩
    obtain ⟨front, _, rfl, hclasses, hrest⟩ := normals_eq_append.mp hwords
    obtain ⟨token, _, rfl, htoken, hrest⟩ := normals_eq_cons.mp hrest
    obtain rfl := normals_eq_nil.mp hrest
    rw [Word.normal_eq_ofKind rfl] at htoken
    refine ⟨program.classes, front, [token], rfl, ⟨hclasses, fits_iff.mp hfits, ?_⟩, token,
      [token], [], rfl, ⟨rfl, htoken⟩, rfl, rfl⟩
    show token.isKind .eof = true
    simp [Token.isKind, htoken]

end Program

end FrappeSyntax
