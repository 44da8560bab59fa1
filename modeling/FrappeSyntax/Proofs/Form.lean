import FrappeSyntax.Proofs.Following
import FrappeSyntax.Proofs.Reading
import FrappeSyntax.Proofs.Shape

/-!
# Forms

A form describes one sort of trees: the words of such a tree, the levels that it fits into, and the
tokens that it stops before. What can be read as a tree of the form are the tokens of its words.

The forms of series are made from the forms of their items, as the routines for series are.

* `Form.reading`: what is read as a tree of a form.
* `Form.separated`, `Form.run`, `Form.between`: the forms of series.
* `Form.Endless`: no tree of a form holds the end of a source.
* `Reads.form`, `ReadsAfter.form`: a routine reads the trees of a form.
-/

namespace FrappeSyntax

/-- One sort of trees. -/
structure Form (α : Type) where
  /-- The words of a tree. -/
  words : α → List Word
  /-- A tree fits into a number of levels. -/
  fits : Nat → α → Prop
  /-- A tree stops before a token. -/
  stops : Token → α → Prop
  fits_mono : ∀ {levels levels' tree}, levels ≤ levels' → fits levels tree → fits levels' tree
  exists_tokens : ∃ tokens tree, normals tokens = words tree

namespace Form

/-- The tokens of a tree are read as this tree, if there are levels enough and nothing after them
goes on with it. -/
def reading (form : Form α) : Reading α where
  admits tokens tree := normals tokens = form.words tree
  accepts levels tokens tree following :=
    normals tokens = form.words tree ∧ form.fits levels tree ∧ form.stops following tree
  admits_of_accepts h := h.1
  accepts_mono hle h := ⟨h.1, form.fits_mono hle h.2.1, h.2.2⟩
  exists_admits := form.exists_tokens

/-- Series with separators between the items. -/
def separated (separator : String) (form : Form α) : Form (Series α) where
  words series := wordsOfSeparated separator form.words series.toList
  fits levels series := ∀ item ∈ series.toList, form.fits levels item
  stops following series := form.stops following series.last ∧ following.isSingle separator = false
  fits_mono hle h item hitem := form.fits_mono hle (h item hitem)
  exists_tokens := by
    obtain ⟨tokens, tree, h⟩ := form.exists_tokens
    exact ⟨tokens, ⟨tree, []⟩, by rw [h]; exact (List.append_nil _).symm⟩

/-- Series whose items stand one after the other up to a token that ends them. -/
def run (ends : Token → Bool) (form : Form α) : Form (Series α) where
  words series := wordsOfRun form.words series.toList
  fits levels series := ∀ item ∈ series.toList, form.fits levels item
  stops following _ := ends following = true
  fits_mono hle h item hitem := form.fits_mono hle (h item hitem)
  exists_tokens := by
    obtain ⟨tokens, tree, h⟩ := form.exists_tokens
    exact ⟨tokens, ⟨tree, []⟩, by rw [h]; exact (List.append_nil _).symm⟩

/-- The items of series, or none, between two words of punctuation. -/
def between (opening closing : String) (form : Form (Series α)) : Form (List α) where
  words items :=
    .single opening :: (((Series.ofList? items).elim [] form.words) ++ [.single closing])
  fits levels items := ∀ series ∈ Series.ofList? items, form.fits levels series
  stops _ _ := True
  fits_mono hle h series hseries := form.fits_mono hle (h series hseries)
  exists_tokens :=
    ⟨[⟨.single opening, .null, .null⟩, ⟨.single closing, .null, .null⟩], [], by simp [Series.ofList?]⟩

theorem words_between_separated (form : Form α) (separator opening closing : String)
    (items : List α) :
    ((form.separated separator).between opening closing).words items =
      .single opening :: (wordsOfSeparated separator form.words items ++ [.single closing]) := by
  cases items <;> rfl

theorem words_between_run (form : Form α) (ends : Token → Bool) (opening closing : String)
    (items : List α) :
    ((form.run ends).between opening closing).words items =
      .single opening :: (wordsOfRun form.words items ++ [.single closing]) := by
  cases items <;> rfl

theorem fits_between_separated {form : Form α} {separator opening closing : String} {levels : Nat}
    {items : List α} :
    ((form.separated separator).between opening closing).fits levels items ↔
      ∀ item ∈ items, form.fits levels item := by
  cases items <;> simp [between, separated, Series.ofList?, Series.toList]

theorem fits_between_run {form : Form α} {ends : Token → Bool} {opening closing : String}
    {levels : Nat} {items : List α} :
    ((form.run ends).between opening closing).fits levels items ↔
      ∀ item ∈ items, form.fits levels item := by
  cases items <;> simp [between, run, Series.ofList?, Series.toList]

/-- No word of a tree ends the source, and all of them can be words of tokens. -/
def Endless (form : Form α) : Prop := ∀ tree, ∀ word ∈ form.words tree, word.IsInner

theorem Endless.kind_ne {form : Form α} (h : form.Endless) {tokens : List Token} {tree : α}
    (htokens : normals tokens = form.words tree) {token : Token} (hmem : token ∈ tokens) :
    token.kind ≠ .eof := by
  have hword : token.toWord.normal ∈ form.words tree := htokens ▸ List.mem_map_of_mem hmem
  rw [← Word.kind_normal]
  exact (h tree _ hword).2

end Form

/-- A token that was taken before is the first one that is read. -/
theorem exists_of_normals_eq_cons {token : Token} {tokens : List Token} {word : Word}
    {words : List Word} {s rest : Stream' Token} (hseq : [token] ++ₛ s = tokens ++ₛ rest)
    (h : normals tokens = word :: words) :
    ∃ back, tokens = token :: back ∧ token.toWord.normal = word ∧ normals back = words := by
  obtain ⟨first, back, rfl, hfirst, hback⟩ := normals_eq_cons.mp h
  obtain rfl : token = first := congrArg Stream'.head hseq
  exact ⟨back, rfl, hfirst, hback⟩

section

variable {taken : List Token} {levels more : Nat} {routine full : Routine α} {reading : Reading α}

/-- Another reading, which is told by its tokens and by what holds of the tree and of the token that
follows. -/
theorem ReadsAfter.weaken_and {other : Reading α} {holds : Nat → α → Token → Prop}
    (h : ReadsAfter taken levels more routine full reading)
    (hother : ∀ {levels tokens tree following}, other.accepts levels tokens tree following ↔
      other.admits tokens tree ∧ holds levels tree following)
    (hadmits : ∀ {tokens tree}, reading.admits tokens tree → other.admits tokens tree)
    (hholds : ∀ {levels tokens tree sequence rest}, taken ++ₛ sequence = tokens ++ₛ rest →
      reading.accepts levels tokens tree rest.head → holds levels tree rest.head)
    (haccepts : ∀ {levels tokens tree sequence rest}, taken ++ₛ sequence = tokens ++ₛ rest →
      other.accepts levels tokens tree rest.head → reading.accepts levels tokens tree rest.head) :
    ReadsAfter taken levels more routine full other := by
  refine h.weaken hadmits fun hseq => ⟨?_, haccepts hseq⟩
  intro hacc
  exact hother.mpr ⟨hadmits (reading.admits_of_accepts hacc), hholds hseq hacc⟩

theorem Reads.congr_and {other : Reading α} {holds : Nat → α → Token → Prop}
    (h : Reads levels more routine full reading)
    (hother : ∀ {levels tokens tree following}, other.accepts levels tokens tree following ↔
      other.admits tokens tree ∧ holds levels tree following)
    (hadmits : ∀ {tokens tree}, reading.admits tokens tree → other.admits tokens tree)
    (hholds : ∀ {levels tokens tree following}, reading.accepts levels tokens tree following →
      holds levels tree following)
    (haccepts : ∀ {levels tokens tree following}, other.accepts levels tokens tree following →
      reading.accepts levels tokens tree following) :
    Reads levels more routine full other :=
  h.weaken_and hother hadmits (fun _ => hholds) fun _ => haccepts

/-- What is read are the trees of a form: they have the words of such trees, fit and stop like them,
and all of them are read. -/
theorem ReadsAfter.form {form : Form α} (h : ReadsAfter taken levels more routine full reading)
    (hwords : ∀ {tokens tree}, reading.admits tokens tree → normals tokens = form.words tree)
    (hholds : ∀ {levels tokens tree sequence rest}, taken ++ₛ sequence = tokens ++ₛ rest →
      reading.accepts levels tokens tree rest.head →
        form.fits levels tree ∧ form.stops rest.head tree)
    (haccepts : ∀ {levels tokens tree sequence rest}, taken ++ₛ sequence = tokens ++ₛ rest →
      form.reading.accepts levels tokens tree rest.head →
        reading.accepts levels tokens tree rest.head) :
    ReadsAfter taken levels more routine full form.reading :=
  h.weaken_and Iff.rfl hwords hholds haccepts

theorem Reads.form {form : Form α} (h : Reads levels more routine full reading)
    (hwords : ∀ {tokens tree}, reading.admits tokens tree → normals tokens = form.words tree)
    (hholds : ∀ {levels tokens tree following}, reading.accepts levels tokens tree following →
      form.fits levels tree ∧ form.stops following tree)
    (haccepts : ∀ {levels tokens tree following},
      form.reading.accepts levels tokens tree following →
        reading.accepts levels tokens tree following) :
    Reads levels more routine full form.reading :=
  h.congr_and Iff.rfl hwords hholds haccepts

end

end FrappeSyntax
