import FrappeSyntax.Proofs.Form
import FrappeSyntax.Proofs.Repetition
import FrappeSyntax.Series.Parser

/-!
# Reading series

The routines for the three kinds of series read what the forms of these series say, if the routine
for an item reads what the form of an item says.

* `Reads.separated`, `Reads.run`, `Reads.between`: series with separators, series up to a token that
  ends them, series in brackets that may be empty.
-/

namespace FrappeSyntax

section

variable {item full : Routine α} {form : Form α} {levels more : Nat}

/-! ## Items with separators -/

/-- The routine for a series takes the separators without a look. As the loop looked at them before,
it may as well check them. -/
theorem Series.parse_eq (separator : String) (item : Routine α) :
    Series.parse separator item = (do
      let first ← item
      let rest ← Routine.repeatWhile (·.isSingle separator) do
        let _ ← Routine.expectSingle separator ""
        item
      pure ⟨first, rest⟩) := by
  have hitem : ∀ parser : Parser, parser.sequence.head.isSingle separator = true →
      (Routine.next >>= fun _ => item) parser =
        (Routine.expectSingle separator "" >>= fun _ => item) parser := by
    intro parser h
    obtain ⟨token, after, hnext, hseq, -⟩ := Routine.next_apply parser
    have hword : token.toWord = .single separator := by
      rw [hseq] at h
      exact Word.isSingle_iff.mp h
    have hexpect : Routine.expectSingle separator "" parser = .ok token after := by
      rw [Routine.expectSingle, Routine.bind_apply, hnext]
      dsimp only
      rw [Token.expectWord, if_pos hword]
      rfl
    rw [Routine.bind_apply, Routine.bind_apply, hnext, hexpect]
  have hloop : Routine.repeatWhile (·.isSingle separator) (Routine.next >>= fun _ => item) =
      Routine.repeatWhile (·.isSingle separator)
        (Routine.expectSingle separator "" >>= fun _ => item) := by
    funext parser
    exact congrFun (Routine.repeatFor_congr hitem _ _) parser
  rw [Series.parse, hloop]

/-- The items after a first one, each after a separator. -/
theorem Form.manyAccept_separated_iff {separator : String}
    (hstops : ∀ {following tree}, following.isSingle separator = true →
      form.stops following tree)
    {tokens : List Token} {first : α} {rest : List α} {following : Token} :
    (form.stops (tokens.headD following) first ∧
      Reading.ManyAccept (·.isSingle separator) ((Reading.single separator).bind fun _ =>
        form.reading) levels following tokens rest) ↔
      normals tokens = wordsOfMore separator form.words rest ∧
        (∀ tree ∈ rest, form.fits levels tree) ∧ form.stops following (rest.getLastD first) ∧
        following.isSingle separator = false := by
  induction rest generalizing tokens first with
  | nil =>
    constructor
    · rintro ⟨hfirst, rfl, hnone⟩
      exact ⟨rfl, by simp, hfirst, hnone⟩
    · rintro ⟨hwords, -, hfirst, hnone⟩
      obtain rfl := normals_eq_nil.mp hwords
      exact ⟨hfirst, rfl, hnone⟩
  | cons next rest ih =>
    rw [List.getLastD_cons, List.forall_mem_cons]
    constructor
    · rintro ⟨-, _, back, rfl, ⟨token, _, front, rfl, ⟨rfl, htoken⟩, hwords, hfits, hstop⟩, hmore⟩
      obtain ⟨hback, hrest, hlast⟩ := ih.mp ⟨hstop, hmore⟩
      refine ⟨?_, ⟨hfits, hrest⟩, hlast⟩
      have htoken : token.toWord.normal = .single separator := by rwa [Word.normal_eq_single]
      simp [wordsOfMore, hwords, htoken, hback]
    · rintro ⟨hwords, ⟨hfits, hrest⟩, hlast⟩
      obtain ⟨token, tokens, rfl, htoken, htokens⟩ := normals_eq_cons.mp hwords
      obtain ⟨front, back, rfl, hfront, hback⟩ := normals_eq_append.mp htokens
      have htoken : token.toWord = .single separator := by rwa [Word.normal_eq_single] at htoken
      obtain ⟨hstop, hmore⟩ := ih.mpr ⟨hback, hrest, hlast⟩
      exact ⟨hstops (Word.isSingle_iff.mpr htoken), token :: front, back, rfl,
        ⟨token, [token], front, rfl, ⟨rfl, htoken⟩, hfront, hfits, hstop⟩, hmore⟩

theorem Form.manyAdmit_separated {separator : String} {tokens : List Token} {rest : List α}
    (h : Reading.ManyAdmit ((Reading.single separator).bind fun _ => form.reading) tokens rest) :
    normals tokens = wordsOfMore separator form.words rest := by
  induction rest generalizing tokens with
  | nil =>
    obtain rfl := h
    rfl
  | cons next rest ih =>
    obtain ⟨_, back, rfl, ⟨token, _, front, rfl, ⟨rfl, htoken⟩, hwords⟩, hmore⟩ := h
    have htoken : token.toWord.normal = .single separator := by rwa [Word.normal_eq_single]
    have hwords : normals front = form.words next := hwords
    simp [wordsOfMore, hwords, htoken, ih hmore]

/-- A separator calls for an item after it. -/
theorem Form.Endless.isItem_separated (h : form.Endless) (separator : String) :
    ((Reading.single separator).bind fun _ => form.reading).IsItem (·.isSingle separator) where
  starts := by
    rintro _ tree ⟨token, _, back, rfl, ⟨rfl, htoken⟩, -⟩
    exact ⟨token, back, rfl, Word.isSingle_iff.mpr htoken⟩
  endless := by
    rintro _ tree ⟨token, _, back, rfl, ⟨rfl, htoken⟩, hwords⟩ other hmem
    rcases List.mem_cons.mp hmem with rfl | hmem
    · rw [htoken]
      simp [Word.single]
    · exact h.kind_ne hwords hmem

/-- Items with separators between them are read as such. -/
theorem Reads.separated {separator : String} (h : Reads levels more item full form.reading)
    (hendless : form.Endless)
    (hstops : ∀ {following tree}, following.isSingle separator = true →
      form.stops following tree) :
    Reads levels more (Series.parse separator item) (Series.parse separator full)
      (form.separated separator).reading := by
  rw [Series.parse_eq, Series.parse_eq]
  refine Reads.congr (.bind h fun first => .bind (.repeatWhile
    (.bind (.expectSingle h.le separator "") fun _ => h) (hendless.isItem_separated separator))
      fun rest => .pure h.le _) ?_ ?_
  · rintro _ series ⟨first, front, _, rfl, hfirst, rest, back, _, rfl, hrest, rfl, rfl⟩
    have hfirst : normals front = form.words first := hfirst
    have hrest := Form.manyAdmit_separated hrest
    simp [Form.reading, Form.separated, wordsOfSeparated, Series.toList, hfirst, hrest]
  · intro levels tokens series following
    constructor
    · rintro ⟨first, front, _, rfl, ⟨hwords, hfits, hstop⟩, rest, back, _, rfl, hrest, rfl, rfl⟩
      rw [List.append_nil] at hstop
      obtain ⟨hback, hfits', hlast⟩ := (Form.manyAccept_separated_iff hstops).mp ⟨hstop, hrest⟩
      refine ⟨?_, List.forall_mem_cons.mpr ⟨hfits, hfits'⟩, hlast⟩
      simp [Form.separated, wordsOfSeparated, Series.toList, hwords, hback]
    · rintro ⟨hwords, hfits, hlast⟩
      obtain ⟨first, rest⟩ := series
      obtain ⟨front, back, rfl, hfront, hback⟩ := normals_eq_append.mp hwords
      obtain ⟨hfits, hfits'⟩ := List.forall_mem_cons.mp hfits
      obtain ⟨hstop, hmore⟩ := (Form.manyAccept_separated_iff hstops).mpr ⟨hback, hfits', hlast⟩
      exact ⟨first, front, back, rfl, ⟨hfront, hfits, hstop⟩, rest, back, [],
        (List.append_nil _).symm, hmore, rfl, rfl⟩

/-! ## Items in a run -/

/-- The items after a first one, up to a token that ends them. -/
theorem Form.manyAccept_run_iff {ends : Token → Bool}
    (hends : ∀ {following tree}, ends following = true → form.stops following tree)
    (hstarts : ∀ {tokens tree}, normals tokens = form.words tree → ∃ token rest,
      tokens = token :: rest ∧ ends token = false ∧ ∀ before, form.stops token before)
    {tokens : List Token} {first : α} {rest : List α} {following : Token} :
    (form.stops (tokens.headD following) first ∧
      Reading.ManyAccept (!ends ·) form.reading levels following tokens rest) ↔
      normals tokens = wordsOfRun form.words rest ∧ (∀ tree ∈ rest, form.fits levels tree) ∧
        ends following = true := by
  induction rest generalizing tokens first with
  | nil =>
    constructor
    · rintro ⟨-, rfl, hnone⟩
      exact ⟨rfl, by simp, by simpa using hnone⟩
    · rintro ⟨hwords, -, hnone⟩
      obtain rfl := normals_eq_nil.mp hwords
      exact ⟨hends hnone, rfl, by simpa using hnone⟩
  | cons next rest ih =>
    rw [List.forall_mem_cons]
    constructor
    · rintro ⟨-, front, back, rfl, ⟨hwords, hfits, hstop⟩, hmore⟩
      obtain ⟨hback, hrest, hend⟩ := ih.mp ⟨hstop, hmore⟩
      exact ⟨by simp [wordsOfRun, hwords, hback], ⟨hfits, hrest⟩, hend⟩
    · rintro ⟨hwords, ⟨hfits, hrest⟩, hend⟩
      obtain ⟨front, back, rfl, hfront, hback⟩ := normals_eq_append.mp hwords
      obtain ⟨hstop, hmore⟩ := ih.mpr ⟨hback, hrest, hend⟩
      obtain ⟨token, others, rfl, -, hbefore⟩ := hstarts hfront
      exact ⟨hbefore first, token :: others, back, rfl, ⟨hfront, hfits, hstop⟩, hmore⟩

theorem Form.manyAdmit_run {tokens : List Token} {rest : List α}
    (h : Reading.ManyAdmit form.reading tokens rest) :
    normals tokens = wordsOfRun form.words rest := by
  induction rest generalizing tokens with
  | nil =>
    obtain rfl := h
    rfl
  | cons next rest ih =>
    obtain ⟨front, back, rfl, hwords, hmore⟩ := h
    have hwords : normals front = form.words next := hwords
    simp [wordsOfRun, hwords, ih hmore]

/-- Items up to a token that ends them are read as such. -/
theorem Reads.run {ends : Token → Bool} (h : Reads levels more item full form.reading)
    (hendless : form.Endless)
    (hends : ∀ {following tree}, ends following = true → form.stops following tree)
    (hstarts : ∀ {tokens tree}, normals tokens = form.words tree → ∃ token rest,
      tokens = token :: rest ∧ ends token = false ∧ ∀ before, form.stops token before) :
    Reads levels more (Series.parseUntil ends item) (Series.parseUntil ends full)
      (form.run ends).reading := by
  have hitem : form.reading.IsItem (!ends ·) := by
    constructor
    · intro tokens tree hwords
      obtain ⟨token, rest, rfl, hnone, -⟩ := hstarts hwords
      exact ⟨token, rest, rfl, by simp [hnone]⟩
    · intro tokens tree hwords token hmem
      exact hendless.kind_ne hwords hmem
  refine Reads.congr (.bind h fun first => .bind (.repeatWhile h hitem) fun rest =>
    .pure h.le _) ?_ ?_
  · rintro _ series ⟨first, front, _, rfl, hfirst, rest, back, _, rfl, hrest, rfl, rfl⟩
    have hfirst : normals front = form.words first := hfirst
    have hrest := Form.manyAdmit_run hrest
    simp [Form.reading, Form.run, wordsOfRun, Series.toList, hfirst, hrest]
  · intro levels tokens series following
    constructor
    · rintro ⟨first, front, _, rfl, ⟨hwords, hfits, hstop⟩, rest, back, _, rfl, hrest, rfl, rfl⟩
      rw [List.append_nil] at hstop
      obtain ⟨hback, hfits', hend⟩ := (Form.manyAccept_run_iff hends hstarts).mp ⟨hstop, hrest⟩
      refine ⟨?_, List.forall_mem_cons.mpr ⟨hfits, hfits'⟩, hend⟩
      rw [normals_append, List.append_nil, hwords, hback]
      rfl
    · rintro ⟨hwords, hfits, hend⟩
      obtain ⟨first, rest⟩ := series
      obtain ⟨front, back, rfl, hfront, hback⟩ := normals_eq_append.mp hwords
      obtain ⟨hfits, hfits'⟩ := List.forall_mem_cons.mp hfits
      obtain ⟨hstop, hmore⟩ :=
        (Form.manyAccept_run_iff hends hstarts).mpr ⟨hback, hfits', hend⟩
      exact ⟨first, front, back, rfl, ⟨hfront, hfits, hstop⟩, rest, back, [],
        (List.append_nil _).symm, hmore, rfl, rfl⟩

/-! ## Items in brackets -/

/-- Items between two words of punctuation are read as such, or none if the second word follows the
first at once. -/
theorem Reads.between {routine full : Routine (Series α)} {form : Form (Series α)}
    {opening closing : String} (production : String)
    (h : Reads levels more routine full form.reading)
    (hcloses : ∀ {following series}, following.isSingle closing = true →
      form.stops following series)
    (hstarts : ∀ {tokens series}, normals tokens = form.words series → ∃ token rest,
      tokens = token :: rest ∧ token.isSingle closing = false) :
    Reads levels more (Series.parseBetween opening closing production routine)
      (Series.parseBetween opening closing production full)
      (form.between opening closing).reading := by
  have hunless : Reads levels more (Series.parseUnless closing routine)
      (Series.parseUnless closing full) (Reading.peek.bind fun next =>
        if next.isSingle closing then .pure [] else form.reading.bind fun series =>
          .pure series.toList) := by
    refine .bind (.peek h.le) fun next => ?_
    split
    · exact .pure h.le []
    · exact .bind h fun series => .pure h.le _
  refine Reads.congr (.bind (.expectSingle h.le opening production) fun _ => .bind hunless fun _ =>
    .bind (.expectSingle h.le closing production) fun _ => .pure h.le _) ?_ ?_
  · rintro _ items ⟨token, _, _, rfl, ⟨rfl, htoken⟩, _, _, _, rfl, ⟨next, _, _, rfl, rfl, hitems⟩,
      last, _, _, rfl, ⟨rfl, hlast⟩, rfl, rfl⟩
    have htoken : token.toWord.normal = .single opening := by rwa [Word.normal_eq_single]
    have hlast : last.toWord.normal = .single closing := by rwa [Word.normal_eq_single]
    dsimp only at hitems
    split at hitems
    · obtain ⟨rfl, rfl⟩ := hitems
      simp [Form.reading, Form.between, Series.ofList?, htoken, hlast]
    · obtain ⟨series, front, _, rfl, hwords, rfl, rfl⟩ := hitems
      have hwords : normals front = form.words series := hwords
      simp [Form.reading, Form.between, Series.ofList?_toList, htoken, hlast, hwords]
  · intro levels tokens items following
    constructor
    · rintro ⟨token, _, _, rfl, ⟨rfl, htoken⟩, _, _, _, rfl,
        ⟨next, _, middle, rfl, ⟨rfl, hnext⟩, hitems⟩, last, _, _, rfl, ⟨rfl, hlast⟩, rfl, rfl⟩
      have htoken : token.toWord.normal = .single opening := by rwa [Word.normal_eq_single]
      have hlast' : last.toWord.normal = .single closing := by rwa [Word.normal_eq_single]
      dsimp only at hitems
      split at hitems
      · obtain ⟨rfl, rfl⟩ := hitems
        simp [Form.reading, Form.between, Series.ofList?, htoken, hlast']
      · obtain ⟨series, front, _, rfl, ⟨hwords, hfits, -⟩, rfl, rfl⟩ := hitems
        simp [Form.reading, Form.between, Series.ofList?_toList, htoken, hlast', hwords, hfits]
    · rintro ⟨hwords, hfits, -⟩
      obtain ⟨token, tokens, rfl, htoken, htokens⟩ := normals_eq_cons.mp hwords
      obtain ⟨middle, _, rfl, hmiddle, hback⟩ := normals_eq_append.mp htokens
      obtain ⟨last, _, rfl, hlast, hnil⟩ := normals_eq_cons.mp hback
      obtain rfl := normals_eq_nil.mp hnil
      rw [Word.normal_eq_single] at htoken hlast
      have hclose : last.isSingle closing = true := Word.isSingle_iff.mpr hlast
      refine ⟨token, [token], middle ++ [last], rfl, ⟨rfl, htoken⟩, items, middle, [last], rfl,
        ⟨middle.headD last, [], middle, rfl, ⟨rfl, rfl⟩, ?_⟩, last, [last], [], rfl, ⟨rfl, hlast⟩,
        rfl, rfl⟩
      cases items with
      | nil =>
        obtain rfl := normals_eq_nil.mp hmiddle
        dsimp only [List.headD_nil]
        rw [if_pos hclose]
        exact ⟨rfl, rfl⟩
      | cons first rest =>
        obtain ⟨start, others, rfl, hstart⟩ := hstarts hmiddle
        dsimp only [List.headD_cons]
        rw [if_neg (by simp [hstart])]
        exact ⟨⟨first, rest⟩, start :: others, [], (List.append_nil _).symm,
          ⟨hmiddle, hfits _ rfl, hcloses hclose⟩, rfl, rfl⟩

end

end FrappeSyntax
