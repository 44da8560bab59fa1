import FrappeSyntax.Proofs.Line

/-!
# Looking up lines

A byte offset inside a text lies in one line, and the place that is found for it tells how the text
is divided: whole lines above, the line itself, and what is below it. The number of the line counts
the line feeds before the offset, so two offsets are in one line if none comes between them.

* `Text.lineInduction`: induction over the lines of a text.
* `Text.LinePlace.Holds`: the division of a text that a place stands for.
* `Text.lineAt?_eq_some_iff`: the place that is found for an offset is the one that holds it.
* `Text.feedsBefore`: the number of line feeds before an offset.
* `Text.lineAt?_inverts`: what is found for an offset, and for two of them.
-/

namespace FrappeSyntax.Text

/-! ## Lines -/

/-- Holds for whole lines: a text that is empty or ends in a line feed. -/
def IsWhole (text : List Char) : Prop :=
  text = [] ∨ text.getLast? = some '\n'

/-- Holds for one line, be it with or without a line feed at its end. -/
def IsLine (line : List Char) : Prop :=
  line ≠ [] ∧ '\n' ∉ line.dropLast

theorem IsWhole.lineFeed (start : List Char) : IsWhole (start ++ ['\n']) :=
  .inr List.getLast?_concat

/-- A whole text is empty or goes up to a line feed. -/
theorem IsWhole.eq_nil_or_concat {text : List Char} (h : IsWhole text) :
    text = [] ∨ ∃ start, text = start ++ ['\n'] := by
  rcases h with hnil | hlast
  · exact .inl hnil
  · obtain ⟨start, hstart⟩ := List.getLast?_eq_some_iff.mp hlast
    exact .inr ⟨start, hstart⟩

theorem IsWhole.append {first second : List Char} (hfirst : IsWhole first)
    (hsecond : IsWhole second) : IsWhole (first ++ second) := by
  rcases hsecond.eq_nil_or_concat with rfl | ⟨start, rfl⟩
  · rwa [List.append_nil]
  · rw [← List.append_assoc]
    exact .lineFeed _

/-- Whole lines can be divided from the lines after them. -/
theorem IsWhole.lines_append {above : List Char} (h : IsWhole above) (rest : List Char) :
    lines (above ++ rest) = lines above ++ lines rest := by
  rcases h.eq_nil_or_concat with rfl | ⟨start, rfl⟩
  · rfl
  · rw [List.append_assoc, List.singleton_append, lines_append_lineFeed]

/-- A whole text has as many lines as line feeds. -/
theorem IsWhole.length_lines {text : List Char} (h : IsWhole text) :
    (lines text).length = text.count '\n' := by
  rcases h.eq_nil_or_concat with rfl | ⟨start, rfl⟩
  · rfl
  · rw [length_lines_append_lineFeed, List.count_append, List.count_singleton_self]

theorem IsLine.lines_eq {line : List Char} (h : IsLine line) : lines line = [line] := by
  obtain ⟨hne, hfeed⟩ := h
  have hlast : lines [line.getLast hne] = [[line.getLast hne]] := by
    rw [lines]
    split <;> rfl
  have hlines := lines_append_of_notMem hfeed hlast
  rwa [List.dropLast_concat_getLast hne] at hlines

/-- The first line of a text, and what is below it. -/
theorem exists_line {text : List Char} (h : text ≠ []) :
    ∃ line below, text = line ++ below ∧ IsLine line ∧ (IsWhole line ∨ below = []) := by
  have hstart : '\n' ∉ text.takeWhile (· != '\n') := by
    intro hmem
    simpa using List.mem_takeWhile_imp hmem
  have hfirst : ∀ c ∈ (text.dropWhile (· != '\n')).head?, (c != '\n') = false :=
    head?_dropWhile_eq_false
  have htext : text.takeWhile (· != '\n') ++ text.dropWhile (· != '\n') = text :=
    List.takeWhile_append_dropWhile
  cases hrest : text.dropWhile (· != '\n') with
  | nil =>
    rw [hrest, List.append_nil] at htext
    rw [htext] at hstart
    have hline : IsLine text := ⟨h, fun hmem => hstart (List.dropLast_subset text hmem)⟩
    exact ⟨text, [], (List.append_nil text).symm, hline, .inr rfl⟩
  | cons c below =>
    rw [hrest] at hfirst htext
    obtain rfl : c = '\n' := by simpa using hfirst c rfl
    refine ⟨text.takeWhile (· != '\n') ++ ['\n'], below, ?_, ⟨by simp, ?_⟩, .inl (.lineFeed _)⟩
    · rw [List.append_assoc, List.singleton_append, htext]
    · rwa [List.dropLast_concat]

/-- What holds of the empty text, and of a line before any text of which it holds, holds of all
texts. -/
theorem lineInduction {motive : List Char → Prop} (nil : motive [])
    (line : ∀ line below, IsLine line → IsWhole line ∨ below = [] → motive below →
      motive (line ++ below))
    (text : List Char) : motive text := by
  induction hlength : text.length using Nat.strongRecOn generalizing text with
  | ind length ih =>
    by_cases hnil : text = []
    · rwa [hnil]
    · obtain ⟨first, below, rfl, hline, hends⟩ := exists_line hnil
      refine line first below hline hends (ih below.length ?_ below rfl)
      have hpos : 0 < first.length := List.length_pos_iff.mpr hline.1
      rw [List.length_append] at hlength
      omega

/-! ## Places -/

namespace LinePlace

/-- A text is divided into whole lines above a place, its line, and what is below. -/
structure Divides (place : LinePlace) (text : List Char) (offset : Nat) (above below : List Char) :
    Prop where
  text_eq : text = above ++ (place.text ++ below)
  offset_eq : byteSize above + place.column = offset
  column_lt : place.column < byteSize place.text
  above_whole : IsWhole above
  line : IsLine place.text
  /-- Only the last line may lack a line feed. -/
  ended : IsWhole place.text ∨ below = []
  number_eq : place.number = 1 + above.count '\n'

/-- The place holds a byte of a text: its line is one of the text's lines, and its column is where
the byte is in this line. -/
def Holds (place : LinePlace) (text : List Char) (offset : Nat) : Prop :=
  ∃ above below, place.Divides text offset above below

variable {place : LinePlace} {text : List Char} {offset : Nat}

/-- The place that holds a byte is found. -/
theorem Holds.lineAt?_eq (h : place.Holds text offset) : lineAt? text offset = some place := by
  obtain ⟨above, below, hplace⟩ := h
  have hlines : lines (place.text ++ below) = place.text :: lines below := by
    rcases hplace.ended with hwhole | rfl
    · rw [hwhole.lines_append, hplace.line.lines_eq, List.singleton_append]
    · rw [List.append_nil, hplace.line.lines_eq]
      rfl
  have hfound := placeIn?_append 1 place.column (lines above) (place.text :: lines below)
  rw [flatten_lines, placeIn?, if_pos hplace.column_lt, hplace.above_whole.length_lines,
    ← hplace.number_eq] at hfound
  rw [lineAt?, hplace.text_eq, hplace.above_whole.lines_append, hlines, ← hplace.offset_eq, hfound]

/-- A place in the text below a line, seen from the whole text. -/
theorem Holds.below {line : List Char} (h : place.Holds text offset) (hline : IsLine line)
    (hwhole : IsWhole line) :
    (⟨place.number + 1, place.text, place.column⟩ : LinePlace).Holds (line ++ text)
      (byteSize line + offset) := by
  obtain ⟨above, below, hplace⟩ := h
  have hcount : line.count '\n' = 1 := by
    rw [← hwhole.length_lines, hline.lines_eq, List.length_singleton]
  refine ⟨line ++ above, below, ?_, ?_, hplace.column_lt, hwhole.append hplace.above_whole,
    hplace.line, hplace.ended, ?_⟩
  · rw [hplace.text_eq, List.append_assoc]
  · rw [byteSize_append, Nat.add_assoc, hplace.offset_eq]
  · have hnumber := hplace.number_eq
    rw [List.count_append]
    dsimp only
    omega

/-- Each byte of a text is held by some place. -/
theorem exists_holds (text : List Char) :
    ∀ offset, offset < byteSize text → ∃ place : LinePlace, place.Holds text offset := by
  induction text using lineInduction with
  | nil => exact fun offset h => absurd h (Nat.not_lt_zero offset)
  | line line below hline hends ih =>
    intro offset h
    by_cases hfirst : offset < byteSize line
    · exact ⟨⟨1, line, offset⟩, [], below, rfl, Nat.zero_add offset, hfirst, .inl rfl, hline, hends,
        rfl⟩
    · rw [byteSize_append] at h
      rcases hends with hwhole | rfl
      · obtain ⟨place, hplace⟩ := ih (offset - byteSize line) (by omega)
        have hbelow := hplace.below hline hwhole
        rw [Nat.add_sub_cancel' (Nat.le_of_not_lt hfirst)] at hbelow
        exact ⟨_, hbelow⟩
      · exact absurd h hfirst

end LinePlace

/-- What is found for an offset is the place that holds it. -/
theorem lineAt?_eq_some_iff {text : List Char} {offset : Nat} {place : LinePlace} :
    lineAt? text offset = some place ↔ place.Holds text offset := by
  refine ⟨fun hfound => ?_, LinePlace.Holds.lineAt?_eq⟩
  have hlt : offset < byteSize text := by
    by_contra hle
    rw [lineAt?_eq_none (Nat.le_of_not_lt hle)] at hfound
    cases hfound
  obtain ⟨held, hholds⟩ := LinePlace.exists_holds text offset hlt
  obtain rfl : held = place := Option.some.inj (hholds.lineAt?_eq.symm.trans hfound)
  exact hholds

theorem lineAt?_eq_none_iff {text : List Char} {offset : Nat} :
    lineAt? text offset = none ↔ byteSize text ≤ offset := by
  refine ⟨fun hnone => ?_, lineAt?_eq_none⟩
  by_contra hlt
  obtain ⟨place, hplace⟩ := LinePlace.exists_holds text offset (Nat.lt_of_not_le hlt)
  rw [hplace.lineAt?_eq] at hnone
  cases hnone

/-! ## Line feeds -/

/-- The number of line feeds before a byte offset. -/
def feedsBefore : Nat → List Char → Nat
  | _, [] => 0
  | 0, _ => 0
  | offset + 1, c :: cs =>
    (if c = '\n' then 1 else 0) + feedsBefore (offset + 1 - c.utf8Size) cs

/-- A line feed of a text is at or after one byte offset and before another one. -/
def HasFeed (text : List Char) (start stop : Nat) : Prop :=
  ∃ before after, text = before ++ '\n' :: after ∧ start ≤ byteSize before ∧ byteSize before < stop

theorem feedsBefore_zero (text : List Char) : feedsBefore 0 text = 0 := by
  cases text <;> rfl

theorem feedsBefore_cons {offset : Nat} (h : 0 < offset) (c : Char) (cs : List Char) :
    feedsBefore offset (c :: cs) =
      (if c = '\n' then 1 else 0) + feedsBefore (offset - c.utf8Size) cs := by
  obtain ⟨offset, rfl⟩ := Nat.exists_eq_add_one_of_ne_zero (Nat.ne_of_gt h)
  rfl

/-- The line feeds before a place that comes after some text. -/
theorem feedsBefore_append (above rest : List Char) (offset : Nat) :
    feedsBefore (byteSize above + offset) (above ++ rest) =
      above.count '\n' + feedsBefore offset rest := by
  induction above with
  | nil => simp
  | cons c above ih =>
    have hpos := c.utf8Size_pos
    rw [byteSize_cons, Nat.add_assoc, List.cons_append, feedsBefore_cons (by omega),
      Nat.add_sub_cancel_left, ih, List.count_cons]
    simp only [beq_iff_eq]
    omega

/-- No line feed comes before a place in the first line. -/
theorem feedsBefore_line {line : List Char} (h : '\n' ∉ line.dropLast) {column : Nat}
    (hcolumn : column < byteSize line) (below : List Char) :
    feedsBefore column (line ++ below) = 0 := by
  induction line generalizing column with
  | nil => exact absurd hcolumn (Nat.not_lt_zero column)
  | cons c line ih =>
    rcases Nat.eq_zero_or_pos column with rfl | hpos
    · exact feedsBefore_zero _
    · rw [byteSize_cons] at hcolumn
      rw [List.cons_append, feedsBefore_cons hpos]
      cases line with
      | nil =>
        -- A column after the first byte of the last character is inside it, so this is no line feed.
        have hfeed : c ≠ '\n' := by
          rintro rfl
          have hsize : ('\n' : Char).utf8Size = 1 := rfl
          rw [hsize, byteSize_nil] at hcolumn
          omega
        rw [byteSize_nil, Nat.add_zero] at hcolumn
        rw [if_neg hfeed, Nat.sub_eq_zero_of_le (Nat.le_of_lt hcolumn), feedsBefore_zero]
      | cons d line =>
        rw [List.dropLast_cons_cons, List.mem_cons, not_or] at h
        rw [if_neg (Ne.symm h.1), Nat.zero_add]
        by_cases hinside : column ≤ c.utf8Size
        · rw [Nat.sub_eq_zero_of_le hinside, feedsBefore_zero]
        · exact ih h.2 (by omega)

theorem LinePlace.Holds.number_eq {place : LinePlace} {text : List Char} {offset : Nat}
    (h : place.Holds text offset) : place.number = 1 + feedsBefore offset text := by
  obtain ⟨above, below, hplace⟩ := h
  rw [hplace.text_eq, ← hplace.offset_eq, feedsBefore_append,
    feedsBefore_line hplace.line.2 hplace.column_lt, Nat.add_zero, hplace.number_eq]

/-- The line feeds of a text between two offsets: the first character, or one of the others. -/
theorem hasFeed_cons_iff {c : Char} {cs : List Char} {start stop : Nat} :
    HasFeed (c :: cs) start stop ↔
      (c = '\n' ∧ start = 0 ∧ 0 < stop) ∨ HasFeed cs (start - c.utf8Size) (stop - c.utf8Size) := by
  constructor
  · rintro ⟨before, after, htext, hstart, hstop⟩
    cases before with
    | nil =>
      obtain ⟨rfl, -⟩ := List.cons.inj htext
      exact .inl ⟨rfl, Nat.le_zero.mp hstart, hstop⟩
    | cons d before =>
      obtain ⟨rfl, rfl⟩ := List.cons.inj htext
      rw [byteSize_cons] at hstart hstop
      exact .inr ⟨before, after, rfl, by omega, by omega⟩
  · rintro (⟨rfl, rfl, hstop⟩ | ⟨before, after, rfl, hstart, hstop⟩)
    · exact ⟨[], cs, rfl, Nat.zero_le _, hstop⟩
    · exact ⟨c :: before, after, rfl, by rw [byteSize_cons]; omega, by rw [byteSize_cons]; omega⟩

/-- The number of line feeds before an offset does not decrease, and it grows only over a line
feed. -/
theorem feedsBefore_le_and_eq_iff (text : List Char) {start stop : Nat} (h : start ≤ stop) :
    feedsBefore start text ≤ feedsBefore stop text ∧
      (feedsBefore start text = feedsBefore stop text ↔ ¬ HasFeed text start stop) := by
  induction text generalizing start stop with
  | nil =>
    have hnone : ¬ HasFeed [] start stop := by
      rintro ⟨before, after, htext, -⟩
      exact List.append_ne_nil_of_right_ne_nil before (List.cons_ne_nil _ after) htext.symm
    exact ⟨Nat.le_refl _, iff_of_true rfl hnone⟩
  | cons c cs ih =>
    obtain ⟨hle, heq⟩ := ih (Nat.sub_le_sub_right h c.utf8Size)
    rw [hasFeed_cons_iff, not_or, ← heq]
    rcases Nat.eq_zero_or_pos stop with rfl | hstop
    · obtain rfl := Nat.le_zero.mp h
      simp
    rcases Nat.eq_zero_or_pos start with rfl | hstart
    · rw [feedsBefore_zero, feedsBefore_cons hstop, Nat.zero_sub, feedsBefore_zero]
      by_cases hc : c = '\n'
      · rw [if_pos hc]
        exact ⟨Nat.zero_le _, iff_of_false (by omega) fun hnone => hnone.1 ⟨hc, rfl, hstop⟩⟩
      · rw [if_neg hc, Nat.zero_add]
        exact ⟨Nat.zero_le _, (and_iff_right fun hfeed => hc hfeed.1).symm⟩
    · rw [feedsBefore_cons hstart, feedsBefore_cons hstop]
      omega

/-! ## Lookup -/

/-- No line is found for an offset exactly if it is at or past the end of the text, and otherwise
what is found is the place that holds the offset. Of two offsets the later is in no earlier line,
and both are in one line exactly if no line feed lies at or after the first and before the
second. -/
theorem lineAt?_inverts (text : List Char) :
    (∀ offset, lineAt? text offset = none ↔ byteSize text ≤ offset) ∧
    (∀ offset place, lineAt? text offset = some place ↔ place.Holds text offset) ∧
    ∀ start stop place place', start ≤ stop → lineAt? text start = some place →
      lineAt? text stop = some place' →
      place.number ≤ place'.number ∧
        (place.number = place'.number ↔ ¬ HasFeed text start stop) := by
  refine ⟨fun offset => lineAt?_eq_none_iff, fun offset place => lineAt?_eq_some_iff,
    fun start stop place place' hle hstart hstop => ?_⟩
  obtain ⟨hnumber, heq⟩ := feedsBefore_le_and_eq_iff text hle
  rw [(lineAt?_eq_some_iff.mp hstart).number_eq, (lineAt?_eq_some_iff.mp hstop).number_eq, ← heq]
  omega

/-- A line feed with a carriage return before it belongs to its line, an empty line follows, and an
offset inside a character lies in the character's line. -/
theorem lineAt?_inverts_emptyLine :
    let text := "a\r\n\né".toList
    lineAt? text 6 = none ∧ byteSize text ≤ 6 ∧
      lineAt? text 2 = some ⟨1, "a\r\n".toList, 2⟩ ∧ lineAt? text 5 = some ⟨3, ['é'], 1⟩ ∧
      HasFeed text 2 5 := by
  intro text
  have hend : lineAt? text 6 = none := by decide
  have hfeed : lineAt? text 2 = some ⟨1, "a\r\n".toList, 2⟩ := by decide
  have hinside : lineAt? text 5 = some ⟨3, ['é'], 1⟩ := by decide
  obtain ⟨hnone, -, hpair⟩ := lineAt?_inverts text
  obtain ⟨-, hsame⟩ := hpair 2 5 _ _ (by decide) hfeed hinside
  refine ⟨hend, (hnone 6).mp hend, hfeed, hinside, ?_⟩
  by_contra hfree
  exact absurd (hsame.mpr hfree) (by decide)

end FrappeSyntax.Text
