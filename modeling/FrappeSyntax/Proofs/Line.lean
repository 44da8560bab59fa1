import FrappeSyntax.Proofs.Lexeme
import FrappeSyntax.Text.Line
import Mathlib.Data.List.DropRight

/-!
# The line of a place

A text has the lines that it has up to a line feed, and then those of the rest. So the line that
holds a character goes from the last line feed before it to the next one after it, and as many line
feeds stand before it as there are lines above.

* `Text.lines_append_lineFeed`: the lines of a text, divided at a line feed.
* `Text.placeIn?_append`: a place that is not in the first lines.
* `Text.Site.lineAt?_eq`: the line that is found for the offset of a character.
-/

namespace FrappeSyntax.Text

/-! ## Lines up to a line feed -/

theorem exists_lines_concat_eq_cons (cs : List Char) (c : Char) :
    ∃ line more, lines (cs ++ [c]) = line :: more := by
  refine List.exists_cons_of_ne_nil fun hnil => ?_
  have hflatten := flatten_lines (cs ++ [c])
  rw [hnil] at hflatten
  exact List.concat_ne_nil c cs hflatten.symm

theorem lines_append_lineFeed (cs rest : List Char) :
    lines (cs ++ '\n' :: rest) = lines (cs ++ ['\n']) ++ lines rest := by
  induction cs with
  | nil => rfl
  | cons c cs ih =>
    obtain ⟨line, more, hlines⟩ := exists_lines_concat_eq_cons cs '\n'
    rw [List.cons_append, List.cons_append, lines, lines, ih, hlines]
    split <;> rfl

theorem length_lines_append_lineFeed (cs : List Char) :
    (lines (cs ++ ['\n'])).length = cs.count '\n' + 1 := by
  induction cs with
  | nil => rfl
  | cons c cs ih =>
    obtain ⟨line, more, hlines⟩ := exists_lines_concat_eq_cons cs '\n'
    rw [hlines, List.length_cons] at ih
    rw [List.cons_append, lines, hlines, List.count_cons]
    split <;> simp_all

/-- Text without a line feed goes into the line that follows it. -/
theorem lines_append_of_notMem {start cs line : List Char} {more : List (List Char)}
    (h : '\n' ∉ start) (hlines : lines cs = line :: more) :
    lines (start ++ cs) = (start ++ line) :: more := by
  induction start with
  | nil => exact hlines
  | cons c start ih =>
    rw [List.mem_cons, not_or] at h
    rw [List.cons_append, lines, ih h.2, if_neg (Ne.symm h.1)]
    rfl

/-- A line goes up to the next line feed. -/
theorem lines_eq_cons {c : Char} (h : c ≠ '\n') (cs : List Char) :
    ∃ more, lines (c :: cs) =
      (c :: (cs.takeWhile (· != '\n') ++ (cs.dropWhile (· != '\n')).take 1)) :: more := by
  induction cs generalizing c with
  | nil => exact ⟨[], by rw [lines, if_neg h]; rfl⟩
  | cons d ds ih =>
    rw [lines, if_neg h]
    by_cases hd : d = '\n'
    · subst hd
      exact ⟨lines ds, rfl⟩
    · obtain ⟨more, hmore⟩ := ih hd
      refine ⟨more, ?_⟩
      rw [hmore, List.takeWhile_cons_of_pos (by simpa using hd),
        List.dropWhile_cons_of_pos (by simpa using hd)]
      rfl

/-! ## Places -/

/-- A place that comes after some lines is found in those that follow. -/
theorem placeIn?_append (number offset : Nat) (first more : List (List Char)) :
    placeIn? number (byteSize first.flatten + offset) (first ++ more) =
      placeIn? (number + first.length) offset more := by
  induction first generalizing number with
  | nil => simp
  | cons line first ih =>
    rw [List.cons_append, placeIn?, List.flatten_cons, byteSize_append, if_neg (by omega),
      Nat.add_assoc, Nat.add_sub_cancel_left, ih, List.length_cons, Nat.add_assoc, Nat.add_comm 1]

/-- No line holds an offset past the end. -/
theorem lineAt?_eq_none {text : List Char} {offset : Nat} (h : byteSize text ≤ offset) :
    lineAt? text offset = none := by
  obtain ⟨more, rfl⟩ := Nat.exists_eq_add_of_le h
  have hplace := placeIn?_append 1 more (lines text) []
  rw [flatten_lines, List.append_nil] at hplace
  exact hplace

/-- Before the part of a line that ends a text, there is nothing, or lines that a line feed ends. -/
theorem eq_or_exists_above (cs : List Char) :
    cs = cs.rtakeWhile (· != '\n') ∨ ∃ above, cs = above ++ '\n' :: cs.rtakeWhile (· != '\n') := by
  induction cs using List.reverseRecOn with
  | nil => exact .inl rfl
  | append_singleton cs c ih =>
    by_cases hc : c = '\n'
    · rw [List.rtakeWhile_concat_neg _ _ _ (by simp [hc]), hc]
      exact .inr ⟨cs, rfl⟩
    · rw [List.rtakeWhile_concat_pos _ _ _ (by simp [hc])]
      rcases ih with hnone | ⟨above, hsome⟩
      · exact .inl (congrArg (· ++ [c]) hnone)
      · refine .inr ⟨above, ?_⟩
        rw [← List.cons_append, ← List.append_assoc, ← hsome]

/-- A character of a text, with what stands before and after it. -/
structure Site where
  before : List Char
  char : Char
  after : List Char

namespace Site

variable (site : Site)

def text : List Char := site.before ++ site.char :: site.after

/-- The byte offset of the character. -/
def offset : Nat := byteSize site.before

/-- The number of the line that holds the character. -/
def number : Nat := 1 + site.before.count '\n'

/-- The part of the line before the character. -/
def start : List Char := site.before.rtakeWhile (· != '\n')

/-- The part of the line after the character, without a line feed. -/
def rest : List Char := site.after.takeWhile (· != '\n')

/-- The line that holds the character, without a line feed. -/
def line : List Char := site.start ++ site.char :: site.rest

/-- The line feed that ends the line, if there is one. -/
def ending : List Char := (site.after.dropWhile (· != '\n')).take 1

theorem offset_lt : site.offset < byteSize site.text := by
  have hpos := site.char.utf8Size_pos
  rw [offset, text, byteSize_append, byteSize_cons]
  omega

theorem notMem_start : '\n' ∉ site.start := by
  intro hmem
  simpa using List.mem_rtakeWhile_imp hmem

theorem notMem_rest : '\n' ∉ site.rest := by
  intro hmem
  simpa using List.mem_takeWhile_imp hmem

theorem ending_eq : site.ending = [] ∨ site.ending = ['\n'] := by
  have hfirst : ∀ c ∈ (site.after.dropWhile (· != '\n')).head?, (c != '\n') = false :=
    head?_dropWhile_eq_false
  rw [ending]
  cases hafter : site.after.dropWhile (· != '\n') with
  | nil => exact .inl rfl
  | cons c cs =>
    rw [hafter] at hfirst
    obtain rfl : c = '\n' := by simpa using hfirst c rfl
    exact .inr rfl

/-- The line that holds the character is found for its offset. -/
theorem lineAt?_eq (h : site.char ≠ '\n') :
    lineAt? site.text site.offset =
      some ⟨site.number, site.line ++ site.ending, byteSize site.start⟩ := by
  obtain ⟨more, hmore⟩ := lines_eq_cons h site.after
  have hline : lines (site.start ++ site.char :: site.after) =
      (site.line ++ site.ending) :: more := by
    rw [lines_append_of_notMem site.notMem_start hmore, line, rest, ending]
    simp
  have hlt : byteSize site.start < byteSize (site.line ++ site.ending) := by
    have hpos := site.char.utf8Size_pos
    rw [line, byteSize_append, byteSize_append, byteSize_cons]
    omega
  have hcount : site.start.count '\n' = 0 := List.count_eq_zero.mpr site.notMem_start
  rw [lineAt?, text, offset, number]
  rcases eq_or_exists_above site.before with hbefore | ⟨above, hbefore⟩
  · change site.before = site.start at hbefore
    rw [hbefore, hline, placeIn?, if_pos hlt, hcount]
  · change site.before = above ++ '\n' :: site.start at hbefore
    have hplace := placeIn?_append 1 (byteSize site.start) (lines (above ++ ['\n']))
      (lines (site.start ++ site.char :: site.after))
    rw [← lines_append_lineFeed, flatten_lines, length_lines_append_lineFeed, hline, placeIn?,
      if_pos hlt, ← byteSize_append, ← List.append_cons] at hplace
    rw [hbefore, List.append_assoc, List.cons_append, hplace, List.count_append,
      List.count_cons_self, hcount]

end Site

end FrappeSyntax.Text
