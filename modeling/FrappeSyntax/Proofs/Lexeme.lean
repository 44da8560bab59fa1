import FrappeSyntax.Proofs.Spelling

/-!
# The lexeme at the start of a text

What the scanner takes as the next lexeme begins the text, and is one of a class: an identifier, a
number, blanks, a comment, a string literal, or a character of punctuation. Identifiers, numbers and
comments end only where they cannot go on.

* `StringLiteral.IsBody`: the text between the quotes of a literal.
* `Lexeme.Stands`: a lexeme of one of the classes, as it stands before the rest of a text.
* `Lexeme.stands_of_first?`, `Lexeme.Stands.first?`: the next lexeme is one, and no other is next.
* `Lexeme.Stands.of_append`, `Lexeme.Stands.append_cons`: the same lexeme in a shorter or longer
  text.
* `Gap`: blanks and comments, as they stand before the rest of a text.
* `Lexeme.Maximal`: the text of a word that is not a string, as it stands before the rest of a text.
-/

namespace FrappeSyntax

/-! ## String literals -/

namespace StringLiteral

/-- The text between the quotes of a literal: plain characters, which are no quotes and no
backslashes, and backslashes with a character after each, which is no line feed. -/
inductive IsBody : List Char → Prop
  | nil : IsBody []
  | plain {c : Char} {cs : List Char} : c ≠ '"' → c ≠ '\\' → IsBody cs → IsBody (c :: cs)
  | escape {c : Char} {cs : List Char} : c ≠ '\n' → IsBody cs → IsBody ('\\' :: c :: cs)

theorem body?_cons {c : Char} (hquote : c ≠ '"') (hplain : c ≠ '\\') (cs : List Char) :
    body? (c :: cs) = (body? cs).map (c :: ·) := by
  rw [body?]
  · exact hquote
  · exact fun hc => absurd hc hplain
  · exact fun _ _ hc => absurd hc hplain

theorem body?_escape {c : Char} (h : c ≠ '\n') (cs : List Char) :
    body? ('\\' :: c :: cs) = (body? cs).map fun body => '\\' :: c :: body := by
  rw [body?, if_neg h]

/-- A body that goes on is a body in front of what goes on. -/
theorem IsBody.body?_append {body : List Char} (h : IsBody body) (more : List Char) :
    body? (body ++ more) = (body? more).map (body ++ ·) := by
  induction h with
  | nil => simp
  | plain hquote hplain _ ih =>
    rw [List.cons_append, body?_cons hquote hplain, ih, Option.map_map]
    rfl
  | escape hc _ ih =>
    rw [List.cons_append, List.cons_append, body?_escape hc, ih, Option.map_map]
    rfl

/-- A body goes up to the next quote. -/
theorem IsBody.body?_append_quote {body : List Char} (h : IsBody body) (rest : List Char) :
    body? (body ++ '"' :: rest) = some body := by
  simp [h.body?_append, body?]

/-- Every text starts with a body that goes up to a quote, or to where no quote can close the
literal: the end, or a backslash that has no character to stand before. -/
theorem exists_isBody (cs : List Char) :
    ∃ body stop, IsBody body ∧ cs = body ++ stop ∧ ((∃ rest, stop = '"' :: rest) ∨
      stop = [] ∨ stop = ['\\'] ∨ ∃ rest, stop = '\\' :: '\n' :: rest) := by
  induction cs using body?.induct with
  | case1 => exact ⟨[], [], .nil, rfl, .inr (.inl rfl)⟩
  | case2 rest => exact ⟨[], '"' :: rest, .nil, rfl, .inl ⟨rest, rfl⟩⟩
  | case3 => exact ⟨[], ['\\'], .nil, rfl, .inr (.inr (.inl rfl))⟩
  | case4 cs => exact ⟨[], '\\' :: '\n' :: cs, .nil, rfl, .inr (.inr (.inr ⟨cs, rfl⟩))⟩
  | case5 c cs hc ih =>
    obtain ⟨body, stop, hbody, rfl, hstop⟩ := ih
    exact ⟨_, stop, .escape hc hbody, rfl, hstop⟩
  | case6 c cs hquote hlast hescape ih =>
    have hplain : c ≠ '\\' := by
      intro hc
      cases cs with
      | nil => exact hlast hc rfl
      | cons d ds => exact hescape d ds hc rfl
    obtain ⟨body, stop, hbody, rfl, hstop⟩ := ih
    exact ⟨_, stop, .plain hquote hplain hbody, rfl, hstop⟩

/-- The body of a literal is what stands before the quote that closes it. -/
theorem exists_of_body? {cs body : List Char} (h : body? cs = some body) :
    IsBody body ∧ ∃ rest, cs = body ++ '"' :: rest := by
  obtain ⟨body', stop, hbody, rfl, ⟨rest, rfl⟩ | rfl | rfl | ⟨rest, rfl⟩⟩ := exists_isBody cs
  · rw [hbody.body?_append_quote] at h
    cases h
    exact ⟨hbody, rest, rfl⟩
  all_goals
    rw [hbody.body?_append] at h
    cases h

end StringLiteral

/-! ## Classes of lexemes -/

/-- The class of characters that a text was taken from does not hold the first one after it. -/
theorem head?_dropWhile_eq_false {p : Char → Bool} {cs : List Char} :
    ∀ c ∈ (cs.dropWhile p).head?, p c = false := by
  intro c hc
  have hfirst := List.head?_dropWhile_not p cs
  rw [Option.mem_def.mp hc] at hfirst
  exact hfirst

namespace Lexeme

/-- A lexeme as it stands before the rest of a text: one way for each class of lexemes. -/
inductive Stands : Lexeme → List Char → Prop
  | identifier {text rest : List Char} : isIdentifier text = true →
    (∀ c ∈ rest.head?, isNameChar c = false) → Stands (spelled (identifierKind text) text) rest
  | number {text rest : List Char} : isNumeral text = true →
    (∀ c ∈ rest.head?, c.isDigit = false) →
    ('.' ∉ text → ∀ d ds, rest = '.' :: d :: ds → d.isDigit = false) →
    Stands (spelled .number text) rest
  | blanks {text rest : List Char} : text ≠ [] → (∀ c ∈ text, Text.isBlank c = true) →
    (∀ c ∈ rest.head?, Text.isBlank c = false) → Stands (skipped text) rest
  | comment {body rest : List Char} : (∀ c ∈ body, c ≠ '\n') → (∀ c ∈ rest.head?, c = '\n') →
    Stands (skipped ('/' :: '/' :: body)) rest
  | string {body rest : List Char} : StringLiteral.IsBody body → Stands (literal body) rest
  | punctuation {c : Char} {rest : List Char} : c ∈ punctuation → Stands (spelled .single [c]) rest

theorem Stands.text_ne_nil {lexeme : Lexeme} {rest : List Char} (h : lexeme.Stands rest) :
    lexeme.text ≠ [] := by
  cases h with
  | identifier h => rintro rfl; cases h
  | number h => rintro rfl; cases h
  | blanks h => exact h
  | comment | string | punctuation => exact List.cons_ne_nil _ _

/-! ## Numbers -/

/-- A fraction is nothing, or a point and digits. -/
theorem fraction_eq (cs : List Char) :
    (fraction cs = [] ∧ ∀ d ds, cs = '.' :: d :: ds → d.isDigit = false) ∨
      ∃ d ds rest, cs = '.' :: d :: (ds ++ rest) ∧ fraction cs = '.' :: d :: ds ∧
        (∀ c ∈ d :: ds, c.isDigit = true) ∧ ∀ c ∈ rest.head?, c.isDigit = false := by
  by_cases h : ∃ d ds, cs = '.' :: d :: ds ∧ d.isDigit = true
  · obtain ⟨d, ds, rfl, hdigit⟩ := h
    refine .inr ⟨d, ds.takeWhile Char.isDigit, ds.dropWhile Char.isDigit, ?_, ?_, ?_,
      head?_dropWhile_eq_false⟩
    · rw [List.takeWhile_append_dropWhile]
    · rw [fraction, if_pos hdigit]
    · exact List.forall_mem_cons.mpr ⟨hdigit, List.all_eq_true.mp List.all_takeWhile⟩
  · have hnone : ∀ d ds, cs = '.' :: d :: ds → d.isDigit = false := by
      rintro d ds rfl
      exact Bool.eq_false_iff.mpr fun hdigit => h ⟨d, ds, rfl, hdigit⟩
    exact .inl ⟨fraction_eq_nil hnone, hnone⟩

/-- Digits are a number, and so are digits with a fraction. -/
theorem isNumeral_append {whole part : List Char} (hwhole : isDigits whole = true)
    (hpart : part = [] ∨ ∃ ds, part = '.' :: ds ∧ isDigits ds = true) :
    isNumeral (whole ++ part) = true := by
  have hdigits := hwhole
  rw [isDigits, Bool.and_eq_true, List.all_eq_true] at hdigits
  have hpoint : ∀ c ∈ part.head?, c.isDigit = false := by
    rcases hpart with rfl | ⟨ds, rfl, -⟩
    · simp
    · rintro _ ⟨⟩
      rfl
  rw [isNumeral, takeWhile_append_eq hdigits.2 hpoint, dropWhile_append_eq hdigits.2 hpoint, hwhole,
    Bool.true_and]
  rcases hpart with rfl | ⟨ds, rfl, hds⟩
  · rfl
  · exact hds

/-- The numeral that a text starts with, and what follows it. -/
theorem stands_numeral {c : Char} (cs : List Char) (h : c.isDigit = true) :
    ∃ rest, c :: cs = numeral (c :: cs) ++ rest ∧
      Stands (spelled .number (numeral (c :: cs))) rest := by
  let whole := (c :: cs).takeWhile Char.isDigit
  let after := (c :: cs).dropWhile Char.isDigit
  have hsplit : c :: cs = whole ++ after := List.takeWhile_append_dropWhile.symm
  have hwhole : isDigits whole = true := by
    have hall : whole.all Char.isDigit = true := List.all_takeWhile
    rw [isDigits, hall, Bool.and_true]
    simp [whole, List.takeWhile_cons_of_pos h]
  have hafter : ∀ d ∈ after.head?, d.isDigit = false := head?_dropWhile_eq_false
  have hnumeral : numeral (c :: cs) = whole ++ fraction after := rfl
  rw [hnumeral]
  rcases fraction_eq after with ⟨hnone, hpoint⟩ | ⟨d, ds, rest, hcs, hsome, hdigits, hrest⟩
  · rw [hnone, List.append_nil]
    refine ⟨after, hsplit, .number ?_ hafter fun _ => hpoint⟩
    have hnumber := isNumeral_append hwhole (.inl rfl)
    rwa [List.append_nil] at hnumber
  · rw [hsome]
    refine ⟨rest, ?_, .number (isNumeral_append hwhole (.inr ⟨d :: ds, rfl, ?_⟩)) hrest ?_⟩
    · rw [List.append_assoc, List.cons_append, List.cons_append, ← hcs]
      exact hsplit
    · rw [isDigits, List.all_eq_true.mpr hdigits]
      rfl
    · intro hfraction
      exact absurd (List.mem_append_right whole List.mem_cons_self) hfraction

/-! ## The next lexeme -/

/-- The next lexeme begins the text, and is a lexeme of one of the classes. -/
theorem stands_of_first? {cs : List Char} {lexeme : Lexeme} (h : first? cs = some lexeme) :
    ∃ rest, cs = lexeme.text ++ rest ∧ lexeme.Stands rest := by
  cases cs with
  | nil => cases h
  | cons c cs =>
    rw [first?] at h
    split_ifs at h with hname hdigit hblank hquote hslash hmark
    · obtain rfl := Option.some.inj h
      refine ⟨cs.dropWhile isNameChar, ?_, .identifier ?_ head?_dropWhile_eq_false⟩
      · show c :: cs = c :: cs.takeWhile isNameChar ++ _
        rw [List.cons_append, List.takeWhile_append_dropWhile]
      · rw [isIdentifier, hname, List.all_takeWhile]
        rfl
    · obtain rfl := Option.some.inj h
      exact stands_numeral cs hdigit
    · obtain rfl := Option.some.inj h
      refine ⟨cs.dropWhile Text.isBlank, ?_, .blanks (List.cons_ne_nil _ _) ?_
        head?_dropWhile_eq_false⟩
      · show c :: cs = c :: cs.takeWhile Text.isBlank ++ _
        rw [List.cons_append, List.takeWhile_append_dropWhile]
      · exact List.forall_mem_cons.mpr ⟨hblank, List.all_eq_true.mp List.all_takeWhile⟩
    · obtain ⟨body, hbody, rfl⟩ := Option.map_eq_some_iff.mp h
      obtain ⟨hisBody, rest, rfl⟩ := StringLiteral.exists_of_body? hbody
      refine ⟨rest, ?_, .string hisBody⟩
      show c :: (body ++ '"' :: rest) = '"' :: body ++ ['"'] ++ rest
      rw [hquote, List.cons_append, List.cons_append, List.append_assoc, List.singleton_append]
    · unfold comment? at h
      split at h
      next cs =>
        obtain rfl := Option.some.inj h
        refine ⟨cs.dropWhile (· != '\n'), ?_, .comment ?_ ?_⟩
        · show c :: '/' :: cs = '/' :: '/' :: cs.takeWhile (· != '\n') ++ _
          rw [hslash, List.cons_append, List.cons_append, List.takeWhile_append_dropWhile]
        · intro d hd
          have hne := List.all_eq_true.mp List.all_takeWhile d hd
          simpa using hne
        · intro d hd
          simpa using head?_dropWhile_eq_false d hd
      next => cases h
    · obtain rfl := Option.some.inj h
      exact ⟨cs, rfl, .punctuation hmark⟩

/-- A comment is the next lexeme up to a line feed or the end. -/
theorem first?_comment {body rest : List Char} (hbody : ∀ c ∈ body, c ≠ '\n')
    (hrest : ∀ c ∈ rest.head?, c = '\n') :
    first? ('/' :: '/' :: body ++ rest) = some (skipped ('/' :: '/' :: body)) := by
  have htake : (body ++ rest).takeWhile (· != '\n') = body := by
    apply takeWhile_append_eq
    · intro c hc
      simpa using hbody c hc
    · intro c hc
      simpa using hrest c hc
  show first? ('/' :: '/' :: (body ++ rest)) = _
  simp [first?, comment?, htake, isNameStart, Text.isBlank]

/-- A lexeme that stands before the rest of a text is the next one. -/
theorem Stands.first? {lexeme : Lexeme} {rest : List Char} (h : lexeme.Stands rest) :
    first? (lexeme.text ++ rest) = some lexeme := by
  cases h with
  | identifier htext hrest => exact first?_identifier htext hrest
  | number htext hdigit hpoint => exact first?_numeral htext hdigit hpoint
  | blanks hne hblanks hrest => exact first?_blanks hne hblanks hrest
  | comment hbody hrest => exact first?_comment hbody hrest
  | string hbody => exact first?_literal (hbody.body?_append_quote rest)
  | punctuation hmark => exact first?_punctuation hmark rest

/-- Blanks are skipped. -/
theorem Stands.word_eq_none {lexeme : Lexeme} {rest : List Char} (h : lexeme.Stands rest)
    (hblanks : ∀ c ∈ lexeme.text, Text.isBlank c = true) : lexeme.word = none := by
  have hfirst := h.first?
  obtain ⟨c, cs, htext⟩ := List.exists_cons_of_ne_nil h.text_ne_nil
  have hblank : Text.isBlank c = true := hblanks c (by simp [htext])
  rw [htext, List.cons_append, first?_of_isBlank hblank] at hfirst
  obtain rfl := Option.some.inj hfirst
  rfl

/-- What holds of the empty text, of texts that start with no lexeme, and of a lexeme before any
text of which it holds, holds of all texts: each lexeme leaves less text. -/
theorem lexemeInduction {motive : List Char → Prop} (nil : motive [])
    (stuck : ∀ c cs, Lexeme.first? (c :: cs) = none → motive (c :: cs))
    (lexeme : ∀ (lexeme : Lexeme) (rest : List Char), lexeme.Stands rest → motive rest →
      motive (lexeme.text ++ rest))
    (cs : List Char) : motive cs := by
  induction hlength : cs.length using Nat.strongRecOn generalizing cs with
  | ind length ih =>
    cases cs with
    | nil => exact nil
    | cons c cs =>
      cases hfirst : Lexeme.first? (c :: cs) with
      | none => exact stuck c cs hfirst
      | some found =>
        obtain ⟨rest, hcs, hstands⟩ := stands_of_first? hfirst
        rw [hcs] at hlength ⊢
        refine lexeme found rest hstands (ih rest.length ?_ rest rfl)
        have hpos : 0 < found.text.length := List.length_pos_iff.mpr hstands.text_ne_nil
        rw [List.length_append] at hlength
        omega

/-! ## Longer and shorter texts -/

theorem forall_mem_head?_append_cons {p : Char → Prop} {front : List Char} {c : Char}
    (hfront : ∀ d ∈ front.head?, p d) (hc : front = [] → p c) (rest : List Char) :
    ∀ d ∈ (front ++ c :: rest).head?, p d := by
  cases front with
  | nil => simpa using hc
  | cons d ds => simpa using hfront

theorem forall_mem_head?_of_append {p : Char → Prop} {front rest : List Char}
    (h : ∀ d ∈ (front ++ rest).head?, p d) : ∀ d ∈ front.head?, p d := by
  cases front with
  | nil => simp
  | cons d ds => simpa using h

/-- A lexeme stands also before a part of the rest. -/
theorem Stands.of_append {lexeme : Lexeme} {front rest : List Char}
    (h : lexeme.Stands (front ++ rest)) : lexeme.Stands front := by
  cases h with
  | identifier htext hname => exact .identifier htext (forall_mem_head?_of_append hname)
  | number htext hdigit hpoint =>
    refine .number htext (forall_mem_head?_of_append hdigit) ?_
    rintro hfree d ds rfl
    exact hpoint hfree d (ds ++ rest) rfl
  | blanks hne hblanks hrest => exact .blanks hne hblanks (forall_mem_head?_of_append hrest)
  | comment hbody hrest => exact .comment hbody (forall_mem_head?_of_append hrest)
  | string hbody => exact .string hbody
  | punctuation hmark => exact .punctuation hmark

/-- A lexeme stands also before more text, if the first character of this belongs to no identifier
and is no point, and if it continues neither blanks nor a comment. -/
theorem Stands.append_cons {lexeme : Lexeme} {front : List Char} {c : Char}
    (h : lexeme.Stands front) (hname : isNameChar c = false) (hpoint : c ≠ '.')
    (hblank : front = [] → (∀ d ∈ lexeme.text, Text.isBlank d = true) → Text.isBlank c = false)
    (hcomment : front = [] → ∀ body, lexeme.text = '/' :: '/' :: body → '\n' ∉ body → c = '\n')
    (rest : List Char) : lexeme.Stands (front ++ c :: rest) := by
  have hdigit : c.isDigit = false := by
    rw [← Bool.not_eq_true, Text.isNameChar_iff, not_or] at hname
    exact Bool.eq_false_iff.mpr hname.2
  cases h with
  | identifier htext hfront =>
    exact .identifier htext (forall_mem_head?_append_cons hfront (fun _ => hname) rest)
  | number htext hfront hfraction =>
    refine .number htext (forall_mem_head?_append_cons hfront (fun _ => hdigit) rest) ?_
    intro hfree d ds heq
    match front, heq with
    | [], heq => exact absurd (List.cons.inj heq).1 hpoint
    | [_], heq =>
      simp only [List.singleton_append, List.cons.injEq] at heq
      exact heq.2.1 ▸ hdigit
    | e :: e' :: es, heq =>
      simp only [List.cons_append, List.cons.injEq] at heq
      exact hfraction hfree d es (by rw [heq.1, heq.2.1])
  | blanks hne hblanks hfront =>
    have hc : front = [] → Text.isBlank c = false := fun hnil => hblank hnil hblanks
    exact .blanks hne hblanks (forall_mem_head?_append_cons hfront hc rest)
  | @comment body _ hbody hfront =>
    have hfree : '\n' ∉ body := fun hmem => hbody _ hmem rfl
    have hc : front = [] → c = '\n' := fun hnil => hcomment hnil body rfl hfree
    exact .comment hbody (forall_mem_head?_append_cons hfront hc rest)
  | string hbody => exact .string hbody
  | punctuation hmark => exact .punctuation hmark

/-! ## Words -/

/-- The words that are reserved. -/
def reserved : List String := keywords.map Prod.fst

/-- An identifier is a keyword if it is reserved. If not, its first character tells whether it is a
class name or a name. -/
structure HasKind (text : String) (kind : Kind) : Prop where
  keyword : kind ∈ keywords.map Prod.snd ↔ text ∈ reserved
  of_reserved : text ∈ reserved → (text, kind) ∈ keywords
  className : kind = .className ↔ text ∉ reserved ∧ text.toList.head?.any Char.isUpper = true
  name : kind = .name ↔ text ∉ reserved ∧ text.toList.head?.any Char.isUpper = false

theorem className_name_notMem_keywords :
    Kind.className ∉ keywords.map Prod.snd ∧ Kind.name ∉ keywords.map Prod.snd := by
  decide

theorem hasKind_of_mem {text : String} {kind : Kind} (h : (text, kind) ∈ keywords) :
    HasKind text kind := by
  have hkind : kind ∈ keywords.map Prod.snd := List.mem_map_of_mem h
  have hreserved : text ∈ reserved := List.mem_map_of_mem h
  refine ⟨iff_of_true hkind hreserved, fun _ => h, iff_of_false ?_ fun h => h.1 hreserved,
    iff_of_false ?_ fun h => h.1 hreserved⟩
  · rintro rfl
    exact className_name_notMem_keywords.1 hkind
  · rintro rfl
    exact className_name_notMem_keywords.2 hkind

theorem hasKind_of_not_mem {text : String} (h : text ∉ reserved) :
    HasKind text (if text.toList.head?.any Char.isUpper then .className else .name) := by
  obtain ⟨hclass, hname⟩ := className_name_notMem_keywords
  cases hupper : text.toList.head?.any Char.isUpper with
  | true =>
    exact ⟨iff_of_false hclass h, fun hmem => absurd hmem h, by simp [h, hupper], by simp [hupper]⟩
  | false =>
    exact ⟨iff_of_false hname h, fun hmem => absurd hmem h, by simp [hupper], by simp [h, hupper]⟩

theorem mem_keywords_of_lookup {text : String} {kind : Kind}
    (h : keywords.lookup text = some kind) : (text, kind) ∈ keywords := by
  obtain ⟨before, after, hsplit, -⟩ := List.lookup_eq_some_iff.mp h
  exact hsplit ▸ List.mem_append_right before List.mem_cons_self

/-- The kind of an identifier is the one that it has. -/
theorem hasKind_identifierKind (text : List Char) :
    HasKind (String.ofList text) (identifierKind text) := by
  unfold identifierKind
  cases hlookup : keywords.lookup (String.ofList text) with
  | some kind => exact hasKind_of_mem (mem_keywords_of_lookup hlookup)
  | none =>
    have hfree : String.ofList text ∉ reserved := by
      intro hmem
      obtain ⟨entry, hentry, hfst⟩ := List.mem_map.mp hmem
      have hne := List.lookup_eq_none_iff.mp hlookup entry hentry
      simp [hfst] at hne
    have hkind := hasKind_of_not_mem hfree
    rwa [String.toList_ofList] at hkind

/-- The text of a word of a kind that is spelled as its text, as it stands before the rest of a
text. It could not be longer. -/
def Maximal (kind : Kind) (text rest : List Char) : Prop :=
  match kind with
  | .number => isNumeral text = true ∧ (∀ c ∈ rest.head?, c.isDigit = false) ∧
      ('.' ∉ text → ∀ d ds, rest = '.' :: d :: ds → d.isDigit = false)
  | .single => ∃ c ∈ punctuation, text = [c]
  | _ => isIdentifier text = true ∧ (∀ c ∈ rest.head?, isNameChar c = false) ∧
      HasKind (String.ofList text) kind

/-- The kinds that an identifier can have. -/
theorem identifierKind_mem (text : List Char) :
    identifierKind text ∈ .className :: .name :: keywords.map Prod.snd := by
  unfold identifierKind
  cases hlookup : keywords.lookup (String.ofList text) with
  | some kind =>
    have hmem : kind ∈ keywords.map Prod.snd := List.mem_map_of_mem (mem_keywords_of_lookup hlookup)
    exact List.mem_cons_of_mem _ (List.mem_cons_of_mem _ hmem)
  | none =>
    dsimp only
    split
    · exact List.mem_cons_self
    · exact List.mem_cons_of_mem _ List.mem_cons_self

theorem maximal_identifier {text rest : List Char} (h : isIdentifier text = true)
    (hrest : ∀ c ∈ rest.head?, isNameChar c = false) : Maximal (identifierKind text) text rest := by
  have hkind := hasKind_identifierKind text
  have hmem := identifierKind_mem text
  revert hkind hmem
  generalize identifierKind text = kind
  intro hkind hmem
  unfold Maximal
  split
  next => exact absurd hmem (by decide)
  next => exact absurd hmem (by decide)
  next => exact ⟨h, hrest, hkind⟩

end Lexeme

/-! ## Blanks and comments -/

/-- Blanks and comments, as they stand before the rest of a text: a comment goes up to a line feed,
which it does not hold, or to the end. -/
inductive Gap : List Char → List Char → Prop
  | nil {rest : List Char} : Gap rest []
  | blank {c : Char} {cs rest : List Char} : Text.isBlank c = true → Gap rest cs →
    Gap rest (c :: cs)
  | comment {body cs rest : List Char} : (∀ c ∈ body, c ≠ '\n') →
    (∀ c ∈ (cs ++ rest).head?, c = '\n') → Gap rest cs → Gap rest ('/' :: '/' :: (body ++ cs))

theorem Gap.append {gap text rest : List Char} (h : Gap (text ++ rest) gap)
    (htext : Gap rest text) : Gap rest (gap ++ text) := by
  generalize hall : text ++ rest = all at h
  induction h with
  | nil => exact htext
  | blank hblank _ ih => exact .blank hblank (ih hall)
  | @comment body cs all hbody hend _ ih =>
    rw [List.cons_append, List.cons_append, List.append_assoc]
    refine .comment hbody ?_ (ih hall)
    rwa [List.append_assoc, hall]

theorem Gap.of_blanks {text rest : List Char} (h : ∀ c ∈ text, Text.isBlank c = true) :
    Gap rest text := by
  induction text with
  | nil => exact .nil
  | cons c cs ih =>
    rw [List.forall_mem_cons] at h
    exact .blank h.1 (ih h.2)

namespace Lexeme

/-- A lexeme is skipped, or it is a word. -/
theorem Stands.gap_or_word {lexeme : Lexeme} {rest : List Char} (h : lexeme.Stands rest) :
    (lexeme.word = none ∧ Gap rest lexeme.text) ∨
      ∃ word, lexeme.word = some word ∧ word.kind ≠ .eof ∧ (word.kind ≠ .string →
        word.text = String.ofList lexeme.text ∧ Maximal word.kind lexeme.text rest) := by
  cases h with
  | @identifier text rest htext hrest =>
    refine .inr ⟨_, rfl, ?_, fun _ => ⟨rfl, maximal_identifier htext hrest⟩⟩
    exact ne_of_mem_of_not_mem (identifierKind_mem text) (by decide)
  | number htext hdigit hpoint =>
    exact .inr ⟨_, rfl, Kind.noConfusion, fun _ => ⟨rfl, htext, hdigit, hpoint⟩⟩
  | blanks hne hblanks => exact .inl ⟨rfl, .of_blanks hblanks⟩
  | @comment body rest hbody hrest =>
    refine .inl ⟨rfl, ?_⟩
    have hcomment : Gap rest ('/' :: '/' :: (body ++ [])) := .comment hbody hrest .nil
    rwa [List.append_nil] at hcomment
  | string => exact .inr ⟨_, rfl, Kind.noConfusion, fun h => absurd rfl h⟩
  | punctuation hmem => exact .inr ⟨_, rfl, Kind.noConfusion, fun _ => ⟨rfl, _, hmem, rfl⟩⟩

end Lexeme

end FrappeSyntax
