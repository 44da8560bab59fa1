import FrappeSyntax.Token.Scan
import Mathlib.Data.List.TakeWhile
import Mathlib.Tactic.Tauto

/-!
# Writing words

A word can be written so that it is scanned again, if its text is one that its kind of word can
have. Between two words blanks are enough to keep them apart.

* `Word.spelling`, `Word.isWritable`: how a word is written, and the words that can be written.
* `Writes`: a text writes words, with blanks between them.
* `first?_spelling_append`: a written word is the next lexeme, before blanks and at the end.
* `tokenize_of_writes`: the words that a text writes are scanned again.
-/

namespace FrappeSyntax

/-! ## Words that can be written -/

namespace Lexeme

/-- Holds for the texts of identifiers. -/
def isIdentifier : List Char → Bool
  | [] => false
  | c :: cs => isNameStart c && cs.all isNameChar

/-- Holds for one or more digits. -/
def isDigits (cs : List Char) : Bool := !cs.isEmpty && cs.all Char.isDigit

/-- Holds for the texts of numbers: digits, with a point and more digits if there is a fraction. -/
def isNumeral (cs : List Char) : Bool :=
  isDigits (cs.takeWhile Char.isDigit) &&
    match cs.dropWhile Char.isDigit with
    | [] => true
    | '.' :: ds => isDigits ds
    | _ => false

end Lexeme

namespace Word

/-- The characters that a word is written as. The quotes and backslashes in a string are written
with a backslash before them. -/
def spelling (word : Word) : List Char :=
  match word.kind with
  | .string => '"' :: StringLiteral.encode word.text.toList ++ ['"']
  | _ => word.text.toList

/-- Holds for the words that can be written: names start with a lower-case letter or `_` and are no
keywords, class names start with an upper-case letter, numbers and punctuation have the texts of
such, strings have any text, and all others have the text that goes with their kind. -/
def isWritable (word : Word) : Bool :=
  match word.kind with
  | .name => Lexeme.isIdentifier word.text.toList &&
      word.text.toList.head?.any (fun c => c.isLower || c == '_') &&
      (Lexeme.keywords.lookup word.text).isNone
  | .className => Lexeme.isIdentifier word.text.toList && word.text.toList.head?.any Char.isUpper
  | .number => Lexeme.isNumeral word.text.toList
  | .string => true
  | .single => Lexeme.punctuation.any fun c => word.text == String.singleton c
  | .eof => false
  | kind => word.text == kind.tag

end Word

/-- A text writes words: their spellings, with blanks between them. -/
inductive Writes : List Char → List Word → Prop
  | nil : Writes [] []
  | one (word : Word) : Writes word.spelling [word]
  | cons (word : Word) {next : Word} {words : List Word} {blanks cs : List Char} : blanks ≠ [] →
    (∀ c ∈ blanks, Text.isBlank c = true) → Writes cs (next :: words) →
    Writes (word.spelling ++ (blanks ++ cs)) (word :: next :: words)

/-- Words are written if a space is put between them. -/
theorem writes_intercalate (words : List Word) :
    Writes ([' '].intercalate (words.map Word.spelling)) words := by
  induction words with
  | nil => exact .nil
  | cons word words ih =>
    cases words with
    | nil =>
      rw [List.map_singleton, List.intercalate_singleton]
      exact .one word
    | cons next words =>
      have hblank : ∀ c ∈ [' '], Text.isBlank c = true := List.forall_mem_singleton.mpr rfl
      rw [List.map_cons, List.map_cons, List.intercalate_cons_cons, List.append_assoc]
      exact .cons word (List.cons_ne_nil _ _) hblank ih

/-! ## Classes of characters -/

namespace Text

theorem isUpper_iff {c : Char} : c.isUpper = true ↔ 65 ≤ c.toNat ∧ c.toNat ≤ 90 := by
  show decide ('A'.val ≤ c.val ∧ c.val ≤ 'Z'.val) = true ↔ _
  rw [decide_eq_true_iff, UInt32.le_iff_toNat_le, UInt32.le_iff_toNat_le]
  rfl

theorem isLower_iff {c : Char} : c.isLower = true ↔ 97 ≤ c.toNat ∧ c.toNat ≤ 122 := by
  show (decide ('a'.val ≤ c.val) && decide (c.val ≤ 'z'.val)) = true ↔ _
  rw [Bool.and_eq_true, decide_eq_true_iff, decide_eq_true_iff, UInt32.le_iff_toNat_le,
    UInt32.le_iff_toNat_le]
  rfl

theorem isDigit_iff {c : Char} : c.isDigit = true ↔ 48 ≤ c.toNat ∧ c.toNat ≤ 57 := by
  show (decide ('0'.val ≤ c.val) && decide (c.val ≤ '9'.val)) = true ↔ _
  rw [Bool.and_eq_true, decide_eq_true_iff, decide_eq_true_iff, UInt32.le_iff_toNat_le,
    UInt32.le_iff_toNat_le]
  rfl

theorem eq_underscore_iff {c : Char} : c = '_' ↔ c.toNat = 95 :=
  Char.toNat_inj.symm

theorem isNameStart_iff {c : Char} : Lexeme.isNameStart c = true ↔
    (65 ≤ c.toNat ∧ c.toNat ≤ 90) ∨ (97 ≤ c.toNat ∧ c.toNat ≤ 122) ∨ c.toNat = 95 := by
  show ((c.isUpper || c.isLower) || c == '_') = true ↔ _
  rw [Bool.or_eq_true, Bool.or_eq_true, isUpper_iff, isLower_iff, beq_iff_eq, eq_underscore_iff,
    or_assoc]

theorem isNameChar_iff {c : Char} : Lexeme.isNameChar c = true ↔
    Lexeme.isNameStart c = true ∨ c.isDigit = true := by
  show (((c.isUpper || c.isLower) || c.isDigit) || c == '_') = true ↔
    ((c.isUpper || c.isLower) || c == '_') = true ∨ _
  simp only [Bool.or_eq_true]
  tauto

/-- No blank belongs to an identifier. -/
theorem isNameChar_eq_false {c : Char} (h : isBlank c = true) : Lexeme.isNameChar c = false := by
  simp only [isBlank, Bool.or_eq_true, Bool.and_eq_true, decide_eq_true_eq, beq_iff_eq] at h
  rw [← Bool.not_eq_true, isNameChar_iff, isNameStart_iff, isDigit_iff]
  omega

theorem isNameStart_eq_false {c : Char} (h : isBlank c = true) :
    Lexeme.isNameStart c = false := by
  have hname := isNameChar_eq_false h
  rw [← Bool.not_eq_true, isNameChar_iff, not_or] at hname
  exact Bool.eq_false_iff.mpr hname.1

theorem isDigit_eq_false {c : Char} (h : isBlank c = true) : c.isDigit = false := by
  have hname := isNameChar_eq_false h
  rw [← Bool.not_eq_true, isNameChar_iff, not_or] at hname
  exact Bool.eq_false_iff.mpr hname.2

end Text

/-- No digit starts an identifier. -/
theorem Lexeme.isNameStart_eq_false {c : Char} (h : c.isDigit = true) : isNameStart c = false := by
  rw [Text.isDigit_iff] at h
  rw [← Bool.not_eq_true, Text.isNameStart_iff]
  omega

/-- What stands before a character that a class does not hold is taken whole. -/
theorem takeWhile_append_eq {p : Char → Bool} {cs rest : List Char} (h : ∀ c ∈ cs, p c = true)
    (hrest : ∀ c ∈ rest.head?, p c = false) : (cs ++ rest).takeWhile p = cs := by
  rw [List.takeWhile_append_of_pos h]
  cases rest with
  | nil => simp
  | cons c rest => rw [List.takeWhile_cons_of_neg (by simp [hrest c rfl]), List.append_nil]

theorem dropWhile_append_eq {p : Char → Bool} {cs rest : List Char} (h : ∀ c ∈ cs, p c = true)
    (hrest : ∀ c ∈ rest.head?, p c = false) : (cs ++ rest).dropWhile p = rest := by
  rw [List.dropWhile_append_of_pos h]
  cases rest with
  | nil => rfl
  | cons c rest => exact List.dropWhile_cons_of_neg (by simp [hrest c rfl])

/-- Nothing of such a class goes over a character that it does not hold. -/
theorem takeWhile_append_cons {p : Char → Bool} {c : Char} (h : p c = false)
    (cs rest : List Char) : (cs ++ c :: rest).takeWhile p = cs.takeWhile p := by
  induction cs with
  | nil => exact List.takeWhile_cons_of_neg (by simp [h])
  | cons d ds ih =>
    rw [List.cons_append, List.takeWhile_cons, List.takeWhile_cons, ih]

theorem dropWhile_append_cons {p : Char → Bool} {c : Char} (h : p c = false)
    (cs rest : List Char) : (cs ++ c :: rest).dropWhile p = cs.dropWhile p ++ c :: rest := by
  induction cs with
  | nil => exact List.dropWhile_cons_of_neg (by simp [h])
  | cons d ds ih =>
    rw [List.cons_append, List.dropWhile_cons, List.dropWhile_cons, ih]
    split <;> rfl

/-! ## The next lexeme -/

namespace Lexeme

section

variable {text rest : List Char}

/-- An identifier is the next lexeme where no more characters of an identifier follow. -/
theorem first?_identifier (h : isIdentifier text = true)
    (hrest : ∀ c ∈ rest.head?, isNameChar c = false) :
    first? (text ++ rest) = some (spelled (identifierKind text) text) := by
  cases text with
  | nil => cases h
  | cons c cs =>
    rw [isIdentifier, Bool.and_eq_true, List.all_eq_true] at h
    rw [List.cons_append, first?, if_pos h.1, takeWhile_append_eq h.2 hrest]

/-- Digits, a fraction if there is one, and what follows them. -/
theorem exists_of_isNumeral (h : isNumeral text = true) :
    ∃ whole part, text = whole ++ part ∧ isDigits whole = true ∧
      (part = [] ∨ ∃ d ds, part = '.' :: d :: ds ∧ ∀ c ∈ d :: ds, c.isDigit = true) := by
  rw [isNumeral, Bool.and_eq_true] at h
  obtain ⟨hwhole, hpart⟩ := h
  refine ⟨_, _, List.takeWhile_append_dropWhile.symm, hwhole, ?_⟩
  split at hpart
  next heq => exact .inl heq
  next ds heq =>
    cases ds with
    | nil => cases hpart
    | cons d ds => exact .inr ⟨d, ds, heq, List.all_eq_true.mp hpart⟩
  next => cases hpart

/-- Nothing continues a number where no point with a digit after it follows. -/
theorem fraction_eq_nil (h : ∀ d ds, rest = '.' :: d :: ds → d.isDigit = false) :
    fraction rest = [] := by
  unfold fraction
  split
  next d ds => rw [if_neg (by simp [h d ds rfl])]
  next => rfl

/-- The digits of a number end where no digit follows. If it has no fraction, no point with a digit
after it may follow either. -/
theorem numeral_append (h : isNumeral text = true) (hdigit : ∀ c ∈ rest.head?, c.isDigit = false)
    (hpoint : '.' ∉ text → ∀ d ds, rest = '.' :: d :: ds → d.isDigit = false) :
    numeral (text ++ rest) = text := by
  obtain ⟨whole, part, rfl, hwhole, hpart⟩ := exists_of_isNumeral h
  rw [isDigits, Bool.and_eq_true, List.all_eq_true] at hwhole
  obtain rfl | ⟨d, ds, rfl, hds⟩ := hpart
  · have hfree : '.' ∉ whole ++ [] := by
      intro hmem
      rw [List.append_nil] at hmem
      exact absurd (hwhole.2 _ hmem) (by decide)
    rw [List.append_nil, numeral, takeWhile_append_eq hwhole.2 hdigit,
      dropWhile_append_eq hwhole.2 hdigit, fraction_eq_nil (hpoint hfree), List.append_nil]
  · have hmark : ∀ c ∈ ('.' :: d :: ds ++ rest).head?, c.isDigit = false := by
      rintro c ⟨⟩
      rfl
    rw [List.forall_mem_cons] at hds
    rw [List.append_assoc, numeral, takeWhile_append_eq hwhole.2 hmark,
      dropWhile_append_eq hwhole.2 hmark]
    show whole ++ fraction ('.' :: d :: (ds ++ rest)) = whole ++ '.' :: d :: ds
    rw [fraction, if_pos hds.1, takeWhile_append_eq hds.2 hdigit]

/-- A number is the next lexeme where nothing continues it. -/
theorem first?_numeral (h : isNumeral text = true) (hdigit : ∀ c ∈ rest.head?, c.isDigit = false)
    (hpoint : '.' ∉ text → ∀ d ds, rest = '.' :: d :: ds → d.isDigit = false) :
    first? (text ++ rest) = some (spelled .number text) := by
  have hnumeral := numeral_append h hdigit hpoint
  obtain ⟨whole, part, rfl, hwhole, -⟩ := exists_of_isNumeral h
  rw [isDigits, Bool.and_eq_true, List.all_eq_true] at hwhole
  cases whole with
  | nil => cases hwhole.1
  | cons c cs =>
    have hdigit := hwhole.2 c List.mem_cons_self
    rw [List.cons_append, List.cons_append] at hnumeral ⊢
    rw [first?, if_neg (by simp [isNameStart_eq_false hdigit]), if_pos hdigit, hnumeral]

/-- A body in quotes is the next lexeme, whatever follows. -/
theorem first?_literal {body : List Char}
    (h : StringLiteral.body? (body ++ '"' :: rest) = some body) :
    first? ((literal body).text ++ rest) = some (literal body) := by
  show first? ('"' :: (body ++ ['"'] ++ rest)) = _
  rw [List.append_assoc]
  simp [first?, h, isNameStart, Text.isBlank]

/-- A character of punctuation is the next lexeme, whatever follows. -/
theorem first?_punctuation {c : Char} (h : c ∈ punctuation) (rest : List Char) :
    first? (c :: rest) = some (spelled .single [c]) := by
  have hclass : ∀ c ∈ punctuation, isNameStart c = false ∧ c.isDigit = false ∧
      Text.isBlank c = false ∧ c ≠ '"' ∧ c ≠ '/' := by
    simp [punctuation, isNameStart, Text.isBlank]
  obtain ⟨hstart, hdigit, hblank, hquote, hslash⟩ := hclass c h
  simp [first?, hstart, hdigit, hblank, hquote, hslash, h]

/-- A blank starts blanks. -/
theorem first?_of_isBlank {c : Char} (h : Text.isBlank c = true) (cs : List Char) :
    first? (c :: cs) = some (skipped (c :: cs.takeWhile Text.isBlank)) := by
  rw [first?, Text.isNameStart_eq_false h, Text.isDigit_eq_false h, h]
  rfl

/-- Blanks are the next lexeme where no more blanks follow. -/
theorem first?_blanks (hne : text ≠ []) (h : ∀ c ∈ text, Text.isBlank c = true)
    (hrest : ∀ c ∈ rest.head?, Text.isBlank c = false) :
    first? (text ++ rest) = some (skipped text) := by
  cases text with
  | nil => exact absurd rfl hne
  | cons c cs =>
    rw [List.forall_mem_cons] at h
    rw [List.cons_append, first?_of_isBlank h.1, takeWhile_append_eq h.2 hrest]

end

end Lexeme

/-! ## Written words -/

namespace Word

/-- An identifier is a keyword, or its first character tells its kind. -/
theorem identifierKind_of_lookup_eq_none {text : String}
    (h : Lexeme.keywords.lookup text = none) :
    Lexeme.identifierKind text.toList =
      if text.toList.head?.any Char.isUpper then .className else .name := by
  rw [Lexeme.identifierKind, String.ofList_toList, h]

theorem isUpper_eq_false {c : Char} (h : (c.isLower || c == '_') = true) : c.isUpper = false := by
  rw [Bool.or_eq_true, Text.isLower_iff, beq_iff_eq, Text.eq_underscore_iff] at h
  rw [← Bool.not_eq_true, Text.isUpper_iff]
  omega

/-- No keyword starts with an upper-case letter. -/
theorem lookup_eq_none_of_isUpper {text : String}
    (h : text.toList.head?.any Char.isUpper = true) : Lexeme.keywords.lookup text = none := by
  have hkeywords : ∀ entry ∈ Lexeme.keywords, entry.1.toList.head?.any Char.isUpper = false := by
    decide
  rw [List.lookup_eq_none_iff]
  intro entry hentry
  rw [bne_iff_ne]
  rintro rfl
  rw [hkeywords entry hentry] at h
  cases h

theorem spelling_of_kind_ne {word : Word} (h : word.kind ≠ .string) :
    word.spelling = word.text.toList := by
  rw [spelling]
  split
  next heq => exact absurd heq h
  next => rfl

/-- An identifier is the next lexeme, before blanks and at the end. -/
theorem first?_of_isIdentifier {word : Word} {rest : List Char} (hkind : word.kind ≠ .string)
    (h : Lexeme.isIdentifier word.text.toList = true)
    (hidentifier : Lexeme.identifierKind word.text.toList = word.kind)
    (hrest : ∀ c ∈ rest.head?, Text.isBlank c = true) :
    Lexeme.first? (word.spelling ++ rest) = some ⟨word.spelling, some word⟩ := by
  have hname : ∀ c ∈ rest.head?, Lexeme.isNameChar c = false := fun c hc =>
    Text.isNameChar_eq_false (hrest c hc)
  rw [spelling_of_kind_ne hkind, Lexeme.first?_identifier h hname, hidentifier, Lexeme.spelled,
    String.ofList_toList]

/-- A keyword is the next lexeme, before blanks and at the end. -/
theorem first?_of_mem_keywords {kind : Kind} (h : (kind.tag, kind) ∈ Lexeme.keywords)
    {rest : List Char} (hrest : ∀ c ∈ rest.head?, Text.isBlank c = true) :
    Lexeme.first? ((Word.mk kind kind.tag).spelling ++ rest) =
      some ⟨(Word.mk kind kind.tag).spelling, some ⟨kind, kind.tag⟩⟩ := by
  have hkeyword : kind ≠ .string ∧ Lexeme.isIdentifier kind.tag.toList = true ∧
      Lexeme.identifierKind kind.tag.toList = kind := by
    revert h
    cases kind <;> decide
  exact first?_of_isIdentifier hkeyword.1 hkeyword.2.1 hkeyword.2.2 hrest

/-- A word that can be written is the next lexeme, before blanks and at the end. -/
theorem first?_spelling_append {word : Word} {rest : List Char} (h : word.isWritable = true)
    (hrest : ∀ c ∈ rest.head?, Text.isBlank c = true) :
    Lexeme.first? (word.spelling ++ rest) = some ⟨word.spelling, some word⟩ := by
  obtain ⟨kind, text⟩ := word
  cases kind with
  | name =>
    simp only [isWritable, Bool.and_eq_true, Option.isNone_iff_eq_none] at h
    obtain ⟨⟨hidentifier, hfirst⟩, hkeyword⟩ := h
    refine first?_of_isIdentifier (by simp) hidentifier ?_ hrest
    rw [identifierKind_of_lookup_eq_none hkeyword, if_neg]
    obtain ⟨c, hc, hlower⟩ := (Option.any_eq_true _ _).mp hfirst
    simp [hc, isUpper_eq_false hlower]
  | className =>
    simp only [isWritable, Bool.and_eq_true] at h
    obtain ⟨hidentifier, hfirst⟩ := h
    refine first?_of_isIdentifier (by simp) hidentifier ?_ hrest
    rw [identifierKind_of_lookup_eq_none (lookup_eq_none_of_isUpper hfirst), if_pos hfirst]
  | string =>
    have hliteral := Lexeme.first?_literal (StringLiteral.body?_encode text.toList rest)
    rwa [Lexeme.literal, StringLiteral.decode_encode, String.ofList_toList] at hliteral
  | number =>
    have hdigit : ∀ c ∈ rest.head?, c.isDigit = false := fun c hc =>
      Text.isDigit_eq_false (hrest c hc)
    have hnumeral := Lexeme.first?_numeral h hdigit (by rintro - d ds rfl; cases hrest '.' rfl)
    rwa [Lexeme.spelled, String.ofList_toList] at hnumeral
  | single =>
    simp only [isWritable, List.any_eq_true, beq_iff_eq] at h
    obtain ⟨c, hc, rfl⟩ := h
    have hmark := Lexeme.first?_punctuation hc rest
    simpa [spelling, Lexeme.spelled] using hmark
  | eof => cases h
  | _ =>
    simp only [isWritable, beq_iff_eq] at h
    subst h
    exact first?_of_mem_keywords (by decide) hrest

/-- A written word starts with a character that is no blank: the lexeme there would be skipped. -/
theorem exists_spelling_eq_cons {word : Word} (h : word.isWritable = true) :
    ∃ c cs, word.spelling = c :: cs ∧ Text.isBlank c = false := by
  have hend : ∀ c ∈ ([] : List Char).head?, Text.isBlank c = true := by simp
  have hfirst := first?_spelling_append h hend
  rw [List.append_nil] at hfirst
  cases hspelling : word.spelling with
  | nil =>
    rw [hspelling] at hfirst
    cases hfirst
  | cons c cs =>
    refine ⟨c, cs, rfl, ?_⟩
    by_contra hblank
    rw [Bool.not_eq_false] at hblank
    rw [hspelling, Lexeme.first?_of_isBlank hblank] at hfirst
    simp [Lexeme.skipped] at hfirst

end Word

/-! ## Scanning -/

section

variable {file : String} {offset : Nat} {done : List Token}

/-- The characters of a lexeme that was found are passed over. -/
theorem scanFrom_covered (cs rest : List Char) :
    scanFrom file offset cs.length done (cs ++ rest) =
      scanFrom file (offset + Text.byteSize cs) 0 done rest := by
  induction cs generalizing offset with
  | nil => rfl
  | cons c cs ih =>
    rw [List.length_cons, List.cons_append, scanFrom, ih, Text.byteSize_cons, Nat.add_assoc]

/-- Scanning takes the next lexeme, and its token if it has one. -/
theorem scanFrom_lexeme {text rest : List Char} {word : Option Word} (hne : text ≠ [])
    (h : Lexeme.first? (text ++ rest) = some ⟨text, word⟩) :
    scanFrom file offset 0 done (text ++ rest) =
      scanFrom file (offset + Text.byteSize text) 0
        ((Lexeme.mk text word).tokens file offset ++ done) rest := by
  cases text with
  | nil => exact absurd rfl hne
  | cons c cs =>
    rw [List.cons_append] at h ⊢
    rw [scanFrom, h]
    dsimp only
    rw [List.length_cons, Nat.add_sub_cancel, scanFrom_covered, Text.byteSize_cons, Nat.add_assoc]

/-- A written word gives its token. -/
theorem scanFrom_spelling (file : String) (offset : Nat) (done : List Token) {word : Word}
    {rest : List Char} (h : word.isWritable = true)
    (hrest : ∀ c ∈ rest.head?, Text.isBlank c = true) :
    ∃ token offset', token.toWord = word ∧ scanFrom file offset 0 done (word.spelling ++ rest) =
      scanFrom file offset' 0 (token :: done) rest := by
  obtain ⟨c, cs, hcons, -⟩ := word.exists_spelling_eq_cons h
  have hne : word.spelling ≠ [] := by
    rw [hcons]
    exact List.cons_ne_nil c cs
  exact ⟨_, _, rfl, scanFrom_lexeme hne (Word.first?_spelling_append h hrest)⟩

/-- Blanks give no token. -/
theorem scanFrom_blanks {blanks rest : List Char} (hne : blanks ≠ [])
    (h : ∀ c ∈ blanks, Text.isBlank c = true) (hrest : ∀ c ∈ rest.head?, Text.isBlank c = false) :
    scanFrom file offset 0 done (blanks ++ rest) =
      scanFrom file (offset + Text.byteSize blanks) 0 done rest :=
  scanFrom_lexeme hne (Lexeme.first?_blanks hne h hrest)

end

theorem Writes.head?_isBlank_eq_false {cs : List Char} {words : List Word} (h : Writes cs words)
    (hwords : ∀ word ∈ words, word.isWritable = true) :
    ∀ c ∈ cs.head?, Text.isBlank c = false := by
  cases h with
  | nil => simp
  | one word =>
    obtain ⟨c, cs, hcons, hblank⟩ := word.exists_spelling_eq_cons (hwords word (by simp))
    rw [hcons]
    rintro _ ⟨⟩
    exact hblank
  | cons word hne hblanks hcs =>
    obtain ⟨c, cs, hcons, hblank⟩ := word.exists_spelling_eq_cons (hwords word (by simp))
    rw [hcons]
    rintro _ ⟨⟩
    exact hblank

/-- The words that a text writes are scanned one after the other. -/
theorem scanFrom_of_writes {file : String} {cs : List Char} {words : List Word} (h : Writes cs words)
    (hwords : ∀ word ∈ words, word.isWritable = true) (offset : Nat) (done : List Token) :
    ∃ tokens stop, scanFrom file offset 0 done cs =
        .ok (done.reverse ++ tokens ++ [Token.endAt stop]) ∧
      tokens.map Token.toWord = words := by
  induction h generalizing offset done with
  | nil => exact ⟨[], ⟨offset, file⟩, by simp [scanFrom], rfl⟩
  | one word =>
    have hend : ∀ c ∈ ([] : List Char).head?, Text.isBlank c = true := by simp
    obtain ⟨token, offset', hword, hscan⟩ :=
      scanFrom_spelling file offset done (hwords word (by simp)) hend
    rw [List.append_nil] at hscan
    exact ⟨[token], ⟨offset', file⟩, by rw [hscan]; simp [scanFrom], by simp [hword]⟩
  | @cons word next words blanks cs hne hblanks hcs ih =>
    rw [List.forall_mem_cons] at hwords
    have hfirst : ∀ c ∈ (blanks ++ cs).head?, Text.isBlank c = true := by
      cases blanks with
      | nil => exact absurd rfl hne
      | cons c blanks =>
        rintro _ ⟨⟩
        exact hblanks c List.mem_cons_self
    obtain ⟨token, offset', hword, hscan⟩ := scanFrom_spelling file offset done hwords.1 hfirst
    rw [hscan, scanFrom_blanks hne hblanks (hcs.head?_isBlank_eq_false hwords.2)]
    obtain ⟨tokens, stop, hrest, hmap⟩ :=
      ih hwords.2 (offset' + Text.byteSize blanks) (token :: done)
    exact ⟨token :: tokens, stop, by rw [hrest]; simp, by rw [List.map_cons, hword, hmap]⟩

/-- The words that a text writes are its tokens, and then comes the end. -/
theorem tokenize_of_writes {source file : String} {words : List Word}
    (h : Writes source.toList words) (hwords : ∀ word ∈ words, word.isWritable = true) :
    ∃ tokens stop, tokenize source file = .ok (tokens ++ [Token.endAt stop]) ∧
      tokens.map Token.toWord = words :=
  scanFrom_of_writes h hwords 0 []

end FrappeSyntax
