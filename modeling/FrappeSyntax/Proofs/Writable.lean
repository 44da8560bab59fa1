import FrappeSyntax.Proofs.Tiling

/-!
# Scanned words can be written

Scanning goes back from a text to the words that it writes, and every word that a scan finds is one
that can be written. So the words of a source can be written and scanned again, and they are the
same words.

* `Lexeme.Stands.isWritable`: a lexeme that is a word is one that can be written.
* `exists_isWritable_of_tokenize`: the tokens of a source are words that can be written, and the
  end.
* `tokenize_inverts_writing`: writing and scanning, in both orders.
-/

namespace FrappeSyntax

/-! ## Words of lexemes -/

namespace Lexeme

/-- An identifier that is no keyword starts with an upper-case letter and is a class name, or it is
a name. -/
theorem isWritable_identifier {text : List Char} (h : isIdentifier text = true) :
    (Word.mk (identifierKind text) (String.ofList text)).isWritable = true := by
  unfold identifierKind
  cases hlookup : keywords.lookup (String.ofList text) with
  | some kind =>
    have hkeywords : ∀ entry ∈ keywords, (Word.mk entry.2 entry.1).isWritable = true := by decide
    exact hkeywords _ (mem_keywords_of_lookup hlookup)
  | none =>
    cases text with
    | nil => cases h
    | cons c cs =>
      have hstart : isNameStart c = true := by
        rw [isIdentifier, Bool.and_eq_true] at h
        exact h.1
      by_cases hupper : c.isUpper = true
      · simp [Word.isWritable, h, hupper]
      · have hletter : c.isAlpha = (c.isUpper || c.isLower) := rfl
        have hlower : c.isLower = true ∨ c = '_' := by
          simpa [isNameStart, hletter, hupper] using hstart
        have hname : (Word.mk .name (String.ofList (c :: cs))).isWritable = true := by
          simp only [Word.isWritable, String.toList_ofList, h, hlookup]
          simpa using hlower
        simpa [hupper] using hname

theorem isWritable_punctuation {c : Char} (h : c ∈ punctuation) :
    (Word.mk .single (String.ofList [c])).isWritable = true := by
  have hmarks : punctuation.all (fun c => (Word.mk .single (String.ofList [c])).isWritable) := by
    decide
  exact List.all_eq_true.mp hmarks c h

/-- A lexeme that is a word is one that can be written. -/
theorem Stands.isWritable {lexeme : Lexeme} {rest : List Char} (h : lexeme.Stands rest) :
    ∀ word ∈ lexeme.word, word.isWritable = true := by
  rintro word hword
  cases h with
  | identifier htext =>
    cases hword
    exact isWritable_identifier htext
  | number htext =>
    cases hword
    simpa [Word.isWritable] using htext
  | blanks => cases hword
  | comment => cases hword
  | string =>
    cases hword
    rfl
  | punctuation hmark =>
    cases hword
    exact isWritable_punctuation hmark

end Lexeme

/-! ## Tokens -/

/-- The tokens of the rest of a source are words that can be written, and the end. -/
theorem Scans.exists_isWritable {file : String} {offset : Nat} {cs : List Char}
    {tokens : List Token} (h : Scans file offset cs tokens) :
    ∃ front stop, tokens = front ++ [Token.endAt stop] ∧
      ∀ token ∈ front, token.toWord.isWritable = true := by
  induction h with
  | nil => exact ⟨[], _, rfl, by simp⟩
  | @cons offset lexeme rest tokens hstands _ ih =>
    obtain ⟨front, stop, rfl, hfront⟩ := ih
    refine ⟨lexeme.tokens file offset ++ front, stop, (List.append_assoc _ _ _).symm, ?_⟩
    rw [List.forall_mem_append]
    refine ⟨fun token htoken => ?_, hfront⟩
    unfold Lexeme.tokens at htoken
    cases hword : lexeme.word with
    | none =>
      rw [hword] at htoken
      cases htoken
    | some word =>
      rw [hword] at htoken
      obtain rfl := List.mem_singleton.mp htoken
      exact hstands.isWritable word hword

/-- The tokens of a source are words that can be written, and the end. -/
theorem exists_isWritable_of_tokenize {source file : String} {tokens : List Token}
    (h : tokenize source file = .ok tokens) :
    ∃ front stop, tokens = front ++ [Token.endAt stop] ∧
      ∀ token ∈ front, token.toWord.isWritable = true := by
  obtain ⟨added, rfl, hscans⟩ := scans_of_scanFrom h
  exact hscans.exists_isWritable

/-! ## Writing and scanning -/

/-- Words that can be written are scanned from every text that writes them, and then comes the end.
The words of a source are such words, so they can be written, and they are scanned from every text
that writes them. -/
theorem tokenize_inverts_writing :
    (∀ (words : List Word) (source file : String), (∀ word ∈ words, word.isWritable = true) →
      Writes source.toList words →
      ∃ front stop, tokenize source file = .ok (front ++ [Token.endAt stop]) ∧
        front.map Token.toWord = words) ∧
    ∀ (source file : String) (tokens : List Token), tokenize source file = .ok tokens →
      ∃ front stop, tokens = front ++ [Token.endAt stop] ∧
        (∀ token ∈ front, token.toWord.isWritable = true) ∧
        (∃ written : String, Writes written.toList (front.map Token.toWord)) ∧
        ∀ written file' : String, Writes written.toList (front.map Token.toWord) →
          ∃ front' stop', tokenize written file' = .ok (front' ++ [Token.endAt stop']) ∧
            front'.map Token.toWord = front.map Token.toWord := by
  constructor
  · intro words source file hwords hwrites
    exact tokenize_of_writes hwrites hwords
  · intro source file tokens hscan
    obtain ⟨front, stop, htokens, hfront⟩ := exists_isWritable_of_tokenize hscan
    have hwords : ∀ word ∈ front.map Token.toWord, word.isWritable = true := by
      intro word hword
      obtain ⟨token, htoken, rfl⟩ := List.mem_map.mp hword
      exact hfront token htoken
    let spaced := [' '].intercalate ((front.map Token.toWord).map Word.spelling)
    have hspaced : Writes (String.ofList spaced).toList (front.map Token.toWord) := by
      rw [String.toList_ofList]
      exact writes_intercalate _
    refine ⟨front, stop, htokens, hfront, ⟨_, hspaced⟩, fun written file' hwrites => ?_⟩
    exact tokenize_of_writes hwrites hwords

/-- A string with a backslash before a line feed, a quote, two slashes and a letter of two bytes,
then a number with a point right after its blank; and what a source without blanks gives. -/
theorem tokenize_inverts_writing_string :
    (∃ front stop, tokenize "\"a\\\\\n\\\"// é\" \u00a0\n1.5\t." "f" =
        .ok (front ++ [Token.endAt stop]) ∧
      front.map Token.toWord =
        [⟨.string, "a\\\n\"// é"⟩, ⟨.number, "1.5"⟩, .single "."]) ∧
    ∃ front stop, [⟨⟨.ifWord, "if"⟩, .within "f" 0 2⟩, ⟨⟨.string, "\\q"⟩, .within "f" 2 6⟩,
        Token.endAt ⟨6, "f"⟩] = front ++ [Token.endAt stop] ∧
      (∀ token ∈ front, token.toWord.isWritable = true) ∧
      (∃ written : String, Writes written.toList (front.map Token.toWord)) ∧
      ∀ written file' : String, Writes written.toList (front.map Token.toWord) →
        ∃ front' stop', tokenize written file' = .ok (front' ++ [Token.endAt stop']) ∧
          front'.map Token.toWord = front.map Token.toWord := by
  have hwrites : Writes "\"a\\\\\n\\\"// é\" \u00a0\n1.5\t.".toList
      [⟨.string, "a\\\n\"// é"⟩, ⟨.number, "1.5"⟩, .single "."] := by
    have htext : "\"a\\\\\n\\\"// é\" \u00a0\n1.5\t.".toList =
        (Word.mk .string "a\\\n\"// é").spelling ++ ([' ', '\u00a0', '\n'] ++
          ((Word.mk .number "1.5").spelling ++ (['\t'] ++ (Word.single ".").spelling))) := by
      decide +kernel
    rw [htext]
    exact .cons _ (by decide) (List.all_eq_true.mp (by decide))
      (.cons _ (by decide) (List.all_eq_true.mp (by decide)) (.one _))
  refine ⟨tokenize_inverts_writing.1 _ _ _ (by decide +kernel) hwrites, ?_⟩
  exact tokenize_inverts_writing.2 "if\"\\q\"" "f" _ (by decide +kernel)

end FrappeSyntax
