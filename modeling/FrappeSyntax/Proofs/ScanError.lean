import FrappeSyntax.Proofs.Tiling

/-!
# The errors of a scan

A scan goes on for as long as a lexeme starts, so its error is about the first character that starts
none. What stands before this character is scanned without it, and more text after a text that is
scanned does not change where its lexemes end, unless it goes on with a comment.

* `StringLiteral.IsOpen`: the text after a quote, if no quote closes the literal.
* `Stops`: a character that starts no lexeme.
* `Cut`: a text that is cut into lexemes, as it stands before the rest.
* `exists_cut`: every text is cut into lexemes up to a character that starts none, or to its end.
* `tokenize_error_exact`: where a scan fails, and where it has to.
-/

namespace FrappeSyntax

/-! ## Literals that are not closed -/

namespace StringLiteral

/-- No quote closes a literal that goes on with this text: each quote in it has a backslash before
it, or a backslash comes first that stands right before a line feed or at the end. -/
def IsOpen (text : List Char) : Prop :=
  ∃ body stop, IsBody body ∧ text = body ++ stop ∧
    (stop = [] ∨ stop = ['\\'] ∨ ∃ rest, stop = '\\' :: '\n' :: rest)

theorem body?_eq_none_of_isOpen {text : List Char} (h : IsOpen text) : body? text = none := by
  obtain ⟨body, stop, hbody, rfl, hstop⟩ := h
  have hnone : body? stop = none := by
    rcases hstop with rfl | rfl | ⟨rest, rfl⟩
    · rfl
    · rfl
    · simp [body?]
  rw [hbody.body?_append, hnone, Option.map_none]

theorem isOpen_of_body?_eq_none {text : List Char} (h : body? text = none) : IsOpen text := by
  obtain ⟨body, stop, hbody, rfl, ⟨rest, rfl⟩ | hstop⟩ := exists_isBody text
  · rw [hbody.body?_append_quote] at h
    cases h
  · exact ⟨body, stop, hbody, rfl, hstop⟩

theorem body?_eq_none_iff {text : List Char} : body? text = none ↔ IsOpen text :=
  ⟨isOpen_of_body?_eq_none, body?_eq_none_of_isOpen⟩

/-- A literal is open or it is closed. -/
theorem isOpen_iff {text : List Char} :
    IsOpen text ↔ ¬ ∃ body rest, IsBody body ∧ text = body ++ '"' :: rest := by
  rw [← body?_eq_none_iff, Option.eq_none_iff_forall_not_mem]
  constructor
  · rintro h ⟨body, rest, hbody, rfl⟩
    exact h body (hbody.body?_append_quote rest)
  · intro h body hbody
    obtain ⟨hisBody, rest, rfl⟩ := exists_of_body? hbody
    exact h ⟨body, rest, hisBody, rfl⟩

end StringLiteral

/-! ## Characters that start no lexeme -/

/-- A character starts no lexeme, as it stands before the rest of a text: it is no blank, no ASCII
letter or digit, no `_` and no punctuation; if it is a slash, no other slash follows, and if it is a
quote, the literal is not closed. -/
structure Stops (c : Char) (rest : List Char) : Prop where
  isBlank : Text.isBlank c = false
  isAlpha : c.isAlpha = false
  isDigit : c.isDigit = false
  ne_underscore : c ≠ '_'
  notMem_punctuation : c ∉ ['\x7b', '\x7d', '(', ')', ',', '.', '=', ';']
  slash : c = '/' → ∀ d ∈ rest.head?, d ≠ '/'
  quote : c = '"' → StringLiteral.IsOpen rest

theorem Stops.isNameStart {c : Char} {rest : List Char} (h : Stops c rest) :
    Lexeme.isNameStart c = false := by
  simp [Lexeme.isNameStart, h.isAlpha, h.ne_underscore]

theorem Stops.isNameChar {c : Char} {rest : List Char} (h : Stops c rest) :
    Lexeme.isNameChar c = false := by
  simp [Lexeme.isNameChar, Char.isAlphanum, h.isAlpha, h.isDigit, h.ne_underscore]

namespace Lexeme

theorem comment?_eq_none_iff {cs : List Char} :
    comment? cs = none ↔ ∀ c ∈ cs.head?, c ≠ '/' := by
  unfold comment?
  split
  next cs => simp
  next hslash =>
    constructor
    · intro _ c hc
      rintro rfl
      obtain ⟨ds, rfl⟩ := List.head?_eq_some_iff.mp (Option.mem_def.mp hc)
      exact hslash ds rfl
    · intro _
      rfl

/-- No lexeme starts with a character that stops a scan, and with no other. -/
theorem first?_eq_none_iff {c : Char} {cs : List Char} :
    first? (c :: cs) = none ↔ Stops c cs := by
  constructor
  · intro h
    rw [first?] at h
    split_ifs at h with hname hdigit hblank hquote hslash hmark
    all_goals
      obtain ⟨halpha, hunderscore⟩ : c.isAlpha = false ∧ c ≠ '_' := by
        simpa [isNameStart] using hname
    · rw [Option.map_eq_none_iff] at h
      have hopen := StringLiteral.isOpen_of_body?_eq_none h
      subst hquote
      exact ⟨by decide, halpha, by decide, hunderscore, by decide,
        fun hslash => absurd hslash (by decide), fun _ => hopen⟩
    · have hfollowing := comment?_eq_none_iff.mp h
      subst hslash
      exact ⟨by decide, halpha, by decide, hunderscore, by decide, fun _ => hfollowing,
        fun hquote => absurd hquote (by decide)⟩
    · exact ⟨by simpa using hblank, halpha, by simpa using hdigit, hunderscore, hmark,
        fun h => absurd h hslash, fun h => absurd h hquote⟩
  · intro h
    rw [first?, if_neg (by simp [h.isNameStart]), if_neg (by simp [h.isDigit]),
      if_neg (by simp [h.isBlank])]
    split_ifs with hquote hslash hmark
    · rw [Option.map_eq_none_iff]
      exact StringLiteral.body?_eq_none_of_isOpen (h.quote hquote)
    · exact comment?_eq_none_iff.mpr (h.slash hslash)
    · exact absurd hmark h.notMem_punctuation
    · rfl

end Lexeme

/-! ## Texts that are cut into lexemes -/

/-- A text is cut into lexemes, as it stands before the rest. -/
inductive Cut : List Char → List Char → Prop
  | nil {rest : List Char} : Cut [] rest
  | cons {lexeme : Lexeme} {text rest : List Char} : lexeme.Stands (text ++ rest) → Cut text rest →
    Cut (lexeme.text ++ text) rest

/-- A text is cut into lexemes up to its end, or up to a character that starts none. -/
theorem exists_cut (cs : List Char) :
    Cut cs [] ∨ ∃ front c rest, cs = front ++ c :: rest ∧ Cut front (c :: rest) ∧ Stops c rest := by
  induction cs using Lexeme.lexemeInduction with
  | nil => exact .inl .nil
  | stuck c cs hnone => exact .inr ⟨[], c, cs, rfl, .nil, Lexeme.first?_eq_none_iff.mp hnone⟩
  | lexeme lexeme rest hstands ih =>
    rcases ih with hcut | ⟨front, c, rest', rfl, hcut, hstops⟩
    · exact .inl (.cons (by rwa [List.append_nil]) hcut)
    · exact .inr ⟨lexeme.text ++ front, c, rest', (List.append_assoc _ _ _).symm,
        .cons hstands hcut, hstops⟩

namespace Cut

variable {text more rest : List Char}

/-- What is cut before the rest is cut at the end of the text too. -/
theorem alone (h : Cut text rest) : Cut text [] := by
  induction h with
  | nil => exact .nil
  | cons hstands _ ih => exact .cons (by rw [List.append_nil]; exact hstands.of_append) ih

/-- One text after the other. -/
theorem append (h : Cut text (more ++ rest)) (hmore : Cut more rest) : Cut (text ++ more) rest := by
  generalize hall : more ++ rest = all at h
  induction h with
  | nil => exact hmore
  | @cons lexeme text all hstands _ ih =>
    subst hall
    rw [List.append_assoc]
    exact .cons (by rwa [List.append_assoc]) (ih rfl)

/-- The lexemes of a text are passed over. -/
theorem scanFrom (h : Cut text rest) (file : String) (offset : Nat) (done : List Token) :
    ∃ done', scanFrom file offset 0 done (text ++ rest) =
      FrappeSyntax.scanFrom file (offset + Text.byteSize text) 0 done' rest := by
  induction h generalizing offset done with
  | nil => exact ⟨done, rfl⟩
  | @cons lexeme text rest hstands _ ih =>
    obtain ⟨done', hscan⟩ :=
      ih (offset + Text.byteSize lexeme.text) (lexeme.tokens file offset ++ done)
    refine ⟨done', ?_⟩
    rw [List.append_assoc, scanFrom_lexeme hstands.text_ne_nil hstands.first?, Text.byteSize_append,
      ← Nat.add_assoc]
    exact hscan

/-- After the lexemes before it, a character that starts none ends the scan. -/
theorem tokenize_eq_error {source : String} {c : Char} (h : Cut text (c :: rest))
    (hstops : Stops c rest) (hsource : source.toList = text ++ c :: rest) (file : String) :
    tokenize source file =
      .error ⟨.unrecognisedToken (String.singleton c), ⟨Text.byteSize text, file⟩⟩ := by
  obtain ⟨done, hscan⟩ := h.scanFrom file 0 []
  rw [tokenize, hsource, hscan, FrappeSyntax.scanFrom, Lexeme.first?_eq_none_iff.mpr hstops,
    Nat.zero_add]

end Cut

/-- A scan fails at a character that starts no lexeme, after the lexemes before it. -/
theorem exists_of_tokenize_eq_error {source file : String} {error : Error}
    (h : tokenize source file = .error error) :
    ∃ before c rest, source.toList = before ++ c :: rest ∧ Cut before (c :: rest) ∧ Stops c rest ∧
      error = ⟨.unrecognisedToken (String.singleton c), ⟨Text.byteSize before, file⟩⟩ := by
  rcases exists_cut source.toList with hcut | ⟨before, c, rest, hsource, hcut, hstops⟩
  · obtain ⟨done, hscan⟩ := hcut.scanFrom file 0 []
    rw [List.append_nil] at hscan
    rw [tokenize, hscan] at h
    cases h
  · rw [hcut.tokenize_eq_error hstops hsource file] at h
    exact ⟨before, c, rest, hsource, hcut, hstops, (Except.error.inj h).symm⟩

/-- The texts that are scanned are those that are cut into lexemes. -/
theorem exists_tokenize_eq_ok_iff {source file : String} :
    (∃ tokens, tokenize source file = .ok tokens) ↔ Cut source.toList [] := by
  constructor
  · rintro ⟨tokens, hscan⟩
    rcases exists_cut source.toList with hcut | ⟨front, c, rest, hsource, hcut, hstops⟩
    · exact hcut
    · rw [hcut.tokenize_eq_error hstops hsource file] at hscan
      cases hscan
  · intro hcut
    obtain ⟨done, hscan⟩ := hcut.scanFrom file 0 []
    rw [List.append_nil] at hscan
    exact ⟨_, hscan⟩

/-! ## More text -/

/-- A text ends inside a comment: two slashes come after text that is scanned, and no line feed
comes after them. -/
def EndsInComment (text : List Char) : Prop :=
  ∃ before body, text = before ++ '/' :: '/' :: body ∧ '\n' ∉ body ∧
    ∃ file tokens, tokenize (String.ofList before) file = .ok tokens

theorem endsInComment_iff {text : List Char} : EndsInComment text ↔
    ∃ before body, text = before ++ '/' :: '/' :: body ∧ '\n' ∉ body ∧ Cut before [] := by
  simp only [EndsInComment, exists_tokenize_eq_ok_iff, String.toList_ofList, exists_const]

/-- A text that ends with a line feed does not end inside a comment. -/
theorem not_endsInComment_concat_lineFeed (text : List Char) :
    ¬ EndsInComment (text ++ ['\n']) := by
  rintro ⟨before, body, heq, hbody, -⟩
  rcases List.eq_nil_or_concat body with rfl | ⟨body, c, rfl⟩
  · have hslash : text ++ ['\n'] = (before ++ ['/']) ++ ['/'] := by simpa using heq
    exact absurd (List.append_inj' hslash rfl).2 (by decide)
  · have hlast : text ++ ['\n'] = (before ++ '/' :: '/' :: body) ++ [c] := by simpa using heq
    have hc : ['\n'] = [c] := (List.append_inj' hlast rfl).2
    simp [← (List.cons.inj hc).1] at hbody

namespace Cut

variable {text : List Char}

/-- A text is cut in the same way before more text, if this starts with a character that no lexeme
but a comment goes on with, and if the text does not end inside a comment. -/
theorem before {c : Char} (h : Cut text []) (hname : Lexeme.isNameChar c = false) (hpoint : c ≠ '.')
    (hblank : Text.isBlank c = false) (hcomment : ¬ EndsInComment text) (rest : List Char) :
    Cut text (c :: rest) := by
  rw [endsInComment_iff] at hcomment
  generalize hnil : [] = following at h
  induction h with
  | nil => exact .nil
  | @cons lexeme text following hstands hcut ih =>
    subst hnil
    rw [List.append_nil] at hstands
    refine .cons (hstands.append_cons hname hpoint (fun _ _ => hblank) ?_ rest) (ih ?_ rfl)
    · rintro rfl body hbody hfree
      exact absurd ⟨[], body, by rw [hbody, List.append_nil, List.nil_append], hfree, .nil⟩ hcomment
    · rintro ⟨before, body, rfl, hfree, hbefore⟩
      refine hcomment ⟨lexeme.text ++ before, body, (List.append_assoc _ _ _).symm, hfree, ?_⟩
      exact .cons (by rw [List.append_nil]; exact hstands.of_append) hbefore

/-- Two slashes after lexemes start a comment, or they belong to one. -/
theorem append_comment {body : List Char} (h : Cut text []) (hbody : '\n' ∉ body) :
    Cut (text ++ '/' :: '/' :: body) [] := by
  induction hlength : text.length using Nat.strongRecOn generalizing text body with
  | ind length ih =>
    by_cases hcomment : EndsInComment text
    · obtain ⟨before, comment, rfl, hfree, hbefore⟩ := endsInComment_iff.mp hcomment
      have hshorter : before.length < length := by
        rw [List.length_append, List.length_cons] at hlength
        omega
      have hlonger : '\n' ∉ comment ++ '/' :: '/' :: body := by
        simp [hfree, hbody]
      have hcut := ih before.length hshorter hbefore hlonger rfl
      simpa using hcut
    · have hlexeme : (Lexeme.skipped ('/' :: '/' :: body)).Stands ([] ++ []) :=
        .comment (fun c hc => ne_of_mem_of_not_mem hc hbody) (by simp)
      have hafter : Cut ('/' :: '/' :: body ++ []) [] := .cons hlexeme .nil
      have hbefore := h.before (c := '/') (by decide) (by decide) (by decide) hcomment
      refine append ?_ (by rwa [List.append_nil] at hafter)
      exact hbefore _

end Cut

/-! ## Errors -/

/-- The error of a scan is about a character that starts no lexeme, and what stands before it is
scanned. Such a character after a text that is scanned, and that does not end inside a comment, is
where the scan of both together fails. A literal is not closed exactly if no quote ends its body,
and a text that ends inside a comment is scanned with whatever goes on with the line. -/
theorem tokenize_error_exact :
    (∀ (source file : String) (error : Error), tokenize source file = .error error →
      ∃ before c rest, source.toList = before ++ c :: rest ∧
        error = ⟨.unrecognisedToken (String.singleton c), ⟨Text.byteSize before, file⟩⟩ ∧
        (∃ tokens, tokenize (String.ofList before) file = .ok tokens) ∧ Stops c rest) ∧
    (∀ (x y file : String) (tokens : List Token) (c : Char) (rest : List Char),
      tokenize x file = .ok tokens → ¬ EndsInComment x.toList → y.toList = c :: rest →
      Stops c rest → tokenize (x ++ y) file =
        .error ⟨.unrecognisedToken (String.singleton c), ⟨Text.byteSize x.toList, file⟩⟩) ∧
    (∀ text : List Char, StringLiteral.IsOpen text ↔
      ¬ ∃ body rest, StringLiteral.IsBody body ∧ text = body ++ '"' :: rest) ∧
    ∀ x y file : String, EndsInComment x.toList → '\n' ∉ y.toList →
      ∃ tokens, tokenize (x ++ y) file = .ok tokens := by
  refine ⟨?_, ?_, fun text => StringLiteral.isOpen_iff, ?_⟩
  · intro source file error hscan
    rcases exists_cut source.toList with hcut | ⟨before, c, rest, hsource, hcut, hstops⟩
    · obtain ⟨tokens, hok⟩ := exists_tokenize_eq_ok_iff.mpr hcut
      rw [hok] at hscan
      cases hscan
    · rw [hcut.tokenize_eq_error hstops hsource file] at hscan
      obtain rfl := Except.error.inj hscan
      refine ⟨before, c, rest, hsource, rfl, ?_, hstops⟩
      rw [exists_tokenize_eq_ok_iff, String.toList_ofList]
      exact hcut.alone
  · intro x y file tokens c rest hscan hcomment hy hstops
    have hx : Cut x.toList [] := exists_tokenize_eq_ok_iff.mp ⟨tokens, hscan⟩
    have hpoint : c ≠ '.' := by
      rintro rfl
      exact hstops.notMem_punctuation (by decide)
    have hcut := hx.before hstops.isNameChar hpoint hstops.isBlank hcomment rest
    refine hcut.tokenize_eq_error hstops ?_ file
    rw [String.toList_append, hy]
  · intro x y file hcomment hline
    obtain ⟨before, body, hx, hfree, hcut⟩ := endsInComment_iff.mp hcomment
    rw [exists_tokenize_eq_ok_iff, String.toList_append, hx]
    have hbody : '\n' ∉ body ++ y.toList := by
      simp [hfree, hline]
    simpa using hcut.append_comment hbody

/-- A slash alone after a string with a letter of two bytes; a quote that is not closed, after a
line that ends with a comment; and the same comment when its line goes on. -/
theorem tokenize_error_exact_quote :
    (∃ before c rest, "x \"é\" /".toList = before ++ c :: rest ∧
      (⟨.unrecognisedToken "/", ⟨7, "f"⟩⟩ : Error) =
        ⟨.unrecognisedToken (String.singleton c), ⟨Text.byteSize before, "f"⟩⟩ ∧
      (∃ tokens, tokenize (String.ofList before) "f" = .ok tokens) ∧ Stops c rest) ∧
    (¬ EndsInComment "a // \"\n".toList ∧ Stops '"' ['b', '\\', '"'] ∧
      tokenize ("a // \"\n" ++ "\"b\\\"") "f" = .error
        ⟨.unrecognisedToken (String.singleton '"'), ⟨Text.byteSize "a // \"\n".toList, "f"⟩⟩) ∧
    EndsInComment "a // \"".toList ∧
      ∃ tokens, tokenize ("a // \"" ++ " #") "f" = .ok tokens := by
  have hline : ¬ EndsInComment "a // \"\n".toList := by
    have htext : "a // \"\n".toList = ['a', ' ', '/', '/', ' ', '"'] ++ ['\n'] := by decide +kernel
    rw [htext]
    exact not_endsInComment_concat_lineFeed _
  have hopen : StringLiteral.IsOpen ['b', '\\', '"'] :=
    ⟨_, [], .plain (by decide) (by decide) (.escape (by decide) .nil), rfl, .inl rfl⟩
  have hstops : Stops '"' ['b', '\\', '"'] :=
    ⟨by decide, by decide, by decide, by decide, by decide, by decide, fun _ => hopen⟩
  have hcomment : EndsInComment "a // \"".toList :=
    ⟨['a', ' '], [' ', '"'], by decide +kernel, by decide, "f",
      [⟨⟨.name, "a"⟩, .within "f" 0 1⟩, Token.endAt ⟨2, "f"⟩], by decide +kernel⟩
  have hscan : tokenize "a // \"\n" "f" =
      .ok [⟨⟨.name, "a"⟩, .within "f" 0 1⟩, Token.endAt ⟨7, "f"⟩] := by decide +kernel
  have hquote : "\"b\\\"".toList = '"' :: ['b', '\\', '"'] := by decide +kernel
  exact ⟨tokenize_error_exact.1 "x \"é\" /" "f" _ (by decide +kernel),
    ⟨hline, hstops, tokenize_error_exact.2.1 _ _ "f" _ _ _ hscan hline hquote hstops⟩, hcomment,
    tokenize_error_exact.2.2.2 _ _ "f" hcomment (by decide +kernel)⟩

end FrappeSyntax
