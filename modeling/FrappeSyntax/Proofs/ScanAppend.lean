import FrappeSyntax.Proofs.ScanError

/-!
# Scanning one text after another

A line feed keeps two texts apart: the words before it are scanned as if the text ended there, and
those after it as if the text started there, but for their places in the source.

* `Lexeme.Stands.scanFrom_append_lineFeed`: a lexeme does not go over a line feed that is put after
  the text, unless it is blanks, which are skipped all the same.
* `scanFrom_append_lineFeed`, `scanFrom_later`: the text before the line feed, and the one after it.
* `tokenize_append_lineFeed`: the tokens of both texts together.
* `tokenize_joined`: whatever the scan of the second text gives, the scan of both texts gives it
  further on.
-/

namespace FrappeSyntax

/-! ## Places further on -/

/-- The place that lies a number of bytes further on. -/
def Position.later (count : Nat) (position : Position) : Position :=
  { position with offset := count + position.offset }

/-- The token that stands a number of bytes further on. -/
def Token.later (count : Nat) (token : Token) : Token :=
  { token with span := ⟨token.span.start.later count, token.span.stop.later count⟩ }

/-- The error that is about a place a number of bytes further on. -/
def Error.later (count : Nat) (error : Error) : Error :=
  { error with position := error.position.later count }

theorem Lexeme.tokens_later (lexeme : Lexeme) (file : String) (count offset : Nat) :
    lexeme.tokens file (count + offset) = (lexeme.tokens file offset).map (Token.later count) := by
  unfold tokens
  cases lexeme.word with
  | none => rfl
  | some word =>
    rw [Nat.add_assoc]
    rfl

/-- What a scan gives for a text that starts a number of bytes further on, after the tokens
`front`. -/
def scannedLater (front : List Token) (count : Nat) :
    Except Error (List Token) → Except Error (List Token)
  | .ok tokens => .ok (front ++ tokens.map (Token.later count))
  | .error error => .error (error.later count)

section

variable {file : String} {offset covered count : Nat} {done early tokens : List Token}
  {cs : List Char}

/-- The tokens of a text that starts further on stand further on, and those before it stay. So does
the error of a text that is not scanned. -/
theorem scanFrom_later :
    scanFrom file (count + offset) covered (done.map (Token.later count) ++ early) cs =
      scannedLater early.reverse count (scanFrom file offset covered done cs) := by
  induction cs generalizing offset covered done with
  | nil =>
    rw [scanFrom, scanFrom, scannedLater, List.map_reverse, ← List.reverse_append]
    rfl
  | cons c cs ih =>
    cases covered with
    | succ covered =>
      rw [scanFrom, scanFrom, Nat.add_assoc]
      exact ih
    | zero =>
      rw [scanFrom, scanFrom]
      cases Lexeme.first? (c :: cs) with
      | none => rfl
      | some lexeme =>
        dsimp only
        rw [← ih, List.map_append, ← Lexeme.tokens_later, List.append_assoc, Nat.add_assoc]

/-! ## Scanning up to a line feed -/

/-- A blank can be skipped alone. -/
theorem scanFrom_blank_cons {c : Char} (h : Text.isBlank c = true) (cs : List Char) :
    scanFrom file offset 0 done (c :: cs) = scanFrom file (offset + c.utf8Size) 0 done cs := by
  obtain ⟨blanks, rest, rfl, hblanks, hrest⟩ : ∃ blanks rest, cs = blanks ++ rest ∧
      (∀ d ∈ blanks, Text.isBlank d = true) ∧ ∀ d ∈ rest.head?, Text.isBlank d = false :=
    ⟨_, _, List.takeWhile_append_dropWhile.symm, List.all_eq_true.mp List.all_takeWhile,
      head?_dropWhile_eq_false⟩
  rw [← List.cons_append, scanFrom_blanks (List.cons_ne_nil c blanks)
    (List.forall_mem_cons.mpr ⟨h, hblanks⟩) hrest, Text.byteSize_cons, ← Nat.add_assoc]
  cases blanks with
  | nil => rfl
  | cons d ds => rw [scanFrom_blanks (List.cons_ne_nil d ds) hblanks hrest]

/-- Blanks can be skipped without those that follow them. -/
theorem scanFrom_blanks_append {blanks : List Char} (h : ∀ c ∈ blanks, Text.isBlank c = true)
    (cs : List Char) :
    scanFrom file offset 0 done (blanks ++ cs) =
      scanFrom file (offset + Text.byteSize blanks) 0 done cs := by
  induction blanks generalizing offset with
  | nil => rfl
  | cons c blanks ih =>
    rw [List.forall_mem_cons] at h
    rw [List.cons_append, scanFrom_blank_cons h.1, ih h.2, Text.byteSize_cons, Nat.add_assoc]

/-- A lexeme is passed over before a line feed as it is at the end of the text. -/
theorem Lexeme.Stands.scanFrom_append_lineFeed {lexeme : Lexeme} {after : List Char}
    (h : lexeme.Stands after) (rest : List Char) :
    scanFrom file offset 0 done (lexeme.text ++ (after ++ '\n' :: rest)) =
      scanFrom file (offset + Text.byteSize lexeme.text) 0 (lexeme.tokens file offset ++ done)
        (after ++ '\n' :: rest) := by
  by_cases hblanks : ∀ c ∈ lexeme.text, Text.isBlank c = true
  · -- the line feed may be one blank more
    rw [scanFrom_blanks_append hblanks, Lexeme.tokens, h.word_eq_none hblanks, List.nil_append]
  · have hjoint : lexeme.Stands (after ++ '\n' :: rest) :=
      h.append_cons (by decide) (by decide) (fun _ hall => absurd hall hblanks)
        (fun _ _ _ _ => rfl) rest
    exact scanFrom_lexeme h.text_ne_nil hjoint.first?

/-- What comes after a line feed is scanned where the text before it ends, with the tokens of this
text but for the end token. -/
theorem scanFrom_append_lineFeed (h : scanFrom file offset 0 done cs = .ok tokens)
    (rest : List Char) :
    ∃ front, tokens = front ++ [Token.endAt ⟨offset + Text.byteSize cs, file⟩] ∧
      scanFrom file offset 0 done (cs ++ '\n' :: rest) =
        scanFrom file (offset + Text.byteSize cs + 1) 0 front.reverse rest := by
  induction cs using Lexeme.lexemeInduction generalizing offset done with
  | nil =>
    obtain rfl := Except.ok.inj h
    refine ⟨done.reverse, List.reverse_cons, ?_⟩
    rw [List.nil_append, scanFrom_blank_cons (by decide), List.reverse_reverse]
    rfl
  | stuck c cs hnone =>
    rw [scanFrom, hnone] at h
    cases h
  | lexeme lexeme after hstands ih =>
    rw [scanFrom_lexeme hstands.text_ne_nil hstands.first?] at h
    rw [List.append_assoc, hstands.scanFrom_append_lineFeed, Text.byteSize_append, ← Nat.add_assoc]
    exact ih h

end

/-! ## Two texts -/

/-- After a text that is scanned and a line feed, another text is scanned as it is alone, but
further on. -/
theorem exists_tokenize_eq_scannedLater {a file : String} {tokens : List Token}
    (ha : tokenize a file = .ok tokens) :
    ∃ front, tokens = front ++ [Token.endAt ⟨Text.byteSize a.toList, file⟩] ∧
      ∀ b : String, tokenize (a ++ "\n" ++ b) file =
        scannedLater front (Text.byteSize a.toList + 1) (tokenize b file) := by
  obtain ⟨front, htokens, -⟩ := scanFrom_append_lineFeed ha []
  rw [Nat.zero_add] at htokens
  refine ⟨front, htokens, fun b => ?_⟩
  obtain ⟨front', htokens', hscan⟩ := scanFrom_append_lineFeed ha b.toList
  obtain rfl : front = front' := (List.append_inj' (htokens.symm.trans htokens') rfl).1
  have htext : (a ++ "\n" ++ b).toList = a.toList ++ '\n' :: b.toList := by
    rw [String.toList_append, String.toList_append, List.append_assoc]
    rfl
  have hlater : scanFrom file (Text.byteSize a.toList + 1 + 0) 0
      ([].map (Token.later (Text.byteSize a.toList + 1)) ++ front.reverse) b.toList =
        scannedLater front.reverse.reverse (Text.byteSize a.toList + 1) (tokenize b file) :=
    scanFrom_later
  rw [List.reverse_reverse] at hlater
  rw [tokenize, htext, hscan, Nat.zero_add]
  exact hlater

/-- The tokens of two texts with a line feed between them: those of the first, but for the end
token, and those of the second, so much further on. -/
theorem tokenize_append_lineFeed {a b file : String} {tokens tokens' : List Token}
    (ha : tokenize a file = .ok tokens) (hb : tokenize b file = .ok tokens') :
    ∃ front, tokens = front ++ [Token.endAt ⟨Text.byteSize a.toList, file⟩] ∧
      tokenize (a ++ "\n" ++ b) file =
        .ok (front ++ tokens'.map (Token.later (Text.byteSize a.toList + 1))) := by
  obtain ⟨front, htokens, hscan⟩ := exists_tokenize_eq_scannedLater ha
  exact ⟨front, htokens, by rw [hscan, hb, scannedLater]⟩

/-- Where a text is scanned, a line feed and another text can follow it. If this one is scanned too,
the tokens are those of the first, but for its end, and then those of the second with its end, as
much further on as it stands. If it is not, the error is about the same character, as much further
on. -/
theorem tokenize_joined {a file : String} {tokens : List Token}
    (ha : tokenize a file = .ok tokens) (b : String) :
    ∃ front, tokens = front ++ [Token.endAt ⟨Text.byteSize a.toList, file⟩] ∧
      (∀ tokens', tokenize b file = .ok tokens' → tokenize (a ++ "\n" ++ b) file =
        .ok (front ++ tokens'.map (Token.later (Text.byteSize a.toList + 1)))) ∧
      ∀ error, tokenize b file = .error error → ∃ c offset,
        error = ⟨.unrecognisedToken (String.singleton c), ⟨offset, file⟩⟩ ∧
          tokenize (a ++ "\n" ++ b) file = .error ⟨.unrecognisedToken (String.singleton c),
            ⟨Text.byteSize a.toList + 1 + offset, file⟩⟩ := by
  obtain ⟨front, htokens, hscan⟩ := exists_tokenize_eq_scannedLater ha
  refine ⟨front, htokens, fun tokens' hb => ?_, fun error hb => ?_⟩
  · rw [hscan, hb, scannedLater]
  · obtain ⟨before, c, rest, -, -, -, rfl⟩ := exists_of_tokenize_eq_error hb
    refine ⟨c, Text.byteSize before, rfl, ?_⟩
    rw [hscan, hb]
    rfl

/-- Blanks at the joint, and a comment before it that would take the text after it, do not matter to
a string of two-byte characters, nor to a quote that is not closed. -/
theorem tokenize_joined_comment :
    tokenize "x // \" " "f" = .ok [⟨⟨.name, "x"⟩, .within "f" 0 1⟩, Token.endAt ⟨7, "f"⟩] ∧
    tokenize ("x // \" " ++ "\n" ++ " \"é\"") "f" =
      .ok [⟨⟨.name, "x"⟩, .within "f" 0 1⟩, ⟨⟨.string, "é"⟩, .within "f" 9 13⟩,
        Token.endAt ⟨13, "f"⟩] ∧
    tokenize ("x // \" " ++ "\n" ++ "y\"é") "f" =
      .error ⟨.unrecognisedToken "\"", ⟨9, "f"⟩⟩ := by
  have ha : tokenize "x // \" " "f" =
      .ok [⟨⟨.name, "x"⟩, .within "f" 0 1⟩, Token.endAt ⟨7, "f"⟩] := by decide +kernel
  refine ⟨ha, ?_, ?_⟩
  · obtain ⟨front, hfront, hjoined, -⟩ := tokenize_joined ha " \"é\""
    obtain rfl : [⟨⟨.name, "x"⟩, .within "f" 0 1⟩] = front := (List.append_inj' hfront rfl).1
    exact hjoined [⟨⟨.string, "é"⟩, .within "f" 1 5⟩, Token.endAt ⟨5, "f"⟩] (by decide +kernel)
  · obtain ⟨front, -, -, hjoined⟩ := tokenize_joined ha "y\"é"
    obtain ⟨c, offset, herror, hscan⟩ :=
      hjoined ⟨.unrecognisedToken "\"", ⟨1, "f"⟩⟩ (by decide +kernel)
    obtain ⟨hc, rfl⟩ : "\"" = String.singleton c ∧ 1 = offset := by simpa using herror
    rw [← hc] at hscan
    exact hscan

end FrappeSyntax
