import FrappeSyntax.Proofs.Lexeme

/-!
# The tokens tile the source

The tokens of a source stand one after the other in it. Each covers a lexeme that could not be
longer, and between them are blanks and comments only.

* `Text.IsSlice`: a part of a text between two bytes, with what follows.
* `Tiles`: tokens tile a source from a byte on.
* `tokenize_tiles`: the tokens that a source is cut into tile it.
-/

namespace FrappeSyntax

/-! ## Slices -/

namespace Text

/-- The text between two bytes, neither of which is inside a character, and what follows it. -/
structure IsSlice (text : List Char) (start stop : Nat) (slice following : List Char) : Prop where
  divides : ∃ before, text = before ++ (slice ++ following) ∧ byteSize before = start
  stop_eq : stop = start + byteSize slice

theorem byteSize_pos {text : List Char} (h : text ≠ []) : 0 < byteSize text := by
  cases text with
  | nil => exact absurd rfl h
  | cons c cs => exact Nat.add_pos_left c.utf8Size_pos _

end Text

/-! ## Tiles -/

/-- The tokens tile a source from the byte `last` on. -/
structure Tiles (source : List Char) (file : String) (last : Nat) (tokens : List Token) : Prop where
  /-- Every token is a stretch of the source. -/
  inside : ∀ token ∈ tokens, token.span.start.file = file ∧ token.span.stop.file = file ∧
    ∃ text following,
      Text.IsSlice source token.span.start.offset token.span.stop.offset text following
  /-- The last token is the end of the source, and it is the only one that is empty. -/
  ended : ∃ words, tokens = words ++ [Token.endAt ⟨Text.byteSize source, file⟩] ∧
    ∀ token ∈ words, token.kind ≠ .eof ∧ token.span.start.offset < token.span.stop.offset
  /-- A token starts where those before it have stopped, or later. -/
  ordered : tokens.Pairwise fun one other => one.span.stop.offset ≤ other.span.start.offset
  after : ∀ token ∈ tokens, last ≤ token.span.start.offset
  /-- Between two tokens, and before the first, are blanks and comments. -/
  gaps : ∀ ends ∈ (last :: tokens.map (·.span.stop.offset)).zip (tokens.map (·.span.start.offset)),
    ∃ gap following, Text.IsSlice source ends.1 ends.2 gap following ∧ Gap following gap
  /-- The text of a token is the stretch that it covers, a lexeme that could not be longer. -/
  lexemes : ∀ token ∈ tokens, token.kind ≠ .string → token.kind ≠ .eof → ∃ text following,
    Text.IsSlice source token.span.start.offset token.span.stop.offset text following ∧
      token.text = String.ofList text ∧ Lexeme.Maximal token.kind text following

section

variable {source before gap : List Char} {file : String} {last : Nat}

/-- The end of the source is a tile after the last gap. -/
theorem Tiles.nil (hgap : Gap [] gap) (hsource : source = before ++ (gap ++ []))
    (hlast : Text.byteSize before = last) :
    Tiles source file last [Token.endAt ⟨last + Text.byteSize gap, file⟩] := by
  have hend : last + Text.byteSize gap = Text.byteSize source := by
    rw [hsource, Text.byteSize_append, List.append_nil, hlast]
  refine ⟨?_, ⟨[], ?_, by simp⟩, List.pairwise_singleton _ _, ?_, ?_, ?_⟩
  · intro token htoken
    obtain rfl := List.mem_singleton.mp htoken
    exact ⟨rfl, rfl, [], [], ⟨source, by simp, hend.symm⟩, rfl⟩
  · rw [hend]
    rfl
  · intro token htoken
    obtain rfl := List.mem_singleton.mp htoken
    exact Nat.le_add_right _ _
  · intro ends hends
    obtain rfl := List.mem_singleton.mp hends
    exact ⟨gap, [], ⟨⟨before, hsource, hlast⟩, rfl⟩, hgap⟩
  · intro token htoken _ heof
    obtain rfl := List.mem_singleton.mp htoken
    exact absurd rfl heof

/-- A word is a tile after a gap, before the tiles that start where it stops. -/
theorem Tiles.cons {text rest : List Char} {word : Word} {tokens : List Token}
    (hgap : Gap (text ++ rest) gap) (hsource : source = before ++ (gap ++ (text ++ rest)))
    (hlast : Text.byteSize before = last) (hne : text ≠ []) (hkind : word.kind ≠ .eof)
    (hword : word.kind ≠ .string →
      word.text = String.ofList text ∧ Lexeme.Maximal word.kind text rest)
    (h : Tiles source file (last + Text.byteSize gap + Text.byteSize text) tokens) :
    Tiles source file last (⟨word, Span.within file (last + Text.byteSize gap)
      (last + Text.byteSize gap + Text.byteSize text)⟩ :: tokens) := by
  have hslice : Text.IsSlice source (last + Text.byteSize gap)
      (last + Text.byteSize gap + Text.byteSize text) text rest := by
    refine ⟨⟨before ++ gap, ?_, ?_⟩, rfl⟩
    · rw [hsource, List.append_assoc]
    · rw [Text.byteSize_append, hlast]
  obtain ⟨words, hwords, hall⟩ := h.ended
  refine ⟨List.forall_mem_cons.mpr ⟨⟨rfl, rfl, text, rest, hslice⟩, h.inside⟩,
    ⟨_ :: words, by rw [hwords, List.cons_append], List.forall_mem_cons.mpr ⟨⟨hkind, ?_⟩, hall⟩⟩,
    List.pairwise_cons.mpr ⟨h.after, h.ordered⟩,
    List.forall_mem_cons.mpr ⟨Nat.le_add_right _ _, ?_⟩,
    List.forall_mem_cons.mpr ⟨⟨gap, _, ⟨⟨before, hsource, hlast⟩, rfl⟩, hgap⟩, h.gaps⟩,
    List.forall_mem_cons.mpr ⟨?_, h.lexemes⟩⟩
  · exact Nat.lt_add_of_pos_right (Text.byteSize_pos hne)
  · intro token htoken
    have hstart := h.after token htoken
    omega
  · intro hstring _
    exact ⟨text, rest, hslice, hword hstring⟩

end

/-! ## Scanning -/

/-- The tokens of the rest of a source, which starts at a byte offset, lexeme by lexeme. -/
inductive Scans (file : String) : Nat → List Char → List Token → Prop
  | nil {offset : Nat} : Scans file offset [] [Token.endAt ⟨offset, file⟩]
  | cons {offset : Nat} {lexeme : Lexeme} {rest : List Char} {tokens : List Token} :
    lexeme.Stands rest → Scans file (offset + Text.byteSize lexeme.text) rest tokens →
    Scans file offset (lexeme.text ++ rest) (lexeme.tokens file offset ++ tokens)

/-- The tokens that scanning adds are those of the lexemes ahead. -/
theorem scans_of_scanFrom {file : String} {offset : Nat} {done tokens : List Token}
    {cs : List Char} (h : scanFrom file offset 0 done cs = .ok tokens) :
    ∃ added, tokens = done.reverse ++ added ∧ Scans file offset cs added := by
  induction cs using Lexeme.lexemeInduction generalizing offset done with
  | nil =>
    obtain rfl := Except.ok.inj h
    exact ⟨_, List.reverse_cons, .nil⟩
  | stuck c cs hnone =>
    rw [scanFrom, hnone] at h
    cases h
  | lexeme lexeme rest hstands ih =>
    rw [scanFrom_lexeme hstands.text_ne_nil hstands.first?] at h
    obtain ⟨added, rfl, hrest⟩ := ih h
    refine ⟨lexeme.tokens file offset ++ added, ?_, .cons hstands hrest⟩
    have hreverse : (lexeme.tokens file offset).reverse = lexeme.tokens file offset := by
      unfold Lexeme.tokens
      split <;> rfl
    rw [List.reverse_append, hreverse, List.append_assoc]

/-- The gap before the rest of a source is open until the next word comes. -/
theorem Scans.tiles {source before gap cs : List Char} {file : String} {last offset : Nat}
    {tokens : List Token} (h : Scans file offset cs tokens) (hgap : Gap cs gap)
    (hsource : source = before ++ (gap ++ cs)) (hlast : Text.byteSize before = last)
    (hoffset : offset = last + Text.byteSize gap) : Tiles source file last tokens := by
  induction h generalizing before gap last with
  | nil =>
    subst hoffset
    exact .nil hgap hsource hlast
  | @cons offset lexeme rest tokens hstands _ ih =>
    subst hoffset
    rcases hstands.gap_or_word with ⟨hnone, hskipped⟩ | ⟨word, hsome, hkind, hword⟩
    · have htokens : lexeme.tokens file (last + Text.byteSize gap) = [] := by
        rw [Lexeme.tokens, hnone]
      rw [htokens, List.nil_append]
      refine ih (hgap.append hskipped) ?_ hlast ?_
      · rw [hsource, List.append_assoc]
      · rw [Text.byteSize_append, Nat.add_assoc]
    · rw [Lexeme.tokens, hsome, List.singleton_append]
      have hrest : source = (before ++ (gap ++ lexeme.text)) ++ ([] ++ rest) := by
        rw [hsource]
        simp
      refine .cons hgap hsource hlast hstands.text_ne_nil hkind hword (ih .nil hrest ?_ rfl)
      rw [Text.byteSize_append, Text.byteSize_append, hlast, Nat.add_assoc]

/-- Only the last token of a source ends it. -/
theorem exists_append_eof_of_tokenize {source file : String} {tokens : List Token}
    (h : tokenize source file = .ok tokens) :
    ∃ front final, tokens = front ++ [final] ∧ final.kind = .eof ∧
      ∀ token ∈ front, token.kind ≠ .eof := by
  obtain ⟨added, rfl, hscans⟩ := scans_of_scanFrom h
  have hsource : source.toList = [] ++ ([] ++ source.toList) := rfl
  obtain ⟨words, hwords, hkind⟩ := (hscans.tiles .nil hsource rfl rfl).ended
  exact ⟨words, _, hwords, rfl, fun token hmem => (hkind token hmem).1⟩

/-- The tokens that a source is cut into tile it. -/
theorem tokenize_tiles {source file : String} {tokens : List Token}
    (h : tokenize source file = .ok tokens) : Tiles source.toList file 0 tokens := by
  obtain ⟨added, rfl, hscans⟩ := scans_of_scanFrom h
  have hsource : source.toList = [] ++ ([] ++ source.toList) := rfl
  exact hscans.tiles .nil hsource rfl rfl

/-- A comment and a string of characters that have two bytes, and a number before a point. -/
theorem tokenize_tiles_comment_and_number :
    tokenize "If // é\n\"ü\" if 1.5.x" "f" = .ok
      [⟨⟨.className, "If"⟩, .within "f" 0 2⟩, ⟨⟨.string, "ü"⟩, .within "f" 9 13⟩,
        ⟨⟨.ifWord, "if"⟩, .within "f" 14 16⟩, ⟨⟨.number, "1.5"⟩, .within "f" 17 20⟩,
        ⟨⟨.single, "."⟩, .within "f" 20 21⟩, ⟨⟨.name, "x"⟩, .within "f" 21 22⟩,
        Token.endAt ⟨22, "f"⟩] ∧
    Tiles "If // é\n\"ü\" if 1.5.x".toList "f" 0
      [⟨⟨.className, "If"⟩, .within "f" 0 2⟩, ⟨⟨.string, "ü"⟩, .within "f" 9 13⟩,
        ⟨⟨.ifWord, "if"⟩, .within "f" 14 16⟩, ⟨⟨.number, "1.5"⟩, .within "f" 17 20⟩,
        ⟨⟨.single, "."⟩, .within "f" 20 21⟩, ⟨⟨.name, "x"⟩, .within "f" 21 22⟩,
        Token.endAt ⟨22, "f"⟩] :=
  ⟨by decide +kernel, tokenize_tiles (by decide +kernel)⟩

end FrappeSyntax
