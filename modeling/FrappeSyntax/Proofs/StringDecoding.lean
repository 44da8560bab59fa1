import FrappeSyntax.Proofs.Tiling

/-!
# Decoding in step with the literal

Two readers go over the text of a string literal: one finds the quote that closes it, the other
turns the text between the quotes into what it stands for. Both see the same units. The decoder
works in turns, with a look at the character after a backslash, and each backslash that it comes
upon is the first character of a unit.

* `StringLiteral.Piece`: a unit, with its text and its value.
* `StringLiteral.texts_append_quote_inj`: units and the quote after them can be told from the text.
* `StringLiteral.turn`, `StringLiteral.afterTurns`: the decoder, turn by turn.
* `StringLiteral.InStep.turn`, `StringLiteral.inStep_afterTurns`: the decoder stays in step.
* `StringLiteral.UnitsOf`: what the two readers make of the units of a literal.
* `tokenize_string_decoded`: the string tokens of a source.
-/

namespace FrappeSyntax

namespace StringLiteral

/-! ## Units -/

/-- A unit of the text between the quotes of a literal. -/
inductive Piece
  /-- A character that is no quote and no backslash. -/
  | plain (c : Char) (hquote : c ≠ '"') (hplain : c ≠ '\\')
  /-- A backslash and the character after it, which is no line feed. -/
  | escape (c : Char) (h : c ≠ '\n')

namespace Piece

/-- The characters that a unit is written with. -/
def text : Piece → List Char
  | plain c _ _ => [c]
  | escape c _ => ['\\', c]

/-- The characters that a unit stands for. -/
def value : Piece → List Char
  | plain c _ _ => [c]
  | escape 'n' _ => ['\n']
  | escape 't' _ => ['\t']
  | escape 'r' _ => ['\r']
  | escape '\\' _ => ['\\']
  | escape '"' _ => ['"']
  | escape c _ => ['\\', c]

theorem value_escape_of_eq_some {c meant : Char} (h : c ≠ '\n') (hmeant : escaped? c = some meant) :
    (escape c h).value = [meant] := by
  unfold escaped? at hmeant
  split at hmeant <;> cases hmeant <;> rfl

theorem value_escape_of_eq_none {c : Char} (h : c ≠ '\n') (hnone : escaped? c = none) :
    (escape c h).value = ['\\', c] := by
  unfold escaped? at hnone
  split at hnone
  case h_6 => rw [value] <;> assumption
  all_goals cases hnone

end Piece

/-- A body is a sequence of units. -/
theorem IsBody.exists_pieces {body : List Char} (h : IsBody body) :
    ∃ pieces : List Piece, body = pieces.flatMap Piece.text := by
  induction h with
  | nil => exact ⟨[], rfl⟩
  | plain hquote hplain _ ih =>
    obtain ⟨pieces, rfl⟩ := ih
    exact ⟨.plain _ hquote hplain :: pieces, rfl⟩
  | escape hc _ ih =>
    obtain ⟨pieces, rfl⟩ := ih
    exact ⟨.escape _ hc :: pieces, rfl⟩

/-- A text is cut into units up to a quote in one way at most. -/
theorem texts_append_quote_inj {pieces pieces' : List Piece} {rest rest' : List Char}
    (h : pieces.flatMap Piece.text ++ '"' :: rest = pieces'.flatMap Piece.text ++ '"' :: rest') :
    pieces = pieces' ∧ rest = rest' := by
  induction pieces generalizing pieces' with
  | nil =>
    cases pieces' with
    | nil => exact ⟨rfl, (List.cons.inj h).2⟩
    | cons piece' pieces' =>
      cases piece' with
      | plain c hquote => exact absurd (List.cons.inj h).1.symm hquote
      | escape c => exact absurd (List.cons.inj h).1 (by decide)
  | cons piece pieces ih =>
    cases piece with
    | plain c hquote hplain =>
      cases pieces' with
      | nil => exact absurd (List.cons.inj h).1 hquote
      | cons piece' pieces' =>
        cases piece' with
        | plain c' hquote' hplain' =>
          obtain ⟨rfl, hmore⟩ := List.cons.inj h
          obtain ⟨rfl, hrest⟩ := ih hmore
          exact ⟨rfl, hrest⟩
        | escape c' => exact absurd (List.cons.inj h).1 hplain
    | escape c hc =>
      cases pieces' with
      | nil => exact absurd (List.cons.inj h).1 (by decide)
      | cons piece' pieces' =>
        cases piece' with
        | plain c' hquote' hplain' => exact absurd (List.cons.inj h).1.symm hplain'
        | escape c' hc' =>
          obtain ⟨rfl, hmore⟩ := List.cons.inj (List.cons.inj h).2
          obtain ⟨rfl, hrest⟩ := ih hmore
          exact ⟨rfl, hrest⟩

/-- The units of a text can be told from it. -/
theorem texts_inj {pieces pieces' : List Piece}
    (h : pieces.flatMap Piece.text = pieces'.flatMap Piece.text) : pieces = pieces' :=
  (texts_append_quote_inj (congrArg (· ++ ['"']) h)).1

/-! ## Turns of the decoder -/

theorem ne_backslash_of_escaped?_eq_none {c : Char} (h : escaped? c = none) : c ≠ '\\' := by
  rintro rfl
  cases h

theorem decode_cons {c : Char} (h : c ≠ '\\') (cs : List Char) :
    decode (c :: cs) = c :: decode cs := by
  rw [decode]
  · exact fun hc => absurd hc h
  · exact fun _ _ hc => absurd hc h

/-- One turn of the decoder: what it gives, and what is ahead after it. At a backslash it looks at
the next character, and takes this one too if both together stand for a character. -/
def turn : List Char → List Char × List Char
  | [] => ([], [])
  | '\\' :: c :: cs =>
    match escaped? c with
    | some meant => ([meant], cs)
    | none => (['\\'], c :: cs)
  | c :: cs => ([c], cs)

theorem turn_cons {c : Char} (h : c ≠ '\\') (cs : List Char) : turn (c :: cs) = ([c], cs) := by
  rw [turn]
  exact fun _ _ hc => absurd hc h

theorem turn_of_eq_some {c meant : Char} (h : escaped? c = some meant) (cs : List Char) :
    turn ('\\' :: c :: cs) = ([meant], cs) := by
  rw [turn, h]

theorem turn_of_eq_none {c : Char} (h : escaped? c = none) (cs : List Char) :
    turn ('\\' :: c :: cs) = (['\\'], c :: cs) := by
  rw [turn, h]

/-- What the decoder gives is what one turn gives, and what it gives for the text after it. -/
theorem decode_eq_turn (ahead : List Char) :
    decode ahead = (turn ahead).1 ++ decode (turn ahead).2 := by
  cases ahead with
  | nil => rfl
  | cons c cs =>
    by_cases hc : c = '\\'
    · subst hc
      cases cs with
      | nil => rfl
      | cons d ds =>
        cases hd : escaped? d with
        | some meant =>
          rw [turn_of_eq_some hd, decode, hd]
          rfl
        | none =>
          rw [turn_of_eq_none hd, decode, hd, decode_cons (ne_backslash_of_escaped?_eq_none hd)]
          rfl
    · rw [turn_cons hc, decode_cons hc]
      rfl

/-- A turn takes a character at least. -/
theorem length_turn_lt {ahead : List Char} (h : ahead ≠ []) :
    (turn ahead).2.length < ahead.length := by
  unfold turn
  split
  · exact absurd rfl h
  · split
    · exact Nat.lt_add_of_pos_right (by decide : 0 < 2)
    · exact Nat.lt_succ_self _
  · exact Nat.lt_succ_self _

/-- What the decoder has given after some turns, and what is ahead of it then. -/
def afterTurns (body : List Char) : (turns : Nat) → List Char × List Char
  | 0 => ([], body)
  | turns + 1 =>
    ((afterTurns body turns).1 ++ (turn (afterTurns body turns).2).1,
      (turn (afterTurns body turns).2).2)

/-- At every turn, what was given and what is still to be given make up the whole. -/
theorem decode_eq_afterTurns (body : List Char) (turns : Nat) :
    decode body = (afterTurns body turns).1 ++ decode (afterTurns body turns).2 := by
  induction turns with
  | zero => rfl
  | succ turns ih =>
    rw [ih, decode_eq_turn (afterTurns body turns).2, ← List.append_assoc]
    rfl

/-- After as many turns as there are characters nothing is ahead. -/
theorem afterTurns_length (body : List Char) :
    afterTurns body body.length = (decode body, []) := by
  have hahead : ∀ turns, (afterTurns body turns).2.length ≤ body.length - turns := by
    intro turns
    induction turns with
    | zero => exact le_rfl
    | succ turns ih =>
      by_cases hnil : (afterTurns body turns).2 = []
      · simp [afterTurns, hnil, turn]
      · have hless := length_turn_lt hnil
        show (turn (afterTurns body turns).2).2.length ≤ _
        omega
  have hnil : (afterTurns body body.length).2 = [] := by
    have hlength := hahead body.length
    rw [Nat.sub_self] at hlength
    exact List.eq_nil_of_length_eq_zero (Nat.le_zero.mp hlength)
  have hgiven := decode_eq_afterTurns body body.length
  rw [hnil] at hgiven
  exact Prod.ext (by simpa [decode] using hgiven.symm) hnil

/-! ## In step -/

/-- The decoder is in step with the units of a text: it stands between two of them, or behind the
backslash of a unit that stands for itself. -/
inductive InStep (pieces : List Piece) : (state : List Char × List Char) → Prop
  | between {front back : List Piece} : pieces = front ++ back →
    InStep pieces (front.flatMap Piece.value, back.flatMap Piece.text)
  | within {front back : List Piece} {c : Char} {h : c ≠ '\n'} :
    pieces = front ++ .escape c h :: back → escaped? c = none →
    InStep pieces (front.flatMap Piece.value ++ ['\\'], c :: back.flatMap Piece.text)

/-- The units before the last of the front, and this one, are the front. -/
theorem flatMap_value_concat (front : List Piece) (piece : Piece) :
    (front ++ [piece]).flatMap Piece.value = front.flatMap Piece.value ++ piece.value := by
  simp

/-- A turn keeps the decoder in step. -/
theorem InStep.turn {pieces : List Piece} {given ahead : List Char}
    (h : InStep pieces (given, ahead)) :
    InStep pieces (given ++ (StringLiteral.turn ahead).1, (StringLiteral.turn ahead).2) := by
  cases h with
  | @between front back hpieces =>
    cases back with
    | nil =>
      rw [List.flatMap_nil, StringLiteral.turn, List.append_nil]
      exact .between hpieces
    | cons piece back =>
      have hmore : pieces = (front ++ [piece]) ++ back := by simp [hpieces]
      cases piece with
      | plain c hquote hplain =>
        have hturn : StringLiteral.turn (c :: back.flatMap Piece.text) =
          ([c], back.flatMap Piece.text) := turn_cons hplain _
        have hgiven := flatMap_value_concat front (.plain c hquote hplain)
        rw [List.flatMap_cons, Piece.text, List.singleton_append, hturn]
        exact hgiven ▸ InStep.between hmore
      | escape c hc =>
        rw [List.flatMap_cons, Piece.text, List.cons_append, List.singleton_append]
        cases hmeant : escaped? c with
        | some meant =>
          have hgiven := flatMap_value_concat front (.escape c hc)
          rw [Piece.value_escape_of_eq_some hc hmeant] at hgiven
          rw [turn_of_eq_some hmeant]
          exact hgiven ▸ InStep.between hmore
        | none =>
          rw [turn_of_eq_none hmeant]
          exact .within hpieces hmeant
  | @within front back c hc hpieces hnone =>
    -- the character after the backslash is plain, so it is given as it stands
    have hmore : pieces = (front ++ [.escape c hc]) ++ back := by simp [hpieces]
    have hgiven := flatMap_value_concat front (.escape c hc)
    rw [Piece.value_escape_of_eq_none hc hnone] at hgiven
    rw [turn_cons (ne_backslash_of_escaped?_eq_none hnone), List.append_assoc]
    exact hgiven ▸ InStep.between hmore

/-- The decoder is in step with the units of a text at every turn. -/
theorem inStep_afterTurns (pieces : List Piece) (turns : Nat) :
    InStep pieces (afterTurns (pieces.flatMap Piece.text) turns) := by
  induction turns with
  | zero => exact .between (List.nil_append pieces).symm
  | succ turns ih => exact ih.turn

/-- A backslash that the decoder comes upon is the first character of a unit, and the next character
is the other one of this unit. -/
theorem InStep.of_backslash {pieces : List Piece} {given more : List Char}
    (h : InStep pieces (given, '\\' :: more)) :
    ∃ front c, ∃ hc : c ≠ '\n', ∃ back, pieces = front ++ Piece.escape c hc :: back ∧
      given = front.flatMap Piece.value ∧ more = c :: back.flatMap Piece.text := by
  generalize hstate : (given, '\\' :: more) = state at h
  cases h with
  | @between front back hpieces =>
    obtain ⟨rfl, hahead⟩ := Prod.mk.inj hstate
    cases back with
    | nil => cases hahead
    | cons piece back =>
      cases piece with
      | plain c hquote hplain => exact absurd (List.cons.inj hahead).1.symm hplain
      | escape c hc => exact ⟨front, c, hc, back, hpieces, rfl, (List.cons.inj hahead).2⟩
  | within _ hnone =>
    obtain ⟨-, hahead⟩ := Prod.mk.inj hstate
    exact absurd (List.cons.inj hahead).1.symm (ne_backslash_of_escaped?_eq_none hnone)

/-- A text of units stands for the values of these. -/
theorem decode_texts (pieces : List Piece) :
    decode (pieces.flatMap Piece.text) = pieces.flatMap Piece.value := by
  let body := pieces.flatMap Piece.text
  have hend : InStep pieces (decode body, []) := by
    have hstep := inStep_afterTurns pieces body.length
    rwa [afterTurns_length] at hstep
  generalize hstate : (decode body, ([] : List Char)) = state at hend
  cases hend with
  | @between front back hpieces =>
    obtain ⟨hgiven, hahead⟩ := Prod.mk.inj hstate
    cases back with
    | nil => rw [hpieces, List.append_nil, ← hgiven, ← hpieces.trans (List.append_nil front)]
    | cons piece back => cases piece <;> cases hahead
  | within => cases (Prod.mk.inj hstate).2

/-- The units of a literal, which two readers go over: `body` is the text between its quotes,
`following` is what comes after it, and `text` is what it stands for. -/
structure UnitsOf (body following text : List Char) (pieces : List Piece) : Prop where
  /-- The body is cut into these units, and into no others. -/
  unique : ∀ pieces' : List Piece, body = pieces'.flatMap Piece.text ↔ pieces' = pieces
  /-- The quote that closes the literal is the first one that is part of no unit. -/
  closed : ∀ (pieces' : List Piece) (rest : List Char),
    body ++ '"' :: following = pieces'.flatMap Piece.text ++ '"' :: rest →
      pieces' = pieces ∧ rest = following
  /-- The text is what the units stand for, one after the other. -/
  decoded : text = pieces.flatMap Piece.value
  /-- The decoder has given the text when nothing is ahead of it. -/
  ended : ∃ turns, afterTurns body turns = (text, [])
  /-- A backslash that the decoder comes upon is the first character of a unit, and the next
  character is the other one of this unit. What was given is what the units before it stand for. -/
  escapes : ∀ (turns : Nat) (given more : List Char),
    afterTurns body turns = (given, '\\' :: more) →
      ∃ front c, ∃ hc : c ≠ '\n', ∃ back, pieces = front ++ Piece.escape c hc :: back ∧
        given = front.flatMap Piece.value ∧ more = c :: back.flatMap Piece.text

/-- A body of units, before the quote that closes the literal, and what it stands for. -/
theorem unitsOf_texts (pieces : List Piece) (following : List Char) :
    UnitsOf (pieces.flatMap Piece.text) following (decode (pieces.flatMap Piece.text)) pieces where
  unique pieces' := ⟨fun hsame => (texts_inj hsame).symm, fun hsame => by rw [hsame]⟩
  closed pieces' rest hcut := by
    obtain ⟨hpieces, hrest⟩ := texts_append_quote_inj hcut
    exact ⟨hpieces.symm, hrest.symm⟩
  decoded := decode_texts pieces
  ended := ⟨_, afterTurns_length _⟩
  escapes turns given more hturns := by
    have hstep := inStep_afterTurns pieces turns
    rw [hturns] at hstep
    exact hstep.of_backslash

end StringLiteral

/-! ## String tokens -/

/-- A word that is a string is a literal. -/
theorem Lexeme.Stands.exists_body {lexeme : Lexeme} {rest : List Char} {word : Word}
    (h : lexeme.Stands rest) (hword : lexeme.word = some word) (hkind : word.kind = .string) :
    ∃ body, StringLiteral.IsBody body ∧ lexeme = literal body := by
  cases h with
  | string hbody => exact ⟨_, hbody, rfl⟩
  | @identifier text _ _ _ =>
    cases hword
    have hmem := identifierKind_mem text
    rw [show identifierKind text = .string from hkind] at hmem
    exact absurd hmem (by decide)
  | number | punctuation =>
    cases hword
    cases hkind
  | blanks | comment => cases hword

/-- A string token covers the quotes of a literal and the body between them, and its text is what
the body stands for. -/
theorem Scans.exists_body {file : String} {offset : Nat} {cs : List Char} {tokens : List Token}
    (h : Scans file offset cs tokens) {token : Token} (hmem : token ∈ tokens)
    (hkind : token.kind = .string) :
    ∃ before body following, StringLiteral.IsBody body ∧
      cs = before ++ (('"' :: body ++ ['"']) ++ following) ∧
      token.span.start.offset = offset + Text.byteSize before ∧
      token.span.stop.offset = token.span.start.offset + Text.byteSize ('"' :: body ++ ['"']) ∧
      token.text = String.ofList (StringLiteral.decode body) := by
  induction h with
  | nil =>
    obtain rfl := List.mem_singleton.mp hmem
    cases hkind
  | @cons offset lexeme rest tokens hstands _ ih =>
    rcases List.mem_append.mp hmem with hmem | hmem
    · unfold Lexeme.tokens at hmem
      cases hword : lexeme.word with
      | none =>
        rw [hword] at hmem
        cases hmem
      | some word =>
        rw [hword] at hmem
        obtain rfl := List.mem_singleton.mp hmem
        obtain ⟨body, hbody, rfl⟩ := hstands.exists_body hword hkind
        cases hword
        exact ⟨[], body, rest, hbody, rfl, rfl, rfl, rfl⟩
    · obtain ⟨before, body, following, hbody, rfl, hstart, hstop, htext⟩ := ih hmem
      refine ⟨lexeme.text ++ before, body, following, hbody, (List.append_assoc ..).symm, ?_, hstop,
        htext⟩
      rw [hstart, Text.byteSize_append, Nat.add_assoc]

/-- A string token covers two quotes and units between them. The text between the quotes is cut into
units in one way, up to the first quote that is part of no unit, and the token's text is what these
units stand for. The decoder is in step with them whenever it comes upon a backslash. -/
theorem tokenize_string_decoded {source file : String} {tokens : List Token}
    (h : tokenize source file = .ok tokens) {token : Token} (hmem : token ∈ tokens)
    (hkind : token.kind = .string) :
    ∃ body following, Text.IsSlice source.toList token.span.start.offset token.span.stop.offset
        ('"' :: body ++ ['"']) following ∧
      ∃ pieces, StringLiteral.UnitsOf body following token.text.toList pieces := by
  obtain ⟨added, rfl, hscans⟩ := scans_of_scanFrom h
  obtain ⟨before, body, following, hbody, hsource, hstart, hstop, htext⟩ :=
    hscans.exists_body hmem hkind
  rw [Nat.zero_add] at hstart
  obtain ⟨pieces, rfl⟩ := hbody.exists_pieces
  rw [htext, String.toList_ofList]
  exact ⟨_, following, ⟨⟨before, hsource, hstart.symm⟩, hstop⟩, pieces,
    StringLiteral.unitsOf_texts pieces following⟩

/-- A letter of two bytes after a backslash, two backslashes before an unknown escape, and a quote
that does not close the literal. -/
theorem tokenize_string_decoded_backslashes :
    tokenize "\"\\é\\\\\\q\\\"\" x" "f" =
      .ok [⟨⟨.string, "\\é\\\\q\""⟩, .within "f" 0 11⟩, ⟨⟨.name, "x"⟩, .within "f" 12 13⟩,
        Token.endAt ⟨13, "f"⟩] ∧
    ∃ body following,
      Text.IsSlice "\"\\é\\\\\\q\\\"\" x".toList 0 11 ('"' :: body ++ ['"']) following ∧
      ∃ pieces, StringLiteral.UnitsOf body following "\\é\\\\q\"".toList pieces := by
  have hscan : tokenize "\"\\é\\\\\\q\\\"\" x" "f" =
      .ok [⟨⟨.string, "\\é\\\\q\""⟩, .within "f" 0 11⟩, ⟨⟨.name, "x"⟩, .within "f" 12 13⟩,
        Token.endAt ⟨13, "f"⟩] := by decide +kernel
  exact ⟨hscan, tokenize_string_decoded hscan List.mem_cons_self rfl⟩

end FrappeSyntax
