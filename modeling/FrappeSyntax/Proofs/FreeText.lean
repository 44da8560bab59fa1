import FrappeSyntax.Proofs.ProductionLockstep

/-!
# Free text and spans do not steer a parse

Two lists of tokens that agree in kinds, and in the texts of punctuation, are parsed alike: names,
values and spans decide nothing. Their trees have the same shape and hold the texts of tokens of the
same index, and their errors are the same up to the token that they are about.

* `Token.Twin`: two tokens that a parser cannot tell apart.
* `TwinTapes.ofTokens`: two lists of such tokens, and what follows them.
* `TwinTapes.parseWith_alike`: the parses of two tapes that agree.
* `parseWith_of_twins`: how their parses agree.
-/

namespace FrappeSyntax

/-- Two tokens of the same kind, with the same text if they are punctuation. -/
structure Token.Twin (token token' : Token) : Prop where
  kind_eq : token.kind = token'.kind
  text_eq : token.kind = .single → token.text = token'.text

section

variable {tokens tokens' : List Token}

theorem Tape.get_twin (h : List.Forall₂ Token.Twin tokens tokens') (file file' : String)
    (index : Nat) :
    ((ofTokens tokens file).get index).Twin ((ofTokens tokens' file').get index) := by
  rcases Nat.lt_or_ge index tokens.length with hlt | hge
  · have hlt' : index < tokens'.length := h.length_eq ▸ hlt
    rw [get, get, ofTokens, ofTokens, List.getElem?_eq_getElem hlt, List.getElem?_eq_getElem hlt']
    exact h.get hlt hlt'
  · have hge' : tokens'.length ≤ index := h.length_eq ▸ hge
    rw [get_of_le hge, get_of_le hge']
    have hkind := TokenStream.kind_finalOf tokens file
    have hkind' := TokenStream.kind_finalOf tokens' file'
    refine ⟨hkind.trans hkind'.symm, fun hsingle => ?_⟩
    cases hkind.symm.trans hsingle

/-- The tapes of two lists that agree. -/
def TwinTapes.ofTokens (h : List.Forall₂ Token.Twin tokens tokens') (file file' : String) :
    TwinTapes where
  one := .ofTokens tokens file
  other := .ofTokens tokens' file'
  length_eq := h.length_eq
  kind_eq index := (Tape.get_twin h file file' index).kind_eq
  text_eq index := (Tape.get_twin h file file' index).text_eq

/-! ## Equal texts -/

theorem Token.map_toWord_eq_of_twins (h : List.Forall₂ Twin tokens tokens')
    (htexts : tokens.map (·.text) = tokens'.map (·.text)) :
    tokens.map Token.toWord = tokens'.map Token.toWord := by
  induction h with
  | nil => rfl
  | @cons token token' _ _ htwin _ ih =>
    obtain ⟨htext, htexts⟩ := List.cons.inj htexts
    have hword : token.toWord = token'.toWord := by
      obtain ⟨⟨kind, text⟩, span⟩ := token
      obtain ⟨⟨kind', text'⟩, span'⟩ := token'
      obtain rfl : kind = kind' := htwin.kind_eq
      obtain rfl : text = text' := htext
      rfl
    rw [List.map_cons, List.map_cons, hword, ih htexts]

/-- The word that ends a list of tokens does not depend on spans. -/
theorem TokenStream.toWord_finalOf (tokens : List Token) (file : String) :
    (finalOf tokens file).toWord =
      match (tokens.map Token.toWord).getLast? with
      | some last => if last.kind = .eof then last else ⟨.eof, "EOF"⟩
      | none => ⟨.eof, "EOF"⟩ := by
  rw [finalOf, List.getLast?_map]
  cases tokens.getLast? with
  | none => rfl
  | some last =>
    dsimp only [Option.map_some]
    split <;> rfl

theorem Tape.toWord_get_eq (h : tokens.map Token.toWord = tokens'.map Token.toWord)
    (file file' : String) (index : Nat) :
    ((ofTokens tokens file).get index).toWord = ((ofTokens tokens' file').get index).toWord := by
  have hget : ∀ (tokens : List Token) (file : String),
      ((ofTokens tokens file).get index).toWord =
        (tokens.map Token.toWord)[index]?.getD (TokenStream.finalOf tokens file).toWord := by
    intro tokens file
    rw [List.getElem?_map]
    exact (Option.getD_map Token.toWord _ _).symm
  rw [hget, hget, TokenStream.toWord_finalOf, TokenStream.toWord_finalOf, h]

theorem Token.text_eq_of_paired (h : tokens.map Token.toWord = tokens'.map Token.toWord)
    {text text' : String} (hpaired : TextsPaired tokens tokens' text text') : text = text' := by
  obtain ⟨token, token', ⟨index, htoken, htoken'⟩, rfl, rfl⟩ := hpaired
  have hword := congrArg (·[index]?) h
  simp only [List.getElem?_map, htoken, htoken', Option.map_some] at hword
  exact congrArg Word.text (Option.some.inj hword)

theorem Complaint.cause_about (complaint : Complaint) {token token' : Token}
    (h : token.toWord = token'.toWord) :
    (complaint.about token).cause = (complaint.about token').cause := by
  cases complaint with
  | kind production expected => exact congrArg (Cause.unexpectedKind production expected) h
  | text production expected => exact congrArg (Cause.unexpectedText production expected) h
  | alternative production expected =>
    exact congrArg (Cause.unexpectedAlternative production expected) h

/-! ## Parses -/

/-- A spot is the same place on two tapes that agree. -/
theorem TwinTapes.place_on (twins : TwinTapes) (spot : Spot) :
    (spot.on twins.one).depth = (spot.on twins.other).depth ∧
      (spot.on twins.one).stream.pending = (spot.on twins.other).stream.pending ∧
      (spot.on twins.one).stream.isDrained = (spot.on twins.other).stream.isDrained ∧
      ∃ index, (spot.on twins.one).sequence = Stream'.drop index twins.one.sequence ∧
        (spot.on twins.other).sequence = Stream'.drop index twins.other.sequence := by
  refine ⟨rfl, ?_, ?_, spot.index, spot.sequence_on _, spot.sequence_on _⟩
  · rw [Spot.pending_on, Spot.pending_on]
  · rw [Bool.eq_iff_iff, Spot.isDrained_on, Spot.isDrained_on, twins.length_eq]

/-- Two tapes that agree are parsed alike, and the parsers end at the same spot, but for the event
that tells how each parse ended. -/
inductive TwinTapes.ParsesAlike (twins : TwinTapes) :
    Except Error Program × Parser → Except Error Program × Parser → Prop
  | ok {program program' : Program} {spot : Spot} {event event' : Event} :
    program.Matches twins.PairsTexts program' →
    ParsesAlike twins (.ok program, (spot.on twins.one).note event)
      (.ok program', (spot.on twins.other).note event')
  | complains {spot : Spot} {index : Nat} {event event' : Event} (complaint : Complaint) :
    index ≤ twins.one.tokens.length →
    ParsesAlike twins
      (.error (complaint.about (twins.one.get index)), (spot.on twins.one).note event)
      (.error (complaint.about (twins.other.get index)), (spot.on twins.other).note event')
  | refuses {spot : Spot} {cause : Cause} {index : Nat} {event event' : Event} :
    cause.isRefusal = true → index ≤ twins.one.tokens.length →
    ParsesAlike twins
      (.error ⟨cause, (twins.one.get index).position⟩, (spot.on twins.one).note event)
      (.error ⟨cause, (twins.other.get index).position⟩, (spot.on twins.other).note event')

theorem TwinTapes.parseWith_alike (twins : TwinTapes) (limits : Limits) :
    twins.ParsesAlike (parseWith twins.one.stream limits) (parseWith twins.other.stream limits) := by
  have hparse := Program.parse_abreast twins limits limits.maxDepth
  rw [Spot.start_on, Spot.start_on] at hparse
  rw [parseWith_eq, parseWith_eq]
  revert hparse
  generalize Program.parse limits.maxDepth (.started twins.one.stream limits) = outcome,
    Program.parse limits.maxDepth (.started twins.other.stream limits) = outcome'
  intro hparse
  cases hparse with
  | ok hmatches => exact .ok hmatches
  | complains complaint _ hendless => exact .complains complaint hendless.le_length
  | refuses hcause _ _ hendless => exact .refuses hcause hendless.le_length

/-- Lists of tokens that agree, index by index, in kinds, and in texts where these are punctuation,
are parsed alike: to trees of the same shape, where each text is that of a token, in both trees of
the same index; or to errors that say the same about the tokens of the same index. If all the texts
agree, the trees or the causes of the errors are equal. The parsers end with the same depth, with as
many tokens waiting, drained or not, and before the token of the same index. -/
theorem parseWith_of_twins (h : List.Forall₂ Token.Twin tokens tokens') (file file' : String)
    (limits : Limits) :
    let tape := Tape.ofTokens tokens file
    let tape' := Tape.ofTokens tokens' file'
    let run := parseWith (.ofTokens tokens file) limits
    let run' := parseWith (.ofTokens tokens' file') limits
    ((∃ program program', run.1 = .ok program ∧ run'.1 = .ok program' ∧
        program.Matches (Token.TextsPaired tokens tokens') program') ∨
      (∃ (complaint : Complaint) (index : Nat), index ≤ tokens.length ∧
        run.1 = .error (complaint.about (tape.get index)) ∧
        run'.1 = .error (complaint.about (tape'.get index))) ∨
      (∃ (cause : Cause) (index : Nat), cause.isRefusal = true ∧ index ≤ tokens.length ∧
        run.1 = .error ⟨cause, (tape.get index).position⟩ ∧
        run'.1 = .error ⟨cause, (tape'.get index).position⟩)) ∧
    (tokens.map (·.text) = tokens'.map (·.text) →
      run.1.mapError Error.cause = run'.1.mapError Error.cause) ∧
    run.2.depth = run'.2.depth ∧ run.2.stream.pending = run'.2.stream.pending ∧
    run.2.stream.isDrained = run'.2.stream.isDrained ∧
    ∃ index, run.2.sequence = Stream'.drop index tape.sequence ∧
      run'.2.sequence = Stream'.drop index tape'.sequence := by
  intro tape tape' run run'
  let twins := TwinTapes.ofTokens h file file'
  have hwords := Token.map_toWord_eq_of_twins h
  have halike : twins.ParsesAlike run run' := twins.parseWith_alike limits
  revert halike
  generalize run = result, run' = result'
  intro halike
  cases halike with
  | @ok program program' spot _ _ hmatches =>
    refine ⟨.inl ⟨program, program', rfl, rfl, hmatches⟩, fun htexts => ?_, twins.place_on spot⟩
    have hprogram : program = program' :=
      Program.eq_of_matches (fun _ _ => Token.text_eq_of_paired (hwords htexts)) hmatches
    exact congrArg Except.ok hprogram
  | @complains spot index _ _ complaint hindex =>
    refine ⟨.inr (.inl ⟨complaint, index, hindex, rfl, rfl⟩), fun htexts => ?_, twins.place_on spot⟩
    have hword := Tape.toWord_get_eq (hwords htexts) file file' index
    exact congrArg Except.error (complaint.cause_about hword)
  | @refuses spot cause index _ _ hcause hindex =>
    exact ⟨.inr (.inr ⟨cause, index, hcause, hindex, rfl, rfl⟩), fun _ => rfl, twins.place_on spot⟩

end

/-- The tokens of a class with one field, which start at an offset. -/
def tokensOfField (className field : String) (offset : Nat) : List Token :=
  let spans (start stop : Nat) : Span := ⟨⟨offset + start, "a"⟩, ⟨offset + stop, "a"⟩⟩
  [⟨⟨.classWord, "class"⟩, spans 0 5⟩, ⟨⟨.className, className⟩, spans 6 7⟩,
    ⟨.single "\x7b", spans 8 9⟩, ⟨⟨.name, field⟩, spans 10 11⟩, ⟨.single "\x7d", spans 12 13⟩]

/-- Classes with other names elsewhere have trees of the same shape. -/
theorem parseWith_of_twins_renamed :
    List.Forall₂ Token.Twin (tokensOfField "A" "x" 0) (tokensOfField "B" "y" 40) ∧
      ∃ program program',
        (parseWith (.ofTokens (tokensOfField "A" "x" 0) "a") {}).1 = .ok program ∧
        (parseWith (.ofTokens (tokensOfField "B" "y" 40) "a") {}).1 = .ok program' ∧
        program.Matches
          (Token.TextsPaired (tokensOfField "A" "x" 0) (tokensOfField "B" "y" 40)) program' := by
  have htwins : List.Forall₂ Token.Twin (tokensOfField "A" "x" 0) (tokensOfField "B" "y" 40) := by
    have hfree : ∀ {kind : Kind} (text text' : String) (span span' : Span), kind ≠ .single →
        Token.Twin ⟨⟨kind, text⟩, span⟩ ⟨⟨kind, text'⟩, span'⟩ :=
      fun _ _ _ _ hkind => ⟨rfl, fun hsingle => absurd hsingle hkind⟩
    exact .cons (hfree _ _ _ _ (by decide)) (.cons (hfree _ _ _ _ (by decide))
      (.cons ⟨rfl, fun _ => rfl⟩ (.cons (hfree _ _ _ _ (by decide))
        (.cons ⟨rfl, fun _ => rfl⟩ .nil))))
  have hok : (parseWith (.ofTokens (tokensOfField "A" "x" 0) "a") {}).1.isOk = true := by
    decide +kernel
  refine ⟨htwins, ?_⟩
  rcases (parseWith_of_twins htwins "a" "a" {}).1 with
    hprograms | ⟨_, _, _, herror, -⟩ | ⟨_, _, _, _, herror, -⟩
  · exact hprograms
  · rw [herror] at hok
    cases hok
  · rw [herror] at hok
    cases hok

end FrappeSyntax
