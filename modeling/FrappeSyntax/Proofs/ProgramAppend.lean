import FrappeSyntax.Proofs.Depth
import FrappeSyntax.Proofs.FreeText
import FrappeSyntax.Proofs.Pushback
import FrappeSyntax.Proofs.ScanAppend

/-!
# Parsing one source after another

After the classes of a source a parser goes on with what comes next as if it had just begun: no token
waits, no level is open, and nothing that was read before makes a difference. So the classes of two
sources, one after the other, are those of both, and an error in the second is the error that it has
alone.

* `Routine.Gives`: what two runs give, if the results of one are made of those of the other.
* `Program.parse_append`: a parse goes on after classes as one that starts there.
* `parse_append_lineFeed`: the source that is made of two others.
-/

namespace FrappeSyntax

/-! ## Results made of results -/

/-- Two runs give the same errors, and results of which one is made of the other. The parsers
afterwards are alike. -/
inductive Routine.Gives (make : α → β) :
    EStateM.Result Error Parser α → EStateM.Result Error Parser β → Prop
  | ok {a : α} {after after' : Parser} : after.Alike after' →
    Gives make (.ok a after) (.ok (make a) after')
  | error {error : Error} {after after' : Parser} : after.Alike after' →
    Gives make (.error error after) (.error error after')

namespace Routine

theorem Agrees.gives {parser parser' : Parser} {outcome outcome' : EStateM.Result Error Parser α}
    (h : Agrees parser parser' outcome outcome') : Gives id outcome outcome' := by
  cases h with
  | ok _ halike => exact .ok halike
  | error _ halike => exact .error halike

theorem Gives.bind {make : α → β} {make' : γ → δ} {routine : Routine α} {routine' : Routine β}
    {f : α → Routine γ} {g : β → Routine δ} {parser parser' : Parser}
    (h : Gives make (routine parser) (routine' parser'))
    (hf : ∀ a {after after' : Parser}, routine parser = .ok a after → after.Alike after' →
      Gives make' (f a after) (g (make a) after')) :
    Gives make' ((routine >>= f) parser) ((routine' >>= g) parser') := by
  rw [bind_apply, bind_apply]
  revert h
  generalize hrun : routine parser = outcome, routine' parser' = outcome'
  intro h
  cases h with
  | ok halike => exact hf _ hrun halike
  | error halike => exact .error halike

/-! ## Loops -/

/-- A loop that read items before gives these and the items that a loop gives that starts there. -/
theorem Gives.repeatFor {levels : Nat} {calls : Token → Bool} {item : Routine α}
    (h : Composed levels levels item item) (hadvances : item.Advances calls) (items : List α)
    {turns : List Token} {parser parser' : Parser} (halike : parser.Alike parser')
    (hend : EndsWithin parser.sequence turns.length) :
    Gives (items.reverse ++ ·) (repeatWhile calls item parser)
      (Routine.repeatFor calls item items turns parser') := by
  have hend' : EndsWithin parser'.sequence turns.length := halike.sequence ▸ hend
  have hfresh : Routine.repeatFor calls item [] turns parser' = repeatWhile calls item parser' :=
    repeatFor_congr_turns hadvances hend' parser'.stream.endsWithin
  have hloop := ((h.repeatWhile hadvances).agrees halike).gives
  rw [repeatFor_eq_map, ← bind_pure_comp, bind_apply, hfresh]
  revert hloop
  generalize repeatWhile calls item parser = outcome, repeatWhile calls item parser' = outcome'
  intro hloop
  cases hloop with
  | ok halike => exact .ok halike
  | error halike => exact .error halike

/-- Where a loop goes on, it gives the items that it read before and those of a series that starts
there. -/
theorem Gives.parseUntil {levels : Nat} {ends : Token → Bool} {item : Routine α}
    (h : Composed levels levels item item) (hadvances : item.Advances (!ends ·)) (items : List α)
    {turns : List Token} {parser parser' : Parser} (halike : parser.Alike parser')
    (hcalls : ends parser.sequence.head = false)
    (hend : EndsWithin parser.sequence turns.length) :
    Gives (fun series => items.reverse ++ series.toList) (Series.parseUntil ends item parser)
      (Routine.repeatFor (!ends ·) item items turns parser') := by
  cases turns with
  | nil => exact absurd hend (not_endsWithin_zero _)
  | cons turn turns =>
    have hmore : (!ends parser.sequence.head) = true := by rw [hcalls, Bool.not_false]
    have hpeeked : parser.Alike parser'.peeked :=
      ⟨halike.sequence.trans parser'.sequence_peeked.symm, halike.maxDepth, halike.depth,
        halike.clock⟩
    rw [repeatFor_eq_of_calls (halike.sequence ▸ hmore)]
    refine (h.agrees hpeeked).gives.bind fun a after after' hrun halike => ?_
    obtain ⟨tokens, hne, hseq, hkind⟩ := hadvances _ _ _ hmore hrun
    have hloop := Gives.repeatFor h hadvances (a :: items) halike (hend.after hseq hne hkind)
    rw [← bind_pure (Routine.repeatFor _ _ _ _)]
    refine hloop.bind fun rest _ _ _ halike => ?_
    rw [List.reverse_cons, List.append_assoc]
    exact .ok halike

end Routine

/-! ## Classes -/

section

variable {levels : Nat} {front : List Token} {classes items : List ClassDef}
  {parser : Parser} {sequence : Stream' Token} {turns : List Token}

/-- Holds where the loop for classes goes on. -/
abbrev ClassDef.calls (token : Token) : Bool := !token.isKind .eof

/-- The tokens of a class are some, and none of them ends the source. -/
theorem ClassDef.kind_ne_of_normals_eq {c : ClassDef} (h : normals front = c.words) :
    ∀ token ∈ front, token.kind ≠ .eof :=
  have hendless : form.Endless := isInner_of_mem
  fun _ hmem => hendless.kind_ne h hmem

theorem ClassDef.ne_nil_of_normals_eq {c : ClassDef} (h : normals front = c.words) : front ≠ [] := by
  rintro rfl
  cases h

/-- The tokens of a class are read as this class, whatever follows. -/
theorem ClassDef.exists_parse_append {c : ClassDef} (hfree : parser.limits.deadline = none)
    (hseq : parser.sequence = front ++ₛ sequence) (hwords : normals front = c.words)
    (hfits : c.Fits levels) :
    ∃ after, parse levels parser = .ok c after ∧ after.sequence = sequence ∧
      after.limits = parser.limits ∧ after.depth = parser.depth := by
  obtain ⟨after, hrun, hsequence, hlimits⟩ :=
    (reads (le_refl levels)).complete hfree hseq ⟨hwords, hfits, trivial⟩
  exact ⟨after, hrun, hsequence, hlimits,
    ((composed (le_refl levels)).balanced.ok hrun).depth⟩

/-- The classes that some tokens are read as, one after the other, whatever follows. -/
theorem ClassDef.repeatFor_append (hfree : parser.limits.deadline = none)
    (hseq : parser.sequence = front ++ₛ sequence)
    (hwords : normals front = wordsOfRun ClassDef.words classes)
    (hfits : ∀ c ∈ classes, c.Fits levels)
    (hend : EndsWithin parser.sequence turns.length) :
    ∃ (after : Parser) (turns' : List Token),
      Routine.repeatFor calls (parse levels) items turns parser =
        Routine.repeatFor calls (parse levels) (classes.reverse ++ items) turns' after ∧
      after.sequence = sequence ∧ after.limits = parser.limits ∧ after.depth = parser.depth ∧
      EndsWithin sequence turns'.length := by
  induction classes generalizing front items parser turns with
  | nil =>
    obtain rfl := normals_eq_nil.mp hwords
    rw [Stream'.nil_append_stream] at hseq
    exact ⟨parser, turns, rfl, hseq, rfl, rfl, hseq ▸ hend⟩
  | cons c cs ih =>
    rw [wordsOfRun, List.flatMap_cons] at hwords
    obtain ⟨tokens, more, rfl, htokens, hmore⟩ := normals_eq_append.mp hwords
    rw [List.forall_mem_cons] at hfits
    rw [Stream'.append_append_stream] at hseq
    cases turns with
    | nil => exact absurd hend (not_endsWithin_zero _)
    | cons turn turns =>
      obtain ⟨middle, hmiddle, hsequence, hlimits, hdepth⟩ :
          ∃ middle, parse levels parser.peeked = .ok c middle ∧
            middle.sequence = more ++ₛ sequence ∧ middle.limits = parser.limits ∧
            middle.depth = parser.depth :=
        exists_parse_append hfree (parser.sequence_peeked.trans hseq) htokens hfits.1
      have hkind : ∀ token ∈ tokens, token.kind ≠ .eof := kind_ne_of_normals_eq htokens
      have hne : tokens ≠ [] := ne_nil_of_normals_eq htokens
      have hcalls : calls parser.sequence.head = true := by
        obtain ⟨first, others, rfl⟩ := List.exists_cons_of_ne_nil hne
        rw [hseq]
        simpa [Token.isKind] using hkind first List.mem_cons_self
      obtain ⟨after, turns', hafter, hrest⟩ := ih (hlimits ▸ hfree) hsequence hmore hfits.2
        (hend.after (hsequence ▸ hseq) hne hkind)
      refine ⟨after, turns', ?_, ?_⟩
      · rw [Routine.repeatFor_eq_of_calls hcalls, Routine.bind_apply, hmiddle]
        dsimp only
        rw [hafter, List.reverse_cons, List.append_assoc, List.singleton_append]
      · rw [← hlimits, ← hdepth]
        exact hrest

/-- After the tokens of a series of classes, whatever follows, the loop for classes goes on. -/
theorem ClassDef.parseUntil_append {series : Series ClassDef}
    (hfree : parser.limits.deadline = none) (hseq : parser.sequence = front ++ₛ sequence)
    (hwords : normals front = wordsOfRun ClassDef.words series.toList)
    (hfits : ∀ c ∈ series.toList, c.Fits levels) :
    ∃ (after : Parser) (turns : List Token),
      Series.parseUntil (·.isKind .eof) (parse levels) parser =
        (Routine.repeatFor calls (parse levels) (series.rest.reverse ++ []) turns >>=
          fun items => pure ⟨series.first, items⟩) after ∧
      after.sequence = sequence ∧ after.limits = parser.limits ∧ after.depth = parser.depth ∧
      EndsWithin sequence turns.length := by
  obtain ⟨first, rest⟩ := series
  rw [Series.toList, wordsOfRun, List.flatMap_cons] at hwords
  rw [Series.toList, List.forall_mem_cons] at hfits
  obtain ⟨tokens, more, rfl, hfirst, hrest⟩ := normals_eq_append.mp hwords
  rw [Stream'.append_append_stream] at hseq
  obtain ⟨middle, hmiddle, hsequence, hlimits, hdepth⟩ :=
    exists_parse_append hfree hseq hfirst hfits.1
  obtain ⟨after, turns, hloop, hafter⟩ :=
    repeatFor_append (hlimits ▸ hfree) hsequence hrest hfits.2 middle.stream.endsWithin
  have hloop : Routine.repeatWhile calls (parse levels) middle =
      Routine.repeatFor calls (parse levels) (rest.reverse ++ []) turns after := hloop
  rw [hlimits, hdepth] at hafter
  refine ⟨after, turns, ?_, hafter⟩
  rw [Series.parseUntil, Routine.bind_apply, hmiddle]
  dsimp only
  rw [Routine.bind_apply, Routine.bind_apply, hloop]

/-! ## Programs -/

/-- The program that has the classes of two programs, one after the other. -/
def Program.append (program other : Program) : Program :=
  ⟨⟨program.classes.first, program.classes.rest ++ other.classes.toList⟩⟩

theorem Program.toList_append (program other : Program) :
    (program.append other).classes.toList = program.classes.toList ++ other.classes.toList := rfl

/-- After the tokens of a program but for its end, a parse goes on as one that starts there: it gives
the classes of both, or the same error. -/
theorem Program.parse_append {start : Parser} {program : Program}
    (hfree : parser.limits.deadline = none) (hseq : parser.sequence = front ++ₛ start.sequence)
    (hwords : normals front = wordsOfRun ClassDef.words program.classes.toList)
    (hfits : program.Fits levels) (hlimits : start.limits = parser.limits)
    (hdepth : start.depth = parser.depth) (hmore : start.sequence.head.kind ≠ .eof) :
    Routine.Gives program.append (parse levels start) (parse levels parser) := by
  let finish (classes : Series ClassDef) : Routine Program := do
    let _ ← Routine.expect .eof Production.program.label
    pure ⟨classes⟩
  let entered (parser : Parser) := (parser.note (.entered .program)).note (.entered .classes)
  have hrun : ∀ parser, parse levels parser =
      (Series.parseUntil (·.isKind .eof) (ClassDef.parse levels) >>= finish) (entered parser) :=
    fun _ => rfl
  have hadvances : (ClassDef.parse levels).Advances ClassDef.calls :=
    (ClassDef.reads (le_refl levels)).advances ClassDef.isInner_of_mem fun _ => List.cons_ne_nil _ _
  obtain ⟨after, turns, hseries, hafter, hlimits', hdepth', hend⟩ :
      ∃ (after : Parser) (turns : List Token),
        Series.parseUntil (·.isKind .eof) (ClassDef.parse levels) (entered parser) =
          (Routine.repeatFor ClassDef.calls (ClassDef.parse levels)
              (program.classes.rest.reverse ++ []) turns >>=
            fun items => pure ⟨program.classes.first, items⟩) after ∧
        after.sequence = start.sequence ∧ after.limits = parser.limits ∧
        after.depth = parser.depth ∧ EndsWithin start.sequence turns.length :=
    ClassDef.parseUntil_append hfree hseq hwords (Program.fits_iff.mp hfits)
  have halike : (entered start).Alike after :=
    Parser.alike_of_limits_eq hafter.symm (hlimits.trans hlimits'.symm)
      (hdepth.trans hdepth'.symm) (.inl (hlimits ▸ hfree))
  have hends : start.sequence.head.isKind .eof = false := by
    simpa [Token.isKind] using hmore
  have hclasses : Routine.Gives
      (fun series => ⟨program.classes.first, program.classes.rest ++ series.toList⟩)
      (Series.parseUntil (·.isKind .eof) (ClassDef.parse levels) (entered start))
      (Series.parseUntil (·.isKind .eof) (ClassDef.parse levels) (entered parser)) := by
    have hloop := Routine.Gives.parseUntil (ClassDef.composed (le_refl levels)) hadvances
      (program.classes.rest.reverse ++ []) halike hends hend
    rw [hseries, ← bind_pure (Series.parseUntil _ _)]
    refine hloop.bind fun series _ _ _ halike => ?_
    rw [List.append_nil, List.reverse_reverse]
    exact .ok halike
  rw [hrun, hrun]
  refine hclasses.bind fun series _ _ _ halike => ?_
  have hexpect : Composed levels levels (Routine.expect .eof Production.program.label)
      (Routine.expect .eof Production.program.label) := .expect _ _
  exact (hexpect.agrees halike).gives.bind fun _ _ _ _ halike => .ok halike

end

/-! ## Tokens up to the end of a source -/

section

variable {front front' : List Token} {final final' : Token}

/-- The first token of a sequence that ends a source has one place. -/
theorem eq_of_append_eof {rest rest' : Stream' Token} (hfront : ∀ token ∈ front, token.kind ≠ .eof)
    (hfront' : ∀ token ∈ front', token.kind ≠ .eof) (hfinal : final.kind = .eof)
    (hfinal' : final'.kind = .eof)
    (h : (front ++ [final]) ++ₛ rest = (front' ++ [final']) ++ₛ rest') : front = front' := by
  induction front generalizing front' with
  | nil =>
    cases front' with
    | nil => rfl
    | cons token' front' =>
      obtain rfl : final = token' := congrArg Stream'.head h
      exact absurd hfinal (hfront' final List.mem_cons_self)
  | cons token front ih =>
    cases front' with
    | nil =>
      obtain rfl : token = final' := congrArg Stream'.head h
      exact absurd hfinal' (hfront token List.mem_cons_self)
    | cons token' front' =>
      obtain rfl : token = token' := congrArg Stream'.head h
      rw [List.forall_mem_cons] at hfront hfront'
      rw [ih hfront.2 hfront'.2 (congrArg Stream'.tail h)]

/-! ## The tokens of a program -/

namespace Program

variable {program : Program}

theorem IsTreeOf.kind_ne (h : program.IsTreeOf (front.map Token.toWord)) :
    ∀ token ∈ front, token.kind ≠ .eof := by
  intro token hmem
  have hword : token.toWord.normal ∈ wordsOfRun ClassDef.words program.classes.toList := by
    rw [h.1, map_normal_map_toWord]
    exact List.mem_map_of_mem hmem
  rw [← Word.kind_normal]
  exact (isInner_of_mem_wordsOfRun ClassDef.isInner_of_mem _ _ hword).2

/-- Tokens that do not end the source are parsed as the program whose tree they are. -/
theorem parseWith_append_eof {limits : Limits} (hfree : limits.deadline = none)
    (hfront : ∀ token ∈ front, token.kind ≠ .eof) (hfinal : final.kind = .eof) (file : String) :
    (parseWith (.ofTokens (front ++ [final]) file) limits).1 = .ok program ↔
      program.IsTreeOf (front.map Token.toWord) ∧ program.nesting ≤ limits.maxDepth := by
  rw [parseWith_fst_eq_ok, parsesTo_iff hfree, Parser.sequence_started,
    TokenStream.sequence_ofTokens]
  constructor
  · rintro ⟨front', final', rest, hseq, hfinal', htree, hnesting⟩
    obtain rfl := eq_of_append_eof hfront htree.kind_ne hfinal hfinal' hseq
    exact ⟨htree, hnesting⟩
  · rintro ⟨htree, hnesting⟩
    exact ⟨front, final, _, rfl, hfinal, htree, hnesting⟩

/-- The tokens of a program before those of a source that is not empty add its classes in front. -/
theorem parseWith_append {limits : Limits} (hfree : limits.deadline = none)
    (htree : program.IsTreeOf (front.map Token.toWord))
    (hnesting : program.nesting ≤ limits.maxDepth) {token : Token} (htoken : token.kind ≠ .eof)
    (hfinal : final.kind = .eof) (back : List Token) (file : String) :
    (parseWith (.ofTokens (front ++ (token :: back ++ [final])) file) limits).1 =
      (parseWith (.ofTokens (token :: back ++ [final]) file) limits).1.map program.append := by
  let start (tokens : List Token) := Parser.started (.ofTokens tokens file) limits
  have hseq : (start (front ++ (token :: back ++ [final]))).sequence =
      front ++ₛ (start (token :: back ++ [final])).sequence := by
    rw [Parser.sequence_started, Parser.sequence_started, TokenStream.sequence_ofTokens,
      TokenStream.sequence_ofTokens, TokenStream.finalOf_append_eof hfinal, ← List.append_assoc,
      TokenStream.finalOf_append_eof hfinal, List.append_assoc, Stream'.append_append_stream]
  have hwords : normals front = wordsOfRun ClassDef.words program.classes.toList := by
    rw [htree.1, map_normal_map_toWord]
  have hparse : Routine.Gives program.append
      (parse limits.maxDepth (start (token :: back ++ [final])))
      (parse limits.maxDepth (start (front ++ (token :: back ++ [final])))) :=
    parse_append hfree hseq hwords ⟨hnesting, htree.2⟩ rfl rfl htoken
  rw [parseWith_eq, parseWith_eq]
  revert hparse
  generalize parse limits.maxDepth (start (token :: back ++ [final])) = outcome,
    parse limits.maxDepth (start (front ++ (token :: back ++ [final]))) = outcome'
  intro hparse
  cases hparse <;> rfl

end Program

/-! ## Tokens further on -/

theorem Tape.get_map_later (hfinal : final.kind = .eof) (count : Nat) (front : List Token)
    (file : String) (index : Nat) :
    (ofTokens ((front ++ [final]).map (Token.later count)) file).get index =
      ((ofTokens (front ++ [final]) file).get index).later count := by
  have hfinal' : (final.later count).kind = .eof := hfinal
  have hget : ∀ (tokens : List Token) (last : Token), TokenStream.finalOf tokens file = last →
      (ofTokens tokens file).get index = tokens[index]?.getD last := by
    rintro tokens _ rfl
    rfl
  have hlast : TokenStream.finalOf ((front ++ [final]).map (Token.later count)) file =
      final.later count := by
    rw [List.map_append]
    exact TokenStream.finalOf_append_eof hfinal' _ _
  rw [hget _ _ hlast, hget _ _ (TokenStream.finalOf_append_eof hfinal _ _), List.getElem?_map]
  exact Option.getD_map (Token.later count) _ _

theorem Token.twins_later (count : Nat) (tokens : List Token) :
    List.Forall₂ Twin tokens (tokens.map (Token.later count)) := by
  rw [List.forall₂_map_right_iff, List.forall₂_same]
  exact fun _ _ => ⟨rfl, fun _ => rfl⟩

/-- Where the tokens stand further on, the error is about a place further on, and nothing else
changes. -/
theorem parseWith_later (hfinal : final.kind = .eof) (count : Nat) (front : List Token)
    (file : String) (limits : Limits) :
    (parseWith (.ofTokens ((front ++ [final]).map (Token.later count)) file) limits).1 =
      (parseWith (.ofTokens (front ++ [final]) file) limits).1.mapError (Error.later count) := by
  let tokens := front ++ [final]
  let twins := TwinTapes.ofTokens (Token.twins_later count tokens) file file
  have hget : ∀ index, twins.other.get index = (twins.one.get index).later count :=
    Tape.get_map_later hfinal count front file
  have halike := twins.parseWith_alike limits
  change twins.ParsesAlike (parseWith (.ofTokens tokens file) limits)
    (parseWith (.ofTokens (tokens.map (Token.later count)) file) limits) at halike
  revert halike
  generalize parseWith (.ofTokens tokens file) limits = result,
    parseWith (.ofTokens (tokens.map (Token.later count)) file) limits = result'
  intro halike
  cases halike with
  | ok hmatches =>
    have hwords : tokens.map Token.toWord = (tokens.map (Token.later count)).map Token.toWord := by
      rw [List.map_map]
      rfl
    have hprogram := Program.eq_of_matches (fun _ _ => Token.text_eq_of_paired hwords) hmatches
    exact congrArg Except.ok hprogram.symm
  | complains complaint =>
    dsimp only
    rw [hget]
    cases complaint <;> rfl
  | refuses =>
    dsimp only
    rw [hget]
    rfl

end

/-! ## Sources -/

/-- A source that is parsed can be followed by another on a new line. If this one is parsed too, the
program has the classes of both; if it has tokens, but is not parsed, the error is the one that it
has alone, as much further on as it stands; and if it has none, the program stays the same. -/
theorem parse_append_lineFeed {a b file : String} {tokens tokens' : List Token} {program : Program}
    (ha : tokenize a file = .ok tokens) (hparse : (parse tokens file).1 = .ok program)
    (hb : tokenize b file = .ok tokens') :
    ∃ joined, tokenize (a ++ "\n" ++ b) file = .ok joined ∧
      (∀ other, (parse tokens' file).1 = .ok other → ∃ both, (parse joined file).1 = .ok both ∧
        both.classes.toList = program.classes.toList ++ other.classes.toList) ∧
      (1 < tokens'.length → ∀ error, (parse tokens' file).1 = .error error →
        (parse joined file).1 = .error ⟨error.cause,
          ⟨Text.byteSize a.toList + 1 + error.position.offset, error.position.file⟩⟩) ∧
      (tokens'.length = 1 → (parse joined file).1 = .ok program) := by
  obtain ⟨front, htokens, hjoined⟩ := tokenize_append_lineFeed ha hb
  obtain ⟨front', last, htokens', hlast, hfront⟩ := exists_append_eof_of_tokenize ha
  obtain rfl : front = front' := (List.append_inj' (htokens.symm.trans htokens') rfl).1
  obtain ⟨back, final, rfl, hfinal, hback⟩ := exists_append_eof_of_tokenize hb
  rw [htokens', parse, Program.parseWith_append_eof rfl hfront hlast] at hparse
  let count := Text.byteSize a.toList + 1
  have hfinal' : (final.later count).kind = .eof := hfinal
  refine ⟨_, hjoined, ?_⟩
  rw [List.length_append, List.length_singleton, List.map_append]
  cases back with
  | nil =>
    have halone : (parse (front ++ [final.later count]) file).1 = .ok program :=
      (Program.parseWith_append_eof rfl hfront hfinal' file).mpr hparse
    refine ⟨?_, fun hlength => absurd hlength (Nat.lt_irrefl 1), fun _ => halone⟩
    intro other hother
    -- a program has a class, and so a token that does not end the source
    rw [parse, Program.parseWith_append_eof rfl hback hfinal] at hother
    cases hother.1.1
  | cons token back =>
    have htoken : (token.later count).kind ≠ .eof := hback token List.mem_cons_self
    have hboth : (parse (front ++ ((token :: back).map (Token.later count) ++
        [final].map (Token.later count))) file).1 =
          ((parse (token :: back ++ [final]) file).1.mapError (Error.later count)).map
            program.append := by
      rw [parse, List.map_cons, List.map_singleton,
        Program.parseWith_append rfl hparse.1 hparse.2 htoken hfinal', ← List.map_cons,
        ← List.map_singleton, ← List.map_append, parseWith_later hfinal]
      rfl
    rw [hboth]
    refine ⟨fun other hother => ?_, fun _ error herror => ?_, fun hlength => ?_⟩
    · rw [hother]
      exact ⟨_, rfl, program.toList_append other⟩
    · rw [herror]
      rfl
    · cases hlength

/-- The comment that ends a source does not go on in the next one. -/
theorem parse_append_lineFeed_comment :
    ∃ joined both,
      tokenize ("class A \x7b x \x7d // a" ++ "\n" ++ "class B \x7b y \x7d") "a" = .ok joined ∧
      (parse joined "a").1 = .ok both ∧ both.classes.toList =
        [⟨"A", ⟨.instanceField "x", []⟩⟩, ⟨"B", ⟨.instanceField "y", []⟩⟩] := by
  have ha : tokenize "class A \x7b x \x7d // a" "a" =
      .ok (tokensOfField "A" "x" 0 ++ [Token.endAt ⟨18, "a"⟩]) := by
    decide +kernel
  have hb : tokenize "class B \x7b y \x7d" "a" =
      .ok (tokensOfField "B" "y" 0 ++ [Token.endAt ⟨13, "a"⟩]) := by
    decide +kernel
  have hparse : (parse (tokensOfField "A" "x" 0 ++ [Token.endAt ⟨18, "a"⟩]) "a").1 =
      .ok ⟨⟨⟨"A", ⟨.instanceField "x", []⟩⟩, []⟩⟩ := by
    decide +kernel
  have hother : (parse (tokensOfField "B" "y" 0 ++ [Token.endAt ⟨13, "a"⟩]) "a").1 =
      .ok ⟨⟨⟨"B", ⟨.instanceField "y", []⟩⟩, []⟩⟩ := by
    decide +kernel
  obtain ⟨joined, hjoined, hprograms, -⟩ := parse_append_lineFeed ha hparse hb
  obtain ⟨both, hboth, hclasses⟩ := hprograms _ hother
  exact ⟨joined, both, hjoined, hboth, hclasses⟩

end FrappeSyntax
