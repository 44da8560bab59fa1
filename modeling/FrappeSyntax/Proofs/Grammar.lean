import FrappeSyntax.Proofs.Words

/-!
# The grammar

The grammar is a table: for each production the sequences of symbols that it stands for. What words
a sequence of symbols derives is said by the table alone, and not by the routines that read them.

* `Production.rules`: the table.
* `Derives`: symbols derive words.
* `Derives.of_rule`, `Derives.part_cons`: a production derives what its rules derive.
* `Derives.kind_ne`, `Derives.length_le`: only a program ends a source, and nothing derives no words.
-/

namespace FrappeSyntax

/-- A symbol of the grammar. -/
inductive Symbol
  /-- A word of a kind, whatever its text. -/
  | kind (kind : Kind)
  /-- A word of punctuation. -/
  | mark (text : String)
  /-- What a production stands for. -/
  | part (production : Production)
deriving DecidableEq

/-- The sequences of symbols that a production stands for. -/
def Production.rules : Production → List (List Symbol)
  | program => [[.part .classes, .kind .eof]]
  | classes => [[.part .classBody, .part .classes], [.part .classBody]]
  | classBody => [[.kind .classWord, .kind .className, .mark "\x7b", .part .members, .mark "\x7d"]]
  | members => [[.part .member, .part .members], [.part .member]]
  | member =>
    [[.part .staticField], [.part .staticMethod], [.part .instanceField], [.part .instanceMethod],
      [.part .constructor]]
  | staticField =>
    [[.kind .staticWord, .kind .name], [.kind .staticWord, .kind .name, .mark "=", .part .expression]]
  | staticMethod => [[.kind .staticWord, .kind .name, .part .restOfMethod]]
  | instanceField => [[.kind .name]]
  | instanceMethod => [[.kind .name, .part .restOfMethod]]
  | constructor => [[.kind .className, .part .restOfMethod]]
  | restOfMethod =>
    [[.mark "(", .mark ")", .part .methodBody], [.mark "(", .part .params, .mark ")", .part .methodBody]]
  | params => [[.kind .name, .mark ",", .part .params], [.kind .name]]
  | methodBody | loopBody =>
    [[.mark "\x7b", .mark "\x7d"], [.mark "\x7b", .part .statements, .mark "\x7d"]]
  | statements => [[.part .statement, .part .statements], [.part .statement]]
  | statement =>
    [[.part .whileStatement], [.part .ifStatement], [.part .returnStatement], [.part .assignment],
      [.part .newObject]]
  | whileStatement => [[.kind .whileWord, .mark "(", .part .expression, .mark ")", .part .loopBody]]
  | ifStatement => [[.kind .ifWord, .mark "(", .part .expression, .mark ")", .part .loopBody]]
  | returnStatement => [[.kind .returnWord, .part .expression]]
  | assignment => [[.kind .name, .mark "=", .part .rhs]]
  | rhs => [[.part .expression], [.part .newObject]]
  | newObject => [[.kind .newWord, .kind .className, .part .argsPart]]
  | expression =>
    [[.kind .string], [.kind .number], [.kind .null], [.kind .this], [.kind .true], [.kind .false],
      [.part .refChain]]
  | refChain => [[.part .caller, .mark ".", .part .refChain], [.part .caller]]
  | caller =>
    [[.kind .name], [.kind .className], [.kind .this], [.kind .name, .part .argsPart],
      [.kind .className, .part .argsPart], [.kind .this, .part .argsPart]]
  | argsPart => [[.mark "(", .mark ")"], [.mark "(", .part .args, .mark ")"]]
  | args => [[.part .expression, .mark ",", .part .args], [.part .expression]]

/-- Symbols derive words. -/
inductive Derives : List Symbol → List Word → Prop
  | nil : Derives [] []
  | kind {kind : Kind} {word : Word} {rest : List Symbol} {words : List Word} :
    word.kind = kind → Derives rest words → Derives (.kind kind :: rest) (word :: words)
  | mark {text : String} {rest : List Symbol} {words : List Word} :
    Derives rest words → Derives (.mark text :: rest) (.single text :: words)
  | part {production : Production} {rule rest : List Symbol} {front back : List Word} :
    rule ∈ production.rules → Derives rule front → Derives rest back →
    Derives (.part production :: rest) (front ++ back)

namespace Derives

variable {symbols rest rule : List Symbol} {words words' : List Word} {production : Production}

theorem append (h : Derives symbols words) (h' : Derives rest words') :
    Derives (symbols ++ rest) (words ++ words') := by
  induction h with
  | nil => exact h'
  | kind hkind _ ih => exact .kind hkind ih
  | mark _ ih => exact .mark ih
  | part hrule hfront _ _ ih =>
    rw [List.append_assoc]
    exact .part hrule hfront ih

/-- A production derives what one of its rules derives. -/
theorem of_rule (hrule : rule ∈ production.rules) (h : Derives rule words) :
    Derives [.part production] words := by
  have hpart := Derives.part hrule h .nil
  rwa [List.append_nil] at hpart

/-- What is derived first from a production, and then from what follows it. -/
theorem part_cons (h : Derives [.part production] words) (h' : Derives rest words') :
    Derives (.part production :: rest) (words ++ words') :=
  append h h'

/-- The grammar does not see what no tree keeps. -/
theorem of_map_normal (h : Derives symbols (words.map Word.normal)) : Derives symbols words := by
  generalize hwords : words.map Word.normal = normal at h
  induction h generalizing words with
  | nil =>
    rw [List.map_eq_nil_iff.mp hwords]
    exact .nil
  | kind hkind _ ih =>
    obtain ⟨word, rest, rfl, rfl, hrest⟩ := List.map_eq_cons_iff.mp hwords
    rw [Word.kind_normal] at hkind
    exact .kind hkind (ih hrest)
  | mark _ ih =>
    obtain ⟨word, rest, rfl, hword, hrest⟩ := List.map_eq_cons_iff.mp hwords
    rw [Word.normal_eq_single.mp hword]
    exact .mark (ih hrest)
  | part hrule _ _ ihfront ihrest =>
    obtain ⟨front, back, rfl, hfront, hback⟩ := List.map_eq_append_iff.mp hwords
    exact .part hrule (ihfront hfront) (ihrest hback)

end Derives

/-! ## What all words have in common -/

/-- Holds for the symbols that derive the end of a source. -/
def Symbol.isEnd : Symbol → Bool
  | .kind expected => expected == .eof
  | .mark _ => false
  | .part production => production == .program

theorem Production.isEnd_eq_false_of_mem (production : Production) (h : production ≠ .program) :
    ∀ rule ∈ production.rules, ∀ symbol ∈ rule, symbol.isEnd = false := by
  cases production with
  | program => exact absurd rfl h
  | _ => decide

theorem Production.ne_nil_of_mem (production : Production) :
    ∀ rule ∈ production.rules, rule ≠ [] := by
  cases production <;> decide

namespace Derives

variable {symbols : List Symbol} {words : List Word}

/-- Only a program derives the end of a source. -/
theorem kind_ne (h : Derives symbols words) (hend : ∀ symbol ∈ symbols, symbol.isEnd = false) :
    ∀ word ∈ words, word.kind ≠ .eof := by
  induction h with
  | nil => exact List.forall_mem_nil _
  | kind hkind _ ih =>
    rw [List.forall_mem_cons] at hend
    exact List.forall_mem_cons.mpr ⟨hkind ▸ ne_of_beq_false hend.1, ih hend.2⟩
  | mark _ ih =>
    rw [List.forall_mem_cons] at hend
    exact List.forall_mem_cons.mpr ⟨Kind.noConfusion, ih hend.2⟩
  | @part production rule _ _ _ hrule _ _ ihfront ihrest =>
    rw [List.forall_mem_cons] at hend
    have hne : production ≠ .program := ne_of_beq_false hend.1
    exact List.forall_mem_append.mpr
      ⟨ihfront (production.isEnd_eq_false_of_mem hne rule hrule), ihrest hend.2⟩

/-- Each symbol derives at least one word. -/
theorem length_le (h : Derives symbols words) : symbols.length ≤ words.length := by
  induction h with
  | nil => exact Nat.le_refl 0
  | kind _ _ ih | mark _ ih => exact Nat.succ_le_succ ih
  | @part production rule _ _ _ hrule _ _ ihfront ihrest =>
    have hpos := List.length_pos_iff.mpr (production.ne_nil_of_mem rule hrule)
    rw [List.length_cons, List.length_append]
    omega

/-- The last word of a program ends the source, and no other does. -/
theorem exists_of_program (h : Derives [.part .program] words) :
    ∃ front last, words = front ++ [last] ∧ last.kind = .eof ∧
      ∀ word ∈ front, word.kind ≠ .eof := by
  cases h with
  | part hrule hprogram hnil =>
    obtain rfl := List.mem_singleton.mp hrule
    cases hnil
    cases hprogram with
    | @part _ _ _ front _ hclasses hfront hend =>
      cases hend with
      | @kind _ last _ _ hlast hrest =>
        cases hrest
        have hseries : Derives [.part .classes] front := .of_rule hclasses hfront
        exact ⟨front, last, List.append_nil _, hlast, hseries.kind_ne (by decide)⟩

end Derives

end FrappeSyntax
