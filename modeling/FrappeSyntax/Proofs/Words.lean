import FrappeSyntax.Fragment

/-!
# The words of a tree

A tree stands for the words that it is read from. Reading it off in order gives these words back,
but for what no tree keeps: where they stood, and the texts of the words that are told by their
kind alone.

* `Word.normal`: a word without what no tree keeps.
* `normals`: the words that tokens are, without what no tree keeps.
* `Expression.words`, `Statement.words`, `Member.words`, `Program.words`, `Fragment.words`: the words
  of a tree, in order.
-/

namespace FrappeSyntax

/-! ## Normal words -/

/-- Holds for the kinds of words that are told by their kind alone: the keywords that start a
declaration, a statement or a new object, and the end. -/
def Kind.isBare : Kind → Bool
  | .classWord | .staticWord | .whileWord | .ifWord | .returnWord | .newWord | .eof => Bool.true
  | _ => Bool.false

namespace Word

/-- The word for a kind that tells all. -/
def ofKind (kind : Kind) : Word := ⟨kind, kind.tag⟩

/-- The word that a tree gives back for a word. -/
def normal (word : Word) : Word := if word.kind.isBare then ofKind word.kind else word

@[simp] theorem kind_normal (word : Word) : word.normal.kind = word.kind := by
  unfold normal
  split <;> rfl

theorem normal_eq_ofKind {kind : Kind} (h : kind.isBare = true) {word : Word} :
    word.normal = ofKind kind ↔ word.kind = kind := by
  constructor
  · intro hw
    rw [← kind_normal, hw]
    rfl
  · rintro rfl
    rw [normal, if_pos h]

theorem normal_eq_mk {kind : Kind} (h : kind.isBare = false) {word : Word} {text : String} :
    word.normal = ⟨kind, text⟩ ↔ word = ⟨kind, text⟩ := by
  constructor
  · intro hw
    have hkind : word.kind = kind := by rw [← kind_normal, hw]
    rwa [normal, if_neg (by simp [hkind, h])] at hw
  · rintro rfl
    rw [normal, if_neg (by simp [h])]

theorem normal_of_kind_eq {kind : Kind} (h : kind.isBare = false) {word : Word}
    (hkind : word.kind = kind) : word.normal = ⟨kind, word.text⟩ := by
  rw [normal_eq_mk h, ← hkind]

@[simp] theorem normal_eq_single {word : Word} {text : String} :
    word.normal = single text ↔ word = single text :=
  normal_eq_mk rfl

end Word

/-- The words that tokens are, without what no tree keeps. -/
def normals (tokens : List Token) : List Word := tokens.map (·.toWord.normal)

theorem map_normal_map_toWord (tokens : List Token) :
    (tokens.map Token.toWord).map Word.normal = normals tokens :=
  List.map_map

@[simp] theorem normals_nil : normals [] = [] := rfl

@[simp] theorem normals_cons (token : Token) (tokens : List Token) :
    normals (token :: tokens) = token.toWord.normal :: normals tokens := rfl

@[simp] theorem normals_append (tokens tokens' : List Token) :
    normals (tokens ++ tokens') = normals tokens ++ normals tokens' :=
  List.map_append

theorem normals_eq_nil {tokens : List Token} : normals tokens = [] ↔ tokens = [] :=
  List.map_eq_nil_iff

theorem normals_eq_cons {tokens : List Token} {word : Word} {words : List Word} :
    normals tokens = word :: words ↔
      ∃ token rest, tokens = token :: rest ∧ token.toWord.normal = word ∧ normals rest = words :=
  List.map_eq_cons_iff

theorem normals_eq_append {tokens : List Token} {words words' : List Word} :
    normals tokens = words ++ words' ↔
      ∃ front back, tokens = front ++ back ∧ normals front = words ∧ normals back = words' :=
  List.map_eq_append_iff

/-- A word that can stand inside a tree: it keeps no more than a tree does, and is not the end. -/
def Word.IsInner (word : Word) : Prop := word.normal = word ∧ word.kind ≠ .eof

theorem Word.isInner_mk {kind : Kind} (h : kind.isBare = false) (text : String) :
    Word.IsInner ⟨kind, text⟩ := by
  refine ⟨(Word.normal_eq_mk h).mpr rfl, ?_⟩
  rintro rfl
  cases h

theorem Word.isInner_single (text : String) : (Word.single text).IsInner := Word.isInner_mk rfl text

theorem Word.isInner_ofKind {kind : Kind} (h : kind ≠ .eof) : (Word.ofKind kind).IsInner := by
  refine ⟨?_, h⟩
  unfold Word.normal
  split <;> rfl

/-- All words are the words of some tokens. -/
theorem exists_map_toWord_eq (words : List Word) :
    ∃ tokens : List Token, tokens.map Token.toWord = words := by
  refine ⟨words.map fun word => ⟨word, ⟨.null, .null⟩⟩, ?_⟩
  rw [List.map_map]
  exact List.map_id words

/-- Words that keep no more than a tree does are the words of some tokens. -/
theorem exists_normals_eq {words : List Word} (h : ∀ word ∈ words, word.normal = word) :
    ∃ tokens, normals tokens = words := by
  obtain ⟨tokens, rfl⟩ := exists_map_toWord_eq words
  refine ⟨tokens, ?_⟩
  rw [← map_normal_map_toWord]
  exact (List.map_congr_left h).trans (List.map_id _)

/-- The words of literals and segments keep their texts. -/
theorem LiteralKind.isBare_kind (kind : LiteralKind) : kind.kind.isBare = Bool.false := by
  cases kind <;> rfl

theorem CallerKind.isBare_kind (kind : CallerKind) : kind.kind.isBare = Bool.false := by
  cases kind <;> rfl

/-! ## Words of lists -/

/-- The words of items that stand one after the other. -/
def wordsOfRun (words : α → List Word) (items : List α) : List Word := items.flatMap words

/-- The words of items that each follow a separator. -/
def wordsOfMore (separator : String) (words : α → List Word) (items : List α) : List Word :=
  items.flatMap fun item => .single separator :: words item

/-- The words of items with separators between them. -/
def wordsOfSeparated (separator : String) (words : α → List Word) : List α → List Word
  | [] => []
  | first :: rest => words first ++ wordsOfMore separator words rest

/-- The words of what stands in parentheses. -/
def wordsInParens (inner : List Word) : List Word := .single "(" :: (inner ++ [.single ")"])

/-- The words of what stands in braces. -/
def wordsInBraces (inner : List Word) : List Word := .single "\x7b" :: (inner ++ [.single "\x7d"])

theorem isInner_of_mem_wordsOfRun {words : α → List Word}
    (h : ∀ item, ∀ word ∈ words item, word.IsInner) (items : List α) :
    ∀ word ∈ wordsOfRun words items, word.IsInner := by
  intro word hword
  obtain ⟨item, -, hmem⟩ := List.mem_flatMap.mp hword
  exact h item word hmem

theorem isInner_of_mem_wordsOfMore {separator : String} {words : α → List Word}
    (h : ∀ item, ∀ word ∈ words item, word.IsInner) (items : List α) :
    ∀ word ∈ wordsOfMore separator words items, word.IsInner :=
  isInner_of_mem_wordsOfRun (fun item =>
    List.forall_mem_cons.mpr ⟨Word.isInner_single separator, h item⟩) items

theorem isInner_of_mem_wordsOfSeparated {separator : String} {words : α → List Word}
    (h : ∀ item, ∀ word ∈ words item, word.IsInner) (items : List α) :
    ∀ word ∈ wordsOfSeparated separator words items, word.IsInner := by
  cases items with
  | nil => simp [wordsOfSeparated]
  | cons first rest => exact List.forall_mem_append.mpr ⟨h first, isInner_of_mem_wordsOfMore h rest⟩

theorem isInner_of_mem_wordsInParens {inner : List Word} (h : ∀ word ∈ inner, word.IsInner) :
    ∀ word ∈ wordsInParens inner, word.IsInner := by
  simpa [wordsInParens, or_imp, forall_and, Word.isInner_single] using h

theorem isInner_of_mem_wordsInBraces {inner : List Word} (h : ∀ word ∈ inner, word.IsInner) :
    ∀ word ∈ wordsInBraces inner, word.IsInner := by
  simpa [wordsInBraces, or_imp, forall_and, Word.isInner_single] using h

/-! ## Words of expressions -/

mutual

/-- The words of an expression. -/
def Expression.words : Expression → List Word
  | .literal kind value => [⟨kind.kind, value⟩]
  | .chain first rest => first.words ++ Caller.wordsMore rest

/-- The words of a segment. -/
def Caller.words : Caller → List Word
  | .ref kind name => [⟨kind.kind, name⟩]
  | .call kind name args => ⟨kind.kind, name⟩ :: wordsInParens (Expression.wordsOfArgs args)

/-- The words of the segments that go on with a chain. -/
def Caller.wordsMore : List Caller → List Word
  | [] => []
  | caller :: rest => .single "." :: (caller.words ++ Caller.wordsMore rest)

/-- The words of arguments. -/
def Expression.wordsOfArgs : List Expression → List Word
  | [] => []
  | first :: rest => first.words ++ Expression.wordsMore rest

/-- The words of the arguments after the first. -/
def Expression.wordsMore : List Expression → List Word
  | [] => []
  | expression :: rest => .single "," :: (expression.words ++ Expression.wordsMore rest)

end

theorem Caller.wordsMore_eq (callers : List Caller) :
    Caller.wordsMore callers = FrappeSyntax.wordsOfMore "." Caller.words callers := by
  induction callers with
  | nil => rfl
  | cons caller rest ih => rw [Caller.wordsMore, ih]; rfl

theorem Expression.wordsMore_eq (expressions : List Expression) :
    Expression.wordsMore expressions =
      FrappeSyntax.wordsOfMore "," Expression.words expressions := by
  induction expressions with
  | nil => rfl
  | cons expression rest ih => rw [Expression.wordsMore, ih]; rfl

theorem Expression.wordsOfArgs_eq (expressions : List Expression) :
    Expression.wordsOfArgs expressions =
      wordsOfSeparated "," Expression.words expressions := by
  cases expressions with
  | nil => rfl
  | cons first rest => rw [Expression.wordsOfArgs, Expression.wordsMore_eq]; rfl

/-- The words of a new object. -/
def NewObject.words (object : NewObject) : List Word :=
  .ofKind .newWord :: ⟨.className, object.className⟩ ::
    wordsInParens (wordsOfSeparated "," Expression.words object.args)

/-! ## Words of statements -/

/-- The words of what is assigned. -/
def Rhs.words : Rhs → List Word
  | .expression value => value.words
  | .new object => object.words

mutual

/-- The words of a statement. -/
def Statement.words : Statement → List Word
  | .while condition body =>
    .ofKind .whileWord :: (wordsInParens condition.words ++
      wordsInBraces (Statement.wordsOfAll body))
  | .if condition body =>
    .ofKind .ifWord :: (wordsInParens condition.words ++ wordsInBraces (Statement.wordsOfAll body))
  | .return value => .ofKind .returnWord :: value.words
  | .assign name rhs => ⟨.name, name⟩ :: .single "=" :: rhs.words
  | .new object => object.words

/-- The words of statements. -/
def Statement.wordsOfAll : List Statement → List Word
  | [] => []
  | statement :: rest => statement.words ++ Statement.wordsOfAll rest

end

theorem Statement.wordsOfAll_eq (statements : List Statement) :
    Statement.wordsOfAll statements = wordsOfRun Statement.words statements := by
  induction statements with
  | nil => rfl
  | cons statement rest ih => rw [Statement.wordsOfAll, ih]; rfl

/-- The words of a block. -/
def Statement.wordsOfBlock (body : List Statement) : List Word :=
  wordsInBraces (wordsOfRun Statement.words body)

/-! ## Words of programs -/

/-- The word for a parameter. -/
def Method.wordsOfParam (name : String) : List Word := [⟨.name, name⟩]

/-- The words of the parameters and the body of a method. -/
def Method.words (method : Method) : List Word :=
  wordsInParens (wordsOfSeparated "," Method.wordsOfParam method.params) ++
    Statement.wordsOfBlock method.body

/-- The words of a member. -/
def Member.words : Member → List Word
  | .staticField name none => [.ofKind .staticWord, ⟨.name, name⟩]
  | .staticField name (some initializer) =>
    .ofKind .staticWord :: ⟨.name, name⟩ :: .single "=" :: initializer.words
  | .staticMethod name method => .ofKind .staticWord :: ⟨.name, name⟩ :: method.words
  | .instanceField name => [⟨.name, name⟩]
  | .instanceMethod name method => ⟨.name, name⟩ :: method.words
  | .constructor name method => ⟨.className, name⟩ :: method.words

/-- The words of a class. -/
def ClassDef.words (classDef : ClassDef) : List Word :=
  .ofKind .classWord :: ⟨.className, classDef.name⟩ ::
    wordsInBraces (wordsOfRun Member.words classDef.members.toList)

/-- The words of a program, with the end. -/
def Program.words (program : Program) : List Word :=
  wordsOfRun ClassDef.words program.classes.toList ++ [.ofKind .eof]

/-- The words of a fragment. -/
def Fragment.words : Fragment → List Word
  | program p => p.words
  | classes cs => wordsOfRun ClassDef.words cs.toList
  | classDef c => c.words
  | members ms => wordsOfRun Member.words ms.toList
  | member m => m.words
  | memberBody m => m.words
  | method m => m.words
  | params names => wordsOfSeparated "," Method.wordsOfParam names.toList
  | methodBody body => Statement.wordsOfBlock body
  | statements ss => wordsOfRun Statement.words ss.toList
  | statement s => s.words
  | statementBody s => s.words
  | loopBody body => Statement.wordsOfBlock body
  | rhs r => r.words
  | newObject o => o.words
  | expression e => e.words
  | refChain cs => wordsOfSeparated "." Caller.words cs.toList
  | caller c => c.words
  | argsPart es => wordsInParens (wordsOfSeparated "," Expression.words es)
  | args es => wordsOfSeparated "," Expression.words es.toList

end FrappeSyntax
