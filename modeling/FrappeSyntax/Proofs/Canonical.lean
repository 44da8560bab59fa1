import FrappeSyntax.Proofs.Shape

/-!
# Canonical trees

The words of a tree are the words of a canonical tree too: a chain that is the word `this` alone is
made a literal.

* `Program.words_canonical`, `Program.isCanonical_canonical`: the canonical form of a program has the
  same words, and is canonical.
-/

namespace FrappeSyntax

/-! ## Expressions -/

mutual

/-- The canonical form of an expression. -/
def Expression.canonical : Expression → Expression
  | .literal kind value => .literal kind value
  | .chain first rest =>
    if first.isBareThis && rest.isEmpty then .literal .this first.name
    else .chain first.canonical (Caller.canonicalAll rest)

/-- The canonical form of a segment. -/
def Caller.canonical : Caller → Caller
  | .ref kind name => .ref kind name
  | .call kind name args => .call kind name (Expression.canonicalAll args)

/-- The canonical forms of segments. -/
def Caller.canonicalAll : List Caller → List Caller
  | [] => []
  | caller :: rest => caller.canonical :: Caller.canonicalAll rest

/-- The canonical forms of expressions. -/
def Expression.canonicalAll : List Expression → List Expression
  | [] => []
  | expression :: rest => expression.canonical :: Expression.canonicalAll rest

end

/-- The canonical form of a segment is the word `this` alone only if the segment is. -/
theorem Caller.isBareThis_canonical (caller : Caller) :
    caller.canonical.isBareThis = caller.isBareThis := by
  cases caller <;> rfl

theorem Caller.isEmpty_canonicalAll (callers : List Caller) :
    (Caller.canonicalAll callers).isEmpty = callers.isEmpty := by
  cases callers <;> rfl

/-- A chain that is the word `this` alone has the words of the literal. -/
theorem Expression.words_of_isBareThis {first : Caller} {rest : List Caller}
    (h : (first.isBareThis && rest.isEmpty) = true) :
    (Expression.chain first rest).words = [⟨.this, first.name⟩] := by
  match first, rest, h with
  | .ref .this name, [], _ => rfl

mutual

theorem Expression.words_canonical : ∀ e : Expression, e.canonical.words = e.words
  | .literal .. => rfl
  | .chain first rest => by
    rw [Expression.canonical]
    split
    next h => exact (Expression.words_of_isBareThis h).symm
    next =>
      rw [Expression.words, Expression.words, first.words_canonical,
        Caller.wordsMore_canonicalAll rest]

theorem Caller.words_canonical : ∀ c : Caller, c.canonical.words = c.words
  | .ref .. => rfl
  | .call kind name args => by
    rw [Caller.canonical, Caller.words, Caller.words, Expression.wordsOfArgs_canonicalAll args]

theorem Caller.wordsMore_canonicalAll :
    ∀ cs : List Caller, Caller.wordsMore (Caller.canonicalAll cs) = Caller.wordsMore cs
  | [] => rfl
  | c :: cs => by
    rw [Caller.canonicalAll, Caller.wordsMore, Caller.wordsMore, c.words_canonical,
      Caller.wordsMore_canonicalAll cs]

theorem Expression.wordsOfArgs_canonicalAll :
    ∀ es : List Expression,
      Expression.wordsOfArgs (Expression.canonicalAll es) = Expression.wordsOfArgs es
  | [] => rfl
  | e :: es => by
    rw [Expression.canonicalAll, Expression.wordsOfArgs, Expression.wordsOfArgs, e.words_canonical,
      Expression.wordsMore_canonicalAll es]

theorem Expression.wordsMore_canonicalAll :
    ∀ es : List Expression,
      Expression.wordsMore (Expression.canonicalAll es) = Expression.wordsMore es
  | [] => rfl
  | e :: es => by
    rw [Expression.canonicalAll, Expression.wordsMore, Expression.wordsMore, e.words_canonical,
      Expression.wordsMore_canonicalAll es]

end

mutual

theorem Expression.isCanonical_canonical : ∀ e : Expression, e.canonical.isCanonical = true
  | .literal .. => rfl
  | .chain first rest => by
    rw [Expression.canonical]
    split
    next => rfl
    next h =>
      rw [Expression.isCanonical, first.isBareThis_canonical, Caller.isEmpty_canonicalAll,
        first.isCanonical_canonical, Caller.allCanonical_canonicalAll rest,
        Bool.eq_false_iff.mpr h]
      rfl

theorem Caller.isCanonical_canonical : ∀ c : Caller, c.canonical.isCanonical = true
  | .ref .. => rfl
  | .call _ _ args => Expression.allCanonical_canonicalAll args

theorem Caller.allCanonical_canonicalAll :
    ∀ cs : List Caller, Caller.allCanonical (Caller.canonicalAll cs) = true
  | [] => rfl
  | c :: cs => by
    rw [Caller.canonicalAll, Caller.allCanonical, c.isCanonical_canonical,
      Caller.allCanonical_canonicalAll cs]
    rfl

theorem Expression.allCanonical_canonicalAll :
    ∀ es : List Expression, Expression.allCanonical (Expression.canonicalAll es) = true
  | [] => rfl
  | e :: es => by
    rw [Expression.canonicalAll, Expression.allCanonical, e.isCanonical_canonical,
      Expression.allCanonical_canonicalAll es]
    rfl

end

/-- The canonical form of a new object. -/
def NewObject.canonical (object : NewObject) : NewObject :=
  ⟨object.className, Expression.canonicalAll object.args⟩

theorem NewObject.words_canonical (object : NewObject) :
    object.canonical.words = object.words := by
  rw [words, words, ← Expression.wordsOfArgs_eq, ← Expression.wordsOfArgs_eq, canonical,
    Expression.wordsOfArgs_canonicalAll]

theorem NewObject.isCanonical_canonical (object : NewObject) :
    object.canonical.isCanonical = true :=
  Expression.allCanonical_canonicalAll object.args

/-! ## Statements -/

/-- The canonical form of what is assigned. -/
def Rhs.canonical : Rhs → Rhs
  | .expression value => .expression value.canonical
  | .new object => .new object.canonical

theorem Rhs.words_canonical (rhs : Rhs) : rhs.canonical.words = rhs.words := by
  cases rhs with
  | expression value => exact value.words_canonical
  | new object => exact object.words_canonical

theorem Rhs.isCanonical_canonical (rhs : Rhs) : rhs.canonical.isCanonical = true := by
  cases rhs with
  | expression value => exact value.isCanonical_canonical
  | new object => exact object.isCanonical_canonical

mutual

/-- The canonical form of a statement. -/
def Statement.canonical : Statement → Statement
  | .while condition body => .while condition.canonical (Statement.canonicalAll body)
  | .if condition body => .if condition.canonical (Statement.canonicalAll body)
  | .return value => .return value.canonical
  | .assign name rhs => .assign name rhs.canonical
  | .new object => .new object.canonical

/-- The canonical forms of statements. -/
def Statement.canonicalAll : List Statement → List Statement
  | [] => []
  | statement :: rest => statement.canonical :: Statement.canonicalAll rest

end

mutual

theorem Statement.words_canonical : ∀ s : Statement, s.canonical.words = s.words
  | .while condition body => by
    rw [Statement.canonical, Statement.words, Statement.words, condition.words_canonical,
      Statement.wordsOfAll_canonicalAll body]
  | .if condition body => by
    rw [Statement.canonical, Statement.words, Statement.words, condition.words_canonical,
      Statement.wordsOfAll_canonicalAll body]
  | .return value => by
    rw [Statement.canonical, Statement.words, Statement.words, value.words_canonical]
  | .assign name rhs => by
    rw [Statement.canonical, Statement.words, Statement.words, rhs.words_canonical]
  | .new object => object.words_canonical

theorem Statement.wordsOfAll_canonicalAll :
    ∀ ss : List Statement,
      Statement.wordsOfAll (Statement.canonicalAll ss) = Statement.wordsOfAll ss
  | [] => rfl
  | s :: ss => by
    rw [Statement.canonicalAll, Statement.wordsOfAll, Statement.wordsOfAll, s.words_canonical,
      Statement.wordsOfAll_canonicalAll ss]

end

mutual

theorem Statement.isCanonical_canonical : ∀ s : Statement, s.canonical.isCanonical = true
  | .while condition body => by
    rw [Statement.canonical, Statement.isCanonical, condition.isCanonical_canonical,
      Statement.allCanonical_canonicalAll body]
    rfl
  | .if condition body => by
    rw [Statement.canonical, Statement.isCanonical, condition.isCanonical_canonical,
      Statement.allCanonical_canonicalAll body]
    rfl
  | .return value => value.isCanonical_canonical
  | .assign _ rhs => rhs.isCanonical_canonical
  | .new object => object.isCanonical_canonical

theorem Statement.allCanonical_canonicalAll :
    ∀ ss : List Statement, Statement.allCanonical (Statement.canonicalAll ss) = true
  | [] => rfl
  | s :: ss => by
    rw [Statement.canonicalAll, Statement.allCanonical, s.isCanonical_canonical,
      Statement.allCanonical_canonicalAll ss]
    rfl

end

/-! ## Programs -/

/-- The canonical form of a method. -/
def Method.canonical (method : Method) : Method :=
  ⟨method.params, Statement.canonicalAll method.body⟩

theorem Method.words_canonical (method : Method) : method.canonical.words = method.words := by
  rw [words, words, Statement.wordsOfBlock, Statement.wordsOfBlock, ← Statement.wordsOfAll_eq,
    ← Statement.wordsOfAll_eq, canonical, Statement.wordsOfAll_canonicalAll]

/-- The canonical form of a member. -/
def Member.canonical : Member → Member
  | staticField name initializer => staticField name (initializer.map Expression.canonical)
  | staticMethod name method => staticMethod name method.canonical
  | instanceField name => instanceField name
  | instanceMethod name method => instanceMethod name method.canonical
  | constructor name method => constructor name method.canonical

theorem Member.words_canonical (member : Member) : member.canonical.words = member.words := by
  match member with
  | staticField _ none | instanceField _ => rfl
  | staticField _ (some initializer) =>
    rw [canonical, Option.map_some, words, words, initializer.words_canonical]
  | staticMethod _ method => rw [canonical, words, words, method.words_canonical]
  | instanceMethod _ method => rw [canonical, words, words, method.words_canonical]
  | constructor _ method => rw [canonical, words, words, method.words_canonical]

theorem Member.isCanonical_canonical (member : Member) : member.canonical.isCanonical = true := by
  match member with
  | staticField _ none | instanceField _ => rfl
  | staticField _ (some initializer) => exact initializer.isCanonical_canonical
  | staticMethod _ method | instanceMethod _ method | constructor _ method =>
    exact Statement.allCanonical_canonicalAll method.body

/-- A series with a function applied to each item. -/
def Series.map (f : α → β) (series : Series α) : Series β := ⟨f series.first, series.rest.map f⟩

theorem Series.toList_map (f : α → β) (series : Series α) :
    (series.map f).toList = series.toList.map f := rfl

theorem wordsOfRun_map {words : α → List Word} {f : α → α} (h : ∀ a, words (f a) = words a)
    (items : List α) : wordsOfRun words (items.map f) = wordsOfRun words items := by
  rw [wordsOfRun, wordsOfRun, List.flatMap_map]
  simp only [h]

/-- The canonical form of a class. -/
def ClassDef.canonical (classDef : ClassDef) : ClassDef :=
  ⟨classDef.name, classDef.members.map Member.canonical⟩

theorem ClassDef.words_canonical (classDef : ClassDef) :
    classDef.canonical.words = classDef.words := by
  rw [words, words, canonical, Series.toList_map, wordsOfRun_map Member.words_canonical]

theorem ClassDef.isCanonical_canonical (classDef : ClassDef) :
    classDef.canonical.isCanonical = true := by
  simp [isCanonical, canonical, Series.toList_map, Member.isCanonical_canonical]

/-- The canonical form of a program. -/
def Program.canonical (program : Program) : Program := ⟨program.classes.map ClassDef.canonical⟩

theorem Program.words_canonical (program : Program) : program.canonical.words = program.words := by
  rw [words, words, canonical, Series.toList_map, wordsOfRun_map ClassDef.words_canonical]

theorem Program.isCanonical_canonical (program : Program) :
    program.canonical.isCanonical = true := by
  simp [isCanonical, canonical, Series.toList_map, ClassDef.isCanonical_canonical]

end FrappeSyntax
