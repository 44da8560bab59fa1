import FrappeSyntax.Proofs.Words

/-!
# What may follow a tree

A tree is read as far as its words go on. So it says something about the token after it: the words
before could not have been a longer tree of the same kind.

* `Expression.StopsBefore`, `Statement.StopsBefore`, `Member.StopsBefore`, `Fragment.StopsBefore`: a
  token may follow a tree.
* `Expression.stopsBefore_of_continuesThis_eq_false` and its like: no more is asked than that the
  token does not go on with a chain.
-/

namespace FrappeSyntax

/-- The last item of a series. -/
def Series.last (series : Series α) : α := series.rest.getLastD series.first

/-- A segment without arguments does not stop before an opening parenthesis. -/
def Caller.StopsBefore (following : Token) : Caller → Prop
  | .ref .. => following.isSingle "(" = false
  | .call .. => True

/-- A chain does not stop before a point, nor where its last segment goes on. -/
def Caller.ChainStopsBefore (following : Token) (chain : Series Caller) : Prop :=
  chain.last.StopsBefore following ∧ following.isSingle "." = false

/-- A `this` that stands alone does not stop where it would start a chain. -/
def Expression.StopsBefore (following : Token) : Expression → Prop
  | .literal .this _ => Expression.continuesThis following = false
  | .literal .. => True
  | .chain first rest => Caller.ChainStopsBefore following ⟨first, rest⟩

/-- Arguments do not stop before a comma, nor where the last of them goes on. -/
def Expression.ArgsStopBefore (following : Token) (args : Series Expression) : Prop :=
  args.last.StopsBefore following ∧ following.isSingle "," = false

/-- What is assigned stops where its expression does. -/
def Rhs.StopsBefore (following : Token) : Rhs → Prop
  | .expression value => value.StopsBefore following
  | .new _ => True

/-- A statement stops where the expression at its end does. -/
def Statement.StopsBefore (following : Token) : Statement → Prop
  | .while .. => True
  | .if .. => True
  | .return value => value.StopsBefore following
  | .assign _ rhs => rhs.StopsBefore following
  | .new _ => True

/-- A static field without a value does not stop before `=`. -/
def Member.BodyStopsBefore (following : Token) : Member → Prop
  | .staticField _ none => following.isSingle "=" = false
  | .staticField _ (some initializer) => initializer.StopsBefore following
  | _ => True

/-- A member that is a name alone does not stop before an opening parenthesis. -/
def Member.StopsBefore (following : Token) : Member → Prop
  | .staticField _ none => following.isSingle "=" = false ∧ following.isSingle "(" = false
  | .staticField _ (some initializer) => initializer.StopsBefore following
  | .instanceField _ => following.isSingle "(" = false
  | _ => True

/-- Where a fragment ends, given the token after it. -/
def Fragment.StopsBefore (following : Token) : Fragment → Prop
  | classes _ => following.kind = .eof
  | members _ => following.isSingle "\x7d" = true
  | member m => m.StopsBefore following
  | memberBody m => m.BodyStopsBefore following
  | params _ => following.isSingle "," = false
  | statements _ => following.isSingle "\x7d" = true
  | statement s => s.StopsBefore following
  | statementBody s => s.StopsBefore following
  | rhs r => r.StopsBefore following
  | expression e => e.StopsBefore following
  | refChain cs => Caller.ChainStopsBefore following cs
  | caller c => c.StopsBefore following
  | args es => Expression.ArgsStopBefore following es
  | _ => True

theorem continuesThis_eq_false_iff {following : Token} :
    Expression.continuesThis following = false ↔
      following.isSingle "." = false ∧ following.isSingle "(" = false := by
  simp [Expression.continuesThis]

section

variable {following : Token}

theorem Caller.stopsBefore_of_isSingle_eq_false (h : following.isSingle "(" = false)
    (caller : Caller) : caller.StopsBefore following := by
  cases caller with
  | ref => exact h
  | call => trivial

theorem Expression.stopsBefore_of_continuesThis_eq_false
    (h : Expression.continuesThis following = false) (expression : Expression) :
    expression.StopsBefore following := by
  obtain ⟨hpoint, hparen⟩ := continuesThis_eq_false_iff.mp h
  cases expression with
  | literal kind value =>
    cases kind with
    | this => exact h
    | _ => trivial
  | chain first rest => exact ⟨Caller.stopsBefore_of_isSingle_eq_false hparen _, hpoint⟩

theorem Rhs.stopsBefore_of_continuesThis_eq_false
    (h : Expression.continuesThis following = false) (rhs : Rhs) : rhs.StopsBefore following := by
  cases rhs with
  | expression value => exact value.stopsBefore_of_continuesThis_eq_false h
  | new => trivial

theorem Statement.stopsBefore_of_continuesThis_eq_false
    (h : Expression.continuesThis following = false) (statement : Statement) :
    statement.StopsBefore following := by
  cases statement with
  | «return» value => exact value.stopsBefore_of_continuesThis_eq_false h
  | assign name rhs => exact rhs.stopsBefore_of_continuesThis_eq_false h
  | _ => trivial

theorem Member.stopsBefore_of_continuesThis_eq_false
    (h : Expression.continuesThis following = false) (hvalue : following.isSingle "=" = false)
    (member : Member) : member.StopsBefore following := by
  obtain ⟨hpoint, hparen⟩ := continuesThis_eq_false_iff.mp h
  match member with
  | .staticField _ none => exact ⟨hvalue, hparen⟩
  | .staticField _ (some value) => exact value.stopsBefore_of_continuesThis_eq_false h
  | .instanceField _ => exact hparen
  | .staticMethod .. | .instanceMethod .. | .constructor .. => trivial

/-- Two different words of punctuation are not the same token. -/
theorem isSingle_eq_false_of_isSingle {text text' : String}
    (h : following.isSingle text = true) (hne : text ≠ text') : following.isSingle text' = false := by
  rw [Word.isSingle_iff] at h
  rw [Bool.eq_false_iff, ne_eq, Word.isSingle_iff, h]
  simpa [Word.single] using hne

theorem isSingle_eq_false_of_kind_ne (h : following.kind ≠ .single) (text : String) :
    following.isSingle text = false := by
  simp [Word.isSingle, h]

theorem continuesThis_eq_false_of_kind_ne (h : following.kind ≠ .single) :
    Expression.continuesThis following = false :=
  continuesThis_eq_false_iff.mpr
    ⟨isSingle_eq_false_of_kind_ne h _, isSingle_eq_false_of_kind_ne h _⟩

theorem continuesThis_eq_false_of_isSingle {text : String} (h : following.isSingle text = true)
    (hpoint : text ≠ ".") (hparen : text ≠ "(") : Expression.continuesThis following = false :=
  continuesThis_eq_false_iff.mpr
    ⟨isSingle_eq_false_of_isSingle h hpoint, isSingle_eq_false_of_isSingle h hparen⟩

/-- An expression stops before any punctuation that does not go on with a chain. -/
theorem Expression.stopsBefore_of_isSingle (expression : Expression) {text : String}
    (h : following.isSingle text = true) (hpoint : text ≠ ".") (hparen : text ≠ "(") :
    expression.StopsBefore following :=
  expression.stopsBefore_of_continuesThis_eq_false
    (continuesThis_eq_false_of_isSingle h hpoint hparen)

end

end FrappeSyntax
