import FrappeSyntax.Program
import Mathlib.Data.List.Forall2

/-!
# Trees of the same shape

Two trees match if they have the same shape, and the texts that they hold in the same places stand in
a given relation. If this relation is equality, the trees are equal.

* `Program.Matches`: two programs match.
* `Program.eq_of_matches`: programs that match in equal texts are equal.
-/

namespace FrappeSyntax

section

variable (pairs : String → String → Prop)

mutual

/-- Two expressions match. -/
inductive Expression.Matches : Expression → Expression → Prop
  | literal {value value' : String} (kind : LiteralKind) : pairs value value' →
    Expression.Matches (.literal kind value) (.literal kind value')
  | chain {first first' : Caller} {rest rest' : List Caller} : Caller.Matches first first' →
    List.Forall₂ Caller.Matches rest rest' →
    Expression.Matches (.chain first rest) (.chain first' rest')

/-- Two segments match. -/
inductive Caller.Matches : Caller → Caller → Prop
  | ref {name name' : String} (kind : CallerKind) : pairs name name' →
    Caller.Matches (.ref kind name) (.ref kind name')
  | call {name name' : String} {args args' : List Expression} (kind : CallerKind) :
    pairs name name' → List.Forall₂ Expression.Matches args args' →
    Caller.Matches (.call kind name args) (.call kind name' args')

end

/-- Two series match if their items do. -/
def Series.Matches (rel : α → β → Prop) (series : Series α) (series' : Series β) : Prop :=
  List.Forall₂ rel series.toList series'.toList

/-- Two new objects match. -/
structure NewObject.Matches (object object' : NewObject) : Prop where
  className : pairs object.className object'.className
  args : List.Forall₂ (Expression.Matches pairs) object.args object'.args

/-- What is assigned matches. -/
inductive Rhs.Matches : Rhs → Rhs → Prop
  | expression {value value' : Expression} : Expression.Matches pairs value value' →
    Rhs.Matches (.expression value) (.expression value')
  | new {object object' : NewObject} : NewObject.Matches pairs object object' →
    Rhs.Matches (.new object) (.new object')

/-- Two statements match. -/
inductive Statement.Matches : Statement → Statement → Prop
  | while {condition condition' : Expression} {body body' : List Statement} :
    Expression.Matches pairs condition condition' → List.Forall₂ Statement.Matches body body' →
    Statement.Matches (.while condition body) (.while condition' body')
  | if {condition condition' : Expression} {body body' : List Statement} :
    Expression.Matches pairs condition condition' → List.Forall₂ Statement.Matches body body' →
    Statement.Matches (.if condition body) (.if condition' body')
  | return {value value' : Expression} : Expression.Matches pairs value value' →
    Statement.Matches (.return value) (.return value')
  | assign {name name' : String} {rhs rhs' : Rhs} : pairs name name' → Rhs.Matches pairs rhs rhs' →
    Statement.Matches (.assign name rhs) (.assign name' rhs')
  | new {object object' : NewObject} : NewObject.Matches pairs object object' →
    Statement.Matches (.new object) (.new object')

/-- Two methods match. -/
structure Method.Matches (method method' : Method) : Prop where
  params : List.Forall₂ pairs method.params method'.params
  body : List.Forall₂ (Statement.Matches pairs) method.body method'.body

/-- Two members match. -/
inductive Member.Matches : Member → Member → Prop
  | staticField {name name' : String} {initializer initializer' : Option Expression} :
    pairs name name' → Option.Rel (Expression.Matches pairs) initializer initializer' →
    Member.Matches (.staticField name initializer) (.staticField name' initializer')
  | staticMethod {name name' : String} {method method' : Method} : pairs name name' →
    Method.Matches pairs method method' →
    Member.Matches (.staticMethod name method) (.staticMethod name' method')
  | instanceField {name name' : String} : pairs name name' →
    Member.Matches (.instanceField name) (.instanceField name')
  | instanceMethod {name name' : String} {method method' : Method} : pairs name name' →
    Method.Matches pairs method method' →
    Member.Matches (.instanceMethod name method) (.instanceMethod name' method')
  | constructor {name name' : String} {method method' : Method} : pairs name name' →
    Method.Matches pairs method method' →
    Member.Matches (.constructor name method) (.constructor name' method')

/-- Two classes match. -/
structure ClassDef.Matches (classDef classDef' : ClassDef) : Prop where
  name : pairs classDef.name classDef'.name
  members : Series.Matches (Member.Matches pairs) classDef.members classDef'.members

/-- Two programs match. -/
structure Program.Matches (program program' : Program) : Prop where
  classes : Series.Matches (ClassDef.Matches pairs) program.classes program'.classes

end

/-! ## Equal texts -/

theorem eq_of_forall₂_of_eq {rel : α → α → Prop} (h : ∀ a a', rel a a' → a = a') {as as' : List α}
    (hall : List.Forall₂ rel as as') : as = as' :=
  List.forall₂_eq_eq_eq ▸ hall.imp h

theorem Series.eq_of_matches {rel : α → α → Prop} (h : ∀ a a', rel a a' → a = a')
    {series series' : Series α} (hall : series.Matches rel series') : series = series' := by
  have hlist := eq_of_forall₂_of_eq h hall
  obtain ⟨first, rest⟩ := series
  obtain ⟨first', rest'⟩ := series'
  obtain ⟨rfl, rfl⟩ := List.cons.inj hlist
  rfl

section

variable {pairs : String → String → Prop}

mutual

theorem Expression.eq_of_matches (heq : ∀ text text', pairs text text' → text = text') :
    ∀ {e e' : Expression}, e.Matches pairs e' → e = e'
  | .literal .., _, .literal _ hvalue => by rw [heq _ _ hvalue]
  | .chain .., _, .chain hfirst hrest => by
    rw [Caller.eq_of_matches heq hfirst, Caller.eq_of_forall₂ heq hrest]

theorem Caller.eq_of_matches (heq : ∀ text text', pairs text text' → text = text') :
    ∀ {c c' : Caller}, c.Matches pairs c' → c = c'
  | .ref .., _, .ref _ hname => by rw [heq _ _ hname]
  | .call .., _, .call _ hname hargs => by rw [heq _ _ hname, Expression.eq_of_forall₂ heq hargs]

theorem Caller.eq_of_forall₂ (heq : ∀ text text', pairs text text' → text = text') :
    ∀ {cs cs' : List Caller}, List.Forall₂ (Caller.Matches pairs) cs cs' → cs = cs'
  | [], _, .nil => rfl
  | _ :: _, _, .cons h hs => by rw [Caller.eq_of_matches heq h, Caller.eq_of_forall₂ heq hs]

theorem Expression.eq_of_forall₂ (heq : ∀ text text', pairs text text' → text = text') :
    ∀ {es es' : List Expression}, List.Forall₂ (Expression.Matches pairs) es es' → es = es'
  | [], _, .nil => rfl
  | _ :: _, _, .cons h hs => by rw [Expression.eq_of_matches heq h, Expression.eq_of_forall₂ heq hs]

end

theorem NewObject.eq_of_matches (heq : ∀ text text', pairs text text' → text = text')
    {o o' : NewObject} (h : o.Matches pairs o') : o = o' := by
  obtain ⟨className, args⟩ := o
  obtain ⟨className', args'⟩ := o'
  obtain rfl : className = className' := heq _ _ h.className
  obtain rfl : args = args' := Expression.eq_of_forall₂ heq h.args
  rfl

theorem Rhs.eq_of_matches (heq : ∀ text text', pairs text text' → text = text')
    {r r' : Rhs} (h : r.Matches pairs r') : r = r' := by
  cases h with
  | expression h => rw [Expression.eq_of_matches heq h]
  | new h => rw [NewObject.eq_of_matches heq h]

mutual

theorem Statement.eq_of_matches (heq : ∀ text text', pairs text text' → text = text') :
    ∀ {s s' : Statement}, s.Matches pairs s' → s = s'
  | .while .., _, .while hcondition hbody => by
    rw [Expression.eq_of_matches heq hcondition, Statement.eq_of_forall₂ heq hbody]
  | .if .., _, .if hcondition hbody => by
    rw [Expression.eq_of_matches heq hcondition, Statement.eq_of_forall₂ heq hbody]
  | .return .., _, .return hvalue => by rw [Expression.eq_of_matches heq hvalue]
  | .assign .., _, .assign hname hrhs => by rw [heq _ _ hname, Rhs.eq_of_matches heq hrhs]
  | .new .., _, .new hobject => by rw [NewObject.eq_of_matches heq hobject]

theorem Statement.eq_of_forall₂ (heq : ∀ text text', pairs text text' → text = text') :
    ∀ {ss ss' : List Statement}, List.Forall₂ (Statement.Matches pairs) ss ss' → ss = ss'
  | [], _, .nil => rfl
  | _ :: _, _, .cons h hs => by rw [Statement.eq_of_matches heq h, Statement.eq_of_forall₂ heq hs]

end

theorem Method.eq_of_matches (heq : ∀ text text', pairs text text' → text = text')
    {m m' : Method} (h : m.Matches pairs m') : m = m' := by
  obtain ⟨params, body⟩ := m
  obtain ⟨params', body'⟩ := m'
  obtain rfl : params = params' := eq_of_forall₂_of_eq heq h.params
  obtain rfl : body = body' := Statement.eq_of_forall₂ heq h.body
  rfl

theorem Member.eq_of_matches (heq : ∀ text text', pairs text text' → text = text')
    {m m' : Member} (h : m.Matches pairs m') : m = m' := by
  cases h with
  | staticField hname hinitializer =>
    rw [heq _ _ hname]
    cases hinitializer with
    | some h => rw [Expression.eq_of_matches heq h]
    | none => rfl
  | staticMethod hname h | instanceMethod hname h | constructor hname h =>
    rw [heq _ _ hname, Method.eq_of_matches heq h]
  | instanceField hname => rw [heq _ _ hname]

theorem ClassDef.eq_of_matches (heq : ∀ text text', pairs text text' → text = text')
    {c c' : ClassDef} (h : c.Matches pairs c') : c = c' := by
  obtain ⟨name, members⟩ := c
  obtain ⟨name', members'⟩ := c'
  obtain rfl : name = name' := heq _ _ h.name
  obtain rfl : members = members' :=
    Series.eq_of_matches (fun _ _ => Member.eq_of_matches heq) h.members
  rfl

theorem Program.eq_of_matches (heq : ∀ text text', pairs text text' → text = text')
    {p p' : Program} (h : p.Matches pairs p') : p = p' := by
  obtain ⟨classes⟩ := p
  obtain ⟨classes'⟩ := p'
  obtain rfl : classes = classes' :=
    Series.eq_of_matches (fun _ _ => ClassDef.eq_of_matches heq) h.classes
  rfl

end

end FrappeSyntax
