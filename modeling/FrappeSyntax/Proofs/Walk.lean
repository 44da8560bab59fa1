import FrappeSyntax.Fragment

/-!
# Walks through outlines

A walk through an outline visits each node before its children, and names the productions that it
meets. A list is one production, though each of its nodes holds the node for the rest of the list:
it is named at its head. A literal is part of its expression and is not named.

* `Outline.walk`: the names met on a walk.
* `Outline.walk_node`, `Outline.walk_ofItems`: what a node and a list add to a walk.
* `Statement.walk_outline`, `Expression.walk_chain` and the like: walks through parts of a program.
-/

namespace FrappeSyntax

namespace Outline

/-- The label of a tree's root. -/
def label : Outline → String
  | node label _ _ => label

/-- The names of the productions that are lists. -/
def listNames : List String :=
  [Production.classes, .members, .params, .statements, .args, .refChain].map Production.label

/-- Holds for the rest of a list: the node around it belongs to the same list. -/
def isRest (parent : Option String) (label : String) : Bool :=
  parent == some label && listNames.contains label

mutual

/-- The names met on a walk through a tree; `parent` is the label of the node around it. -/
def names (parent : Option String) : Outline → List String
  | node label _ children =>
    (if label == "literal" || isRest parent label then [] else [label]) ++
      namesOfList (some label) children

/-- The names met on a walk through neighbouring trees inside the same node. -/
def namesOfList (parent : Option String) : List Outline → List String
  | [] => []
  | tree :: rest => names parent tree ++ namesOfList parent rest

end

/-- The names met on a walk through neighbouring trees. -/
def walk (trees : List Outline) : List String := namesOfList none trees

/-! ## Trees side by side -/

theorem namesOfList_append (parent : Option String) (trees trees' : List Outline) :
    namesOfList parent (trees ++ trees') =
      namesOfList parent trees ++ namesOfList parent trees' := by
  induction trees with
  | nil => rfl
  | cons tree trees ih =>
    rw [List.cons_append, namesOfList, namesOfList, ih, List.append_assoc]

@[simp] theorem walk_nil : walk [] = [] := rfl

theorem walk_append (trees trees' : List Outline) :
    walk (trees ++ trees') = walk trees ++ walk trees' :=
  namesOfList_append none trees trees'

theorem walk_cons (tree : Outline) (trees : List Outline) :
    walk (tree :: trees) = walk [tree] ++ walk trees :=
  walk_append [tree] trees

theorem walk_map (outline : α → Outline) (items : List α) :
    walk (items.map outline) = items.flatMap fun item => walk [outline item] := by
  induction items with
  | nil => rfl
  | cons item items ih => rw [List.map_cons, walk_cons, ih, List.flatMap_cons]

/-! ## Nodes -/

theorem isRest_of_ne {parent label : String} (h : label ≠ parent) :
    isRest (some parent) label = false := by
  rw [isRest, Bool.and_eq_false_iff]
  exact .inl (by simpa using Ne.symm h)

theorem isRest_of_not_mem {parent label : String} (h : parent ∉ listNames) :
    isRest (some parent) label = false := by
  by_cases hlabel : label = parent
  · rw [isRest, Bool.and_eq_false_iff]
    exact .inr (by simpa [hlabel] using h)
  · exact isRest_of_ne hlabel

/-- Only for the rest of a list does the node around a tree matter. -/
theorem names_eq_none {parent : Option String} {tree : Outline}
    (h : isRest parent tree.label = false) : names parent tree = names none tree := by
  cases tree with
  | node label fields children =>
    have hlabel : isRest parent label = false := h
    have hnone : isRest none label = false := rfl
    rw [names, names, hlabel, hnone]

theorem namesOfList_eq_walk {parent : Option String} {trees : List Outline}
    (h : ∀ tree ∈ trees, isRest parent tree.label = false) :
    namesOfList parent trees = walk trees := by
  induction trees with
  | nil => rfl
  | cons tree trees ih =>
    obtain ⟨htree, htrees⟩ := List.forall_mem_cons.mp h
    rw [walk, namesOfList, namesOfList, names_eq_none htree, ih htrees, walk]

theorem walk_singleton (tree : Outline) : walk [tree] = names none tree := by
  rw [walk, namesOfList, namesOfList, List.append_nil]

theorem names_node (parent : Option String) (production : Production) (fields : List Field)
    (children : List Outline) :
    names parent (.node production.label fields children) =
      (if isRest parent production.label then [] else [production.label]) ++
        namesOfList (some production.label) children := by
  have hnamed : (production.label == "literal") = false := by cases production <;> decide
  rw [names, hnamed, Bool.false_or]

/-- The node for a production that is no list. -/
theorem walk_node {production : Production} (h : production.label ∉ listNames)
    (fields : List Field) (children : List Outline) :
    walk [production.node fields children] = production.label :: walk children := by
  rw [walk_singleton, Production.node, names_node,
    namesOfList_eq_walk fun _ _ => isRest_of_not_mem h]
  rfl

/-! ## Lists -/

section

variable {production : Production}

theorem isRest_self (h : production.label ∈ listNames) :
    isRest (some production.label) production.label = true := by
  simpa [isRest] using h

/-- The nodes for the rest of a list add the items of the rest. -/
theorem namesOfList_ofItems (h : production.label ∈ listNames) {items : List Outline}
    (hitems : ∀ item ∈ items, item.label ≠ production.label) :
    namesOfList (some production.label) (ofItems production.label items) = walk items := by
  induction items with
  | nil => rfl
  | cons item items ih =>
    obtain ⟨hitem, hitems⟩ := List.forall_mem_cons.mp hitems
    rw [ofItems, namesOfList, names_node, isRest_self h, if_pos rfl, namesOfList, namesOfList,
      names_eq_none (isRest_of_ne hitem), ih hitems, walk_cons, walk_singleton, List.append_nil,
      List.nil_append]

/-- A list that has items is named once. -/
theorem walk_ofItems (h : production.label ∈ listNames) {item : Outline} {items : List Outline}
    (hitems : ∀ tree ∈ item :: items, tree.label ≠ production.label) :
    walk (ofItems production.label (item :: items)) =
      production.label :: walk (item :: items) := by
  obtain ⟨hitem, hitems⟩ := List.forall_mem_cons.mp hitems
  rw [ofItems, walk_singleton, names_node, namesOfList, names_eq_none (isRest_of_ne hitem),
    namesOfList_ofItems h hitems, walk_cons, walk_singleton]
  rfl

theorem namesOfList_ofNames (h : production.label ∈ listNames) (names : List String) :
    namesOfList (some production.label) (ofNames production.label names) = [] := by
  induction names with
  | nil => rfl
  | cons name names ih =>
    rw [ofNames, namesOfList, names_node, isRest_self h, if_pos rfl, ih]
    rfl

/-- So is a list of names, which are no productions. -/
theorem walk_ofNames (h : production.label ∈ listNames) (name : String) (names : List String) :
    walk (ofNames production.label (name :: names)) = [production.label] := by
  rw [ofNames, walk_singleton, names_node, namesOfList_ofNames h]
  rfl

end

end Outline

/-! ## Walks through programs -/

open Outline

theorem Expression.outlines_eq_map (expressions : List Expression) :
    Expression.outlines expressions = expressions.map Expression.outline := by
  induction expressions with
  | nil => rfl
  | cons expression expressions ih => rw [Expression.outlines, ih, List.map_cons]

theorem Caller.outlines_eq_map (callers : List Caller) :
    Caller.outlines callers = callers.map Caller.outline := by
  induction callers with
  | nil => rfl
  | cons caller callers ih => rw [Caller.outlines, ih, List.map_cons]

theorem Statement.outlines_eq_map (statements : List Statement) :
    Statement.outlines statements = statements.map Statement.outline := by
  induction statements with
  | nil => rfl
  | cons s statements ih => rw [Statement.outlines, ih, List.map_cons, Statement.outline]

theorem Expression.label_outline (expression : Expression) :
    expression.outline.label = Production.expression.label := by
  cases expression <;> rw [Expression.outline] <;> rfl

theorem Caller.label_outline (caller : Caller) :
    caller.outline.label = Production.caller.label := by
  cases caller <;> rw [Caller.outline] <;> rfl

/-- A literal is no production. -/
theorem Expression.walk_literal (kind : LiteralKind) (value : String) :
    walk [(Expression.literal kind value).outline] = [Production.expression.label] := by
  rw [Expression.outline, walk_node (by decide)]
  rfl

theorem Expression.walk_chain (callers : Series Caller) :
    walk [(Expression.chain callers.first callers.rest).outline] = Production.expression.label ::
      walk (ofItems Production.refChain.label (callers.toList.map Caller.outline)) := by
  rw [Expression.outline, walk_node (by decide), Caller.outlines_eq_map]
  rfl

theorem Outline.walk_ofArgsPart (args : List Outline) : walk [ofArgsPart args] =
    Production.argsPart.label :: walk (ofItems Production.args.label args) :=
  walk_node (by decide) _ _

theorem Caller.walk_ref (kind : CallerKind) (name : String) :
    walk [(Caller.ref kind name).outline] = [Production.caller.label] := by
  rw [Caller.outline, walk_node (by decide), walk_nil]

theorem Caller.walk_call (kind : CallerKind) (name : String) (args : List Expression) :
    walk [(Caller.call kind name args).outline] =
      Production.caller.label :: walk [ofArgsPart (args.map Expression.outline)] := by
  rw [Caller.outline, walk_node (by decide), Expression.outlines_eq_map]

theorem NewObject.walk_outline (object : NewObject) : walk [object.outline] =
    Production.newObject.label :: walk [ofArgsPart (object.args.map Expression.outline)] :=
  walk_node (by decide) _ _

theorem Rhs.walk_expression (value : Expression) : walk [(Rhs.expression value).outline] =
    Production.rhs.label :: walk [value.outline] :=
  walk_node (by decide) _ _

theorem Rhs.walk_new (object : NewObject) : walk [(Rhs.new object).outline] =
    Production.rhs.label :: walk [object.outline] :=
  walk_node (by decide) _ _

theorem Outline.walk_ofBlock {owner : Production} (h : owner.label ∉ listNames)
    (statements : List Outline) : walk [ofBlock owner statements] =
      owner.label :: walk (ofItems Production.statements.label statements) :=
  walk_node h _ _

theorem Statement.walk_outline (s : Statement) :
    walk [s.outline] = Production.statement.label :: walk [s.bodyOutline] :=
  walk_node (by decide) _ _

theorem Method.walk_outline (method : Method) : walk [method.outline] =
    Production.restOfMethod.label :: (walk (ofNames Production.params.label method.params) ++
      walk [ofBlock .methodBody (method.body.map Statement.outline)]) := by
  rw [Method.outline, walk_node (by decide), walk_append]

theorem Member.walk_outline (member : Member) :
    walk [member.outline] = Production.member.label :: walk [member.bodyOutline] :=
  walk_node (by decide) _ _

theorem ClassDef.walk_outline (classDef : ClassDef) : walk [classDef.outline] =
    Production.classBody.label ::
      walk (ofItems Production.members.label (classDef.members.toList.map Member.outline)) :=
  walk_node (by decide) _ _

theorem Program.walk_outline (program : Program) : walk [program.outline] =
    Production.program.label ::
      walk (ofItems Production.classes.label (program.classes.toList.map ClassDef.outline)) :=
  walk_node (by decide) _ _

end FrappeSyntax
