import FrappeSyntax.Fragment
import FrappeSyntax.Proofs.Reading
import FrappeSyntax.Proofs.Walk

/-!
# What a routine notes

A routine that gives a result has noted the productions that it entered, and nothing else. What it
noted can be told from the result alone.

* `Routine.Tells`: the productions that a routine notes, given its result.
* `Routine.Tells.bind`, `Routine.Tells.enter`: one routine after the other.
* `Routine.Tells.list`: a production that is a list notes the walk through the list.
-/

namespace FrappeSyntax

open Outline

namespace Routine

/-- After the productions `before` were noted, a routine that gives a result notes more of them, and
nothing else, so that all together are what `told` tells of the result. -/
def Tells (before : List String) (routine : Routine α) (told : α → List String) : Prop :=
  ∀ parser result after, routine parser = .ok result after →
    ∃ productions : List Production,
      after.log = (productions.map Event.entered).reverse ++ parser.log ∧
        before ++ productions.map Production.label = told result

/-- A routine that gives a result notes nothing. -/
def Silent (routine : Routine α) : Prop :=
  ∀ parser result after, routine parser = .ok result after → after.log = parser.log

variable {before : List String} {routine : Routine α} {told : α → List String}

/-! ## Single tokens -/

theorem next_silent : Silent next := by
  rintro parser _ _ ⟨⟩
  rfl

theorem pushBack_silent (token : Token) : Silent (pushBack token) := by
  rintro parser _ _ ⟨⟩
  rfl

theorem peek_silent : Silent peek := by
  rintro parser _ _ ⟨⟩
  rfl

theorem ofExcept_silent (outcome : Except Error α) : Silent (ofExcept outcome) := by
  intro parser result after hrun
  cases outcome with
  | error error => cases hrun
  | ok a =>
    cases hrun
    rfl

theorem Silent.bind {f : α → Routine β} (h : Silent routine) (hf : ∀ a, Silent (f a)) :
    Silent (routine >>= f) := by
  intro parser result after hrun
  obtain ⟨a, p, hr, hrun⟩ := ok_of_bind hrun
  exact (hf a p _ _ hrun).trans (h _ _ _ hr)

theorem expect_silent (kind : Kind) (label : String) : Silent (expect kind label) :=
  next_silent.bind fun _ => ofExcept_silent _

theorem expectSingle_silent (text label : String) : Silent (expectSingle text label) :=
  next_silent.bind fun _ => ofExcept_silent _

/-! ## One routine after the other -/

theorem Tells.pure {result : α} (h : told result = before) : Tells before (pure result) told := by
  rintro parser _ _ ⟨⟩
  exact ⟨[], rfl, by rw [h, List.map_nil, List.append_nil]⟩

/-- A routine that never gives a result tells whatever one likes. -/
theorem Tells.of_never (h : ∀ parser, ∃ error after, routine parser = .error error after) :
    Tells before routine told := by
  intro parser result after hrun
  obtain ⟨error, after', herror⟩ := h parser
  rw [herror] at hrun
  cases hrun

theorem Tells.congr {middle : α → List String} (h : Tells [] routine middle)
    (heq : ∀ a, before ++ middle a = told a) : Tells before routine told := by
  intro parser result after hrun
  obtain ⟨productions, hlog, hlabels⟩ := h _ _ _ hrun
  refine ⟨productions, hlog, ?_⟩
  rw [← heq, ← hlabels, List.nil_append]

theorem Tells.bind {f : α → Routine β} {told : β → List String} {middle : α → List String}
    (h : Tells [] routine middle) (hf : ∀ a, Tells (before ++ middle a) (f a) told) :
    Tells before (routine >>= f) told := by
  intro parser result after hrun
  obtain ⟨a, p, hr, hrun⟩ := ok_of_bind hrun
  obtain ⟨first, hfirst, hmiddle⟩ := h _ _ _ hr
  obtain ⟨second, hsecond, hlabels⟩ := hf a _ _ _ hrun
  refine ⟨first ++ second, ?_, ?_⟩
  · rw [hsecond, hfirst, List.map_append, List.reverse_append, List.append_assoc]
  · rw [← hlabels, ← hmiddle, List.map_append, List.nil_append, List.append_assoc]

theorem Tells.silent_bind {f : α → Routine β} {told : β → List String} (h : Silent routine)
    (hf : ∀ a, Tells before (f a) told) : Tells before (routine >>= f) told := by
  intro parser result after hrun
  obtain ⟨a, p, hr, hrun⟩ := ok_of_bind hrun
  obtain ⟨productions, hlog, hlabels⟩ := hf a _ _ _ hrun
  exact ⟨productions, by rw [hlog, h _ _ _ hr], hlabels⟩

/-- The note that a production is entered. -/
theorem Tells.enter {production : Production}
    (h : Tells (before ++ [production.label]) routine told) :
    Tells before (enter production >>= fun _ => routine) told := by
  intro parser result after hrun
  obtain ⟨productions, hlog, hlabels⟩ := h (parser.note (.entered production)) _ _ hrun
  refine ⟨production :: productions, ?_, ?_⟩
  · rw [hlog, List.map_cons, List.reverse_cons, List.append_assoc]
    rfl
  · rw [← hlabels, List.map_cons, List.append_assoc, List.singleton_append]

theorem Tells.map {f : α → β} {told : β → List String} (h : Tells [] routine fun a => told (f a)) :
    Tells [] (f <$> routine) told := by
  rw [map_eq_pure_bind]
  exact h.bind fun _ => .pure (List.nil_append _).symm

/-! ## Levels -/

theorem Tells.refuse (label : String) : Tells before (refuse label : Routine α) told :=
  .of_never fun parser => ⟨_, _, refuse_eq label parser⟩

theorem Tells.noAlternative (production : Production) (expected : String) (token : Token) :
    Tells before (noAlternative production expected token) told :=
  .of_never fun _ => ⟨_, _, rfl⟩

theorem Tells.deeper (h : Tells before routine told) : Tells before (deeper routine) told := by
  intro parser result after hrun
  obtain ⟨-, inside, hinside, rfl⟩ := ok_of_deeper hrun
  exact h parser.opened result inside hinside

/-! ## Repetition -/

theorem Tells.repeatFor {calls : Token → Bool} (h : Tells [] routine told) (items : List α)
    (turns : List Token) :
    Tells (items.reverse.flatMap told) (repeatFor calls routine items turns) (·.flatMap told) := by
  induction turns generalizing items with
  | nil => exact .pure rfl
  | cons turn turns ih =>
    refine .silent_bind peek_silent fun next => ?_
    split
    · refine .bind h fun a => ?_
      have hitems : items.reverse.flatMap told ++ told a = (a :: items).reverse.flatMap told := by
        rw [List.reverse_cons, List.flatMap_append, List.flatMap_singleton]
      rw [hitems]
      exact ih (a :: items)
    · exact .pure rfl

theorem Tells.repeatWhile {calls : Token → Bool} (h : Tells [] routine told) :
    Tells [] (repeatWhile calls routine) (·.flatMap told) :=
  fun parser => Tells.repeatFor h [] (parser.stream.final :: parser.stream.upcoming) parser

/-! ## Series -/

/-- What the items of a series tell. -/
theorem Tells.separated (separator : String) (h : Tells [] routine told) :
    Tells [] (Series.parse separator routine) fun series => series.toList.flatMap told :=
  .bind h fun _ => .bind (.repeatWhile (.silent_bind next_silent fun _ => h)) fun _ => .pure rfl

theorem Tells.run (ends : Token → Bool) (h : Tells [] routine told) :
    Tells [] (Series.parseUntil ends routine) fun series => series.toList.flatMap told :=
  .bind h fun _ => .bind (.repeatWhile h) fun _ => .pure rfl

theorem Tells.between {series : Routine (Series α)} (told : List α → List String)
    (opening closing label : String) (hnil : told [] = [])
    (h : Tells [] series fun items => told items.toList) :
    Tells [] (Series.parseBetween opening closing label series) told := by
  have hunless : Tells [] (Series.parseUnless closing series) told := by
    refine .silent_bind peek_silent fun next => ?_
    split
    · exact .pure hnil
    · exact h.bind fun _ => .pure rfl
  exact .silent_bind (expectSingle_silent _ _) fun _ => .bind hunless fun _ =>
    .silent_bind (expectSingle_silent _ _) fun _ => .pure rfl

/-- A production that is a list: it notes itself, and then what its items tell. -/
theorem Tells.list {production : Production} {series : Routine (Series α)} {outline : α → Outline}
    (hlist : production.label ∈ listNames) (hlabel : ∀ a, (outline a).label ≠ production.label)
    (h : Tells [] series fun items => items.toList.flatMap fun a => walk [outline a]) :
    Tells [] (Routine.enter production >>= fun _ => series)
      fun items => walk (ofItems production.label (items.toList.map outline)) := by
  refine .enter (h.congr fun items => ?_)
  have hlabels : ∀ tree ∈ items.toList.map outline, tree.label ≠ production.label :=
    List.forall_mem_map.mpr fun a _ => hlabel a
  rw [← walk_map, Series.toList, List.map_cons, walk_ofItems hlist hlabels]
  rfl

end Routine

end FrappeSyntax
