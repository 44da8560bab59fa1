import FrappeSyntax.CommandLine
import Mathlib.Data.List.Forall2
import Mathlib.Data.Nat.Digits.Defs

/-!
# The language of the arguments

Arguments are read as items from left to right: the option for the depth with the argument after it,
whatever this is, the option for the log, and files. They ask for something if there is one file and
each option for the depth has a number, of which the last one counts. Nothing else in the order of
the items matters.

* `Invocation.items`: the items of a list of arguments.
* `Invocation.depth?_eq_some_iff`: the arguments that write a number.
* `Invocation.readArgs_eq_some_iff`: what the items ask for after those that were read before.
* `Invocation.ofArgs?_accepts`: the arguments that ask for something, and what they ask for.
-/

namespace FrappeSyntax.Invocation

/-! ## Items -/

/-- An item of a command line. -/
inductive Item
  /-- The option for the depth, with the argument after it if there is one. -/
  | maxDepth (value : Option String)
  /-- The option for the log. -/
  | trace
  | file (path : String)
deriving DecidableEq

/-- The items of a list of arguments. -/
def items : List String → List Item
  | [] => []
  | "--max-depth" :: [] => [.maxDepth none]
  | "--max-depth" :: value :: rest => .maxDepth (some value) :: items rest
  | "--trace" :: rest => .trace :: items rest
  | path :: rest => .file path :: items rest

/-- The files among some items. -/
def files (items : List Item) : List String :=
  items.filterMap fun
    | .file path => some path
    | _ => none

/-- What follows each option for the depth, in order. -/
def depthValues (items : List Item) : List (Option String) :=
  items.filterMap fun
    | .maxDepth value => some value
    | _ => none

/-! ## Numbers -/

/-- An argument writes a number: a plus sign or none, and at least one decimal digit. -/
def Writes (argument : String) (n : Nat) : Prop :=
  ∃ digits : List Char, (argument.toList = digits ∨ argument.toList = '+' :: digits) ∧
    digits ≠ [] ∧ (∀ d ∈ digits, d.isDigit = true) ∧
    n = Nat.ofDigits 10 (digits.reverse.map fun d => d.toNat - '0'.toNat)

/-- What follows an option for the depth gives a number: it is there, and writes a number that fits
into 64 bits. -/
def GivesDepth (value : Option String) (n : Nat) : Prop :=
  ∃ argument, value = some argument ∧ Writes argument n ∧ n < 2 ^ 64

/-- Decimal digits from the highest on are summed up as digits from the lowest on. -/
theorem foldl_eq_ofDigits (digits : List Char) :
    digits.foldl (fun n d => 10 * n + (d.toNat - '0'.toNat)) 0 =
      Nat.ofDigits 10 (digits.reverse.map fun d => d.toNat - '0'.toNat) := by
  rw [Nat.ofDigits_eq_foldr, List.foldr_map, List.foldr_reverse]
  simp only [Nat.cast_id, Nat.add_comm]

theorem decimal?_eq_some_iff {digits : List Char} {n : Nat} :
    decimal? digits = some n ↔ digits ≠ [] ∧ (∀ d ∈ digits, d.isDigit = true) ∧
      n = Nat.ofDigits 10 (digits.reverse.map fun d => d.toNat - '0'.toNat) := by
  rw [decimal?, foldl_eq_ofDigits, Option.ite_none_right_eq_some, List.all_eq_true,
    Option.some.injEq, and_assoc, @eq_comm _ n]

/-- The digits of an argument are all of it, or all but a plus sign at its start. -/
theorem exists_depth?_eq (argument : String) :
    ∃ digits, (argument.toList = digits ∧ digits.head? ≠ some '+' ∨
        argument.toList = '+' :: digits) ∧
      depth? argument = (decimal? digits).filter (· ≤ greatestDepth) := by
  rw [depth?]
  split
  next digits hplus => exact ⟨digits, .inr hplus, rfl⟩
  next digits hplus =>
    refine ⟨argument.toList, .inl ⟨rfl, fun hhead => ?_⟩, rfl⟩
    obtain ⟨digits, hdigits⟩ := List.head?_eq_some_iff.mp hhead
    exact hplus digits hdigits

/-- The arguments that write a number which fits into 64 bits. -/
theorem depth?_eq_some_iff {argument : String} {n : Nat} :
    depth? argument = some n ↔ Writes argument n ∧ n < 2 ^ 64 := by
  obtain ⟨digits, hchars, hdepth⟩ := exists_depth?_eq argument
  have hfits : n ≤ greatestDepth ↔ n < 2 ^ 64 := by
    rw [greatestDepth]
    omega
  rw [hdepth, Option.filter_eq_some_iff, decimal?_eq_some_iff, decide_eq_true_iff, hfits,
    and_congr_left_iff]
  intro _
  constructor
  · exact fun hwritten => ⟨digits, hchars.imp And.left id, hwritten⟩
  · rintro ⟨digits', hchars', hne, hdigits, hn⟩
    have hplus : digits'.head? ≠ some '+' := by
      intro hhead
      obtain ⟨rest, rfl⟩ := List.head?_eq_some_iff.mp hhead
      exact absurd (hdigits '+' List.mem_cons_self) (by decide)
    obtain rfl : digits' = digits := by
      rcases hchars with ⟨hall, hfirst⟩ | hall <;> rcases hchars' with hall' | hall'
      · exact hall'.symm.trans hall
      · rw [← hall, hall'] at hfirst
        exact absurd rfl hfirst
      · rw [← hall', hall] at hplus
        exact absurd rfl hplus
      · exact (List.cons.inj (hall'.symm.trans hall)).2
    exact ⟨hne, hdigits, hn⟩

/-- What follows an option for the depth is read as the number that it gives. -/
theorem bind_depth?_eq_some_iff {value : Option String} {n : Nat} :
    value.bind depth? = some n ↔ GivesDepth value n := by
  rw [Option.bind_eq_some_iff, GivesDepth]
  simp only [depth?_eq_some_iff]

/-! ## One item after the other -/

/-- What items ask for, after those that gave `file`, `maxDepth` and `traced`. -/
structure AskAfter (file : Option String) (maxDepth : Nat) (traced : Bool) (items : List Item)
    (invocation : Invocation) : Prop where
  file_eq : file.toList ++ files items = [invocation.file]
  limits_eq : ∃ depths, List.Forall₂ GivesDepth (depthValues items) depths ∧
    invocation.limits = { maxDepth := depths.getLastD maxDepth, deadline := none }
  traced_iff : invocation.traced = true ↔ traced = true ∨ .trace ∈ items

section

variable {file : Option String} {maxDepth : Nat} {traced : Bool} {items : List Item}
  {invocation : Invocation}

theorem askAfter_nil_iff : AskAfter file maxDepth traced [] invocation ↔
    file.map (⟨·, { maxDepth }, traced⟩) = some invocation := by
  rw [Option.map_eq_some_iff]
  constructor
  · rintro ⟨hfile, ⟨depths, hdepths, hlimits⟩, htraced⟩
    obtain ⟨path, limits, shown⟩ := invocation
    cases hdepths
    cases file with
    | none => cases hfile
    | some first =>
      obtain rfl : first = path := (List.cons.inj hfile).1
      obtain rfl : limits = { maxDepth } := hlimits
      obtain rfl : traced = shown := Bool.eq_iff_iff.mpr (by simpa using htraced.symm)
      exact ⟨first, rfl, rfl⟩
  · rintro ⟨path, rfl, rfl⟩
    exact ⟨rfl, ⟨[], .nil, rfl⟩, by simp⟩

theorem askAfter_maxDepth_iff {value : Option String} :
    AskAfter file maxDepth traced (.maxDepth value :: items) invocation ↔
      ∃ n, GivesDepth value n ∧ AskAfter file n traced items invocation := by
  have htrace : Item.trace ∈ Item.maxDepth value :: items ↔ Item.trace ∈ items := by simp
  constructor
  · rintro ⟨hfile, ⟨depths, hdepths, hlimits⟩, htraced⟩
    cases hdepths with
    | cons hvalue hdepths =>
      rw [List.getLastD_cons] at hlimits
      rw [htrace] at htraced
      exact ⟨_, hvalue, hfile, ⟨_, hdepths, hlimits⟩, htraced⟩
  · rintro ⟨n, hvalue, hfile, ⟨depths, hdepths, hlimits⟩, htraced⟩
    rw [← htrace] at htraced
    refine ⟨hfile, ⟨n :: depths, .cons hvalue hdepths, ?_⟩, htraced⟩
    rw [hlimits, List.getLastD_cons]

theorem askAfter_trace_iff : AskAfter file maxDepth traced (.trace :: items) invocation ↔
    AskAfter file maxDepth true items invocation := by
  have htrace : (traced = true ∨ Item.trace ∈ Item.trace :: items) ↔
      true = true ∨ Item.trace ∈ items :=
    iff_of_true (.inr List.mem_cons_self) (.inl rfl)
  constructor
  · rintro ⟨hfile, hlimits, htraced⟩
    exact ⟨hfile, hlimits, htraced.trans htrace⟩
  · rintro ⟨hfile, hlimits, htraced⟩
    exact ⟨hfile, hlimits, htraced.trans htrace.symm⟩

/-- A second file is one too many. -/
theorem askAfter_file_iff {path : String} :
    AskAfter file maxDepth traced (.file path :: items) invocation ↔
      file = none ∧ AskAfter (some path) maxDepth traced items invocation := by
  have htrace : Item.trace ∈ Item.file path :: items ↔ Item.trace ∈ items := by simp
  constructor
  · rintro ⟨hfile, hlimits, htraced⟩
    rw [htrace] at htraced
    cases file with
    | none => exact ⟨rfl, hfile, hlimits, htraced⟩
    | some first => cases (List.cons.inj hfile).2
  · rintro ⟨rfl, hfile, hlimits, htraced⟩
    rw [← htrace] at htraced
    exact ⟨hfile, hlimits, htraced⟩

end

/-- What is read from arguments is what their items ask for. -/
theorem readArgs_eq_some_iff (args : List String) {file : Option String} {maxDepth : Nat}
    {traced : Bool} {invocation : Invocation} :
    readArgs file maxDepth traced args = some invocation ↔
      AskAfter file maxDepth traced (items args) invocation := by
  induction args using items.induct generalizing file maxDepth traced with
  | case1 => rw [readArgs, items, askAfter_nil_iff]
  | case2 =>
    have hnone : ∀ n, ¬ GivesDepth none n := by
      rintro n ⟨argument, hargument, -⟩
      cases hargument
    rw [readArgs, items, askAfter_maxDepth_iff]
    exact iff_of_false nofun fun ⟨n, hvalue, _⟩ => hnone n hvalue
  | case3 value rest ih =>
    rw [readArgs, items, askAfter_maxDepth_iff, Option.bind_eq_some_iff]
    simp only [ih, ← bind_depth?_eq_some_iff, Option.bind_some]
  | case4 rest ih => rw [readArgs, items, askAfter_trace_iff, ih]
  | case5 path rest hlone hdepth htrace ih =>
    have hread : readArgs file maxDepth traced (path :: rest) =
        if file.isNone then readArgs (some path) maxDepth traced rest else none := by
      rw [readArgs] <;> assumption
    have hitems : items (path :: rest) = .file path :: items rest := by
      rw [items] <;> assumption
    rw [hread, hitems, askAfter_file_iff, Option.ite_none_right_eq_some, ih,
      Option.isNone_iff_eq_none]

/-! ## A whole command line -/

/-- What the items of a command line ask for: there is one file, each option for the depth has a
number, of which the last one counts, and the log is shown if an item says so. -/
structure Asks (items : List Item) (invocation : Invocation) : Prop where
  file_eq : files items = [invocation.file]
  limits_eq : ∃ depths, List.Forall₂ GivesDepth (depthValues items) depths ∧
    invocation.limits = { maxDepth := depths.getLastD 128, deadline := none }
  traced_iff : invocation.traced = true ↔ .trace ∈ items

theorem ofArgs?_eq_some_iff {args : List String} {invocation : Invocation} :
    ofArgs? args = some invocation ↔ Asks (items args.tail) invocation := by
  rw [ofArgs?, readArgs_eq_some_iff]
  constructor
  · rintro ⟨hfile, hlimits, htraced⟩
    exact ⟨hfile, hlimits, by simpa using htraced⟩
  · rintro ⟨hfile, hlimits, htraced⟩
    exact ⟨hfile, hlimits, by simpa using htraced⟩

theorem exists_forall₂_givesDepth_iff {values : List (Option String)} :
    (∃ depths, List.Forall₂ GivesDepth values depths) ↔
      ∀ value ∈ values, ∃ n, GivesDepth value n := by
  induction values with
  | nil => exact iff_of_true ⟨[], .nil⟩ (by simp)
  | cons value values ih =>
    rw [List.forall_mem_cons, ← ih]
    constructor
    · rintro ⟨depths, hdepths⟩
      cases hdepths with
      | cons hvalue hvalues => exact ⟨⟨_, hvalue⟩, _, hvalues⟩
    · rintro ⟨⟨n, hvalue⟩, depths, hvalues⟩
      exact ⟨n :: depths, .cons hvalue hvalues⟩

/-- What items ask for does not depend on their order, but for that of the options for the depth. -/
theorem Asks.of_perm {items items' : List Item} {invocation : Invocation} (h : items.Perm items')
    (hdepths : depthValues items = depthValues items') (hasks : Asks items invocation) :
    Asks items' invocation := by
  obtain ⟨hfile, hlimits, htraced⟩ := hasks
  have hfiles : (files items').Perm [invocation.file] := hfile ▸ (h.filterMap _).symm
  exact ⟨List.perm_singleton.mp hfiles, hdepths ▸ hlimits, htraced.trans h.mem_iff⟩

/-- Arguments ask for something exactly if their items ask for it. So they do if there is one file
and each option for the depth has a number, and it is the same for arguments with the same items in
another order, as long as the options for the depth stay in order. -/
theorem ofArgs?_accepts (args : List String) :
    (∀ invocation, ofArgs? args = some invocation ↔ Asks (items args.tail) invocation) ∧
    ((∃ invocation, ofArgs? args = some invocation) ↔
      (∃ path, files (items args.tail) = [path]) ∧
        ∀ value ∈ depthValues (items args.tail), ∃ n, GivesDepth value n) ∧
    ∀ args', (items args'.tail).Perm (items args.tail) →
      depthValues (items args'.tail) = depthValues (items args.tail) →
      ofArgs? args' = ofArgs? args := by
  refine ⟨fun invocation => ofArgs?_eq_some_iff, ?_, fun args' hperm hdepths => ?_⟩
  · rw [← exists_forall₂_givesDepth_iff]
    simp only [ofArgs?_eq_some_iff]
    constructor
    · rintro ⟨invocation, hfile, ⟨depths, hdepths, -⟩, -⟩
      exact ⟨⟨invocation.file, hfile⟩, depths, hdepths⟩
    · rintro ⟨⟨path, hfile⟩, depths, hdepths⟩
      exact ⟨⟨path, { maxDepth := depths.getLastD 128 }, decide (.trace ∈ items args.tail)⟩, hfile,
        ⟨depths, hdepths, rfl⟩, decide_eq_true_iff⟩
  · ext invocation
    rw [ofArgs?_eq_some_iff, ofArgs?_eq_some_iff]
    exact ⟨.of_perm hperm hdepths, .of_perm hperm.symm hdepths.symm⟩

/-- The last of two options for the depth counts, wherever the file and the option for the log
are. -/
theorem ofArgs?_accepts_lastDepth :
    let args := ["frappe", "--max-depth", "+9", "--trace", "a.frappe", "--max-depth", "7"]
    let args' := ["frappe", "a.frappe", "--max-depth", "+9", "--max-depth", "7", "--trace"]
    (items args'.tail).Perm (items args.tail) ∧
      depthValues (items args'.tail) = depthValues (items args.tail) ∧
      ofArgs? args = some ⟨"a.frappe", { maxDepth := 7 }, true⟩ ∧ ofArgs? args' = ofArgs? args := by
  intro args args'
  have hperm : (items args'.tail).Perm (items args.tail) := by decide
  have hdepths : depthValues (items args'.tail) = depthValues (items args.tail) := by decide
  exact ⟨hperm, hdepths, by decide, (ofArgs?_accepts args).2.2 args' hperm hdepths⟩

end FrappeSyntax.Invocation
