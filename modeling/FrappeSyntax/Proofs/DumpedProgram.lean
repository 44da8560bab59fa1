import FrappeSyntax.Program.Dump
import FrappeSyntax.Proofs.DumpText

/-!
# Programs that look the same

The dump of a program tells the program: each part of the program stands in a part of the dump,
under names that tell what it is part of. All that a source can choose, such as the name of a class
or the text of a literal, is quoted there, so the text of the dump tells the dump.

* `Program.isNamed_dump`: what is not quoted in the dump of a program is a name.
* `Program.dump_eq_iff`: programs with the same dump are the same.
* `Program.looks_alike_iff_eq`: programs whose dumps look the same are the same.
-/

namespace FrappeSyntax

namespace Dump

/-! ## Records and series -/

section

variable {name field field₁ field₂ field₃ : String}
variable {value value' value₁ value₁' value₂ value₂' value₃ value₃' : Dump}
variable {items items' : List Dump}

theorem isNamed_wrapped (hname : isName name = true) (hvalue : isNamed value = true) :
    isNamed (wrapped name value) = true :=
  Bool.and_eq_true_iff.mpr ⟨hname, hvalue⟩

theorem isNamed_record1 (hnames : [name, field].all isName = true)
    (hvalue : isNamed value = true) : isNamed (record1 name field value) = true := by
  simp_all [record1, isNamed, areNamed]

theorem isNamed_record2 (hnames : [name, field₁, field₂].all isName = true)
    (hvalue₁ : isNamed value₁ = true) (hvalue₂ : isNamed value₂ = true) :
    isNamed (record2 name field₁ value₁ field₂ value₂) = true := by
  simp_all [record2, isNamed, areNamed]

theorem isNamed_record3 (hnames : [name, field₁, field₂, field₃].all isName = true)
    (hvalue₁ : isNamed value₁ = true) (hvalue₂ : isNamed value₂ = true)
    (hvalue₃ : isNamed value₃ = true) :
    isNamed (record3 name field₁ value₁ field₂ value₂ field₃ value₃) = true := by
  simp_all [record3, isNamed, areNamed]

@[simp] theorem record1_eq_iff :
    record1 name field value = record1 name field value' ↔ value = value' := by
  simp [record1]

@[simp] theorem record2_eq_iff :
    record2 name field₁ value₁ field₂ value₂ = record2 name field₁ value₁' field₂ value₂' ↔
      value₁ = value₁' ∧ value₂ = value₂' := by
  simp [record2]

@[simp] theorem record3_eq_iff :
    record3 name field₁ value₁ field₂ value₂ field₃ value₃ =
        record3 name field₁ value₁' field₂ value₂' field₃ value₃' ↔
      value₁ = value₁' ∧ value₂ = value₂' ∧ value₃ = value₃' := by
  simp [record3]

theorem isNamed_ofOption {value? : Option Dump} (h : ∀ value ∈ value?, isNamed value = true) :
    isNamed (ofOption value?) = true := by
  cases value? with
  | none => rfl
  | some value => exact isNamed_wrapped rfl (h value rfl)

@[simp] theorem ofOption_eq_iff {value? value?' : Option Dump} :
    ofOption value? = ofOption value?' ↔ value? = value?' := by
  cases value? <;> cases value?' <;> simp [ofOption]

/-- The records that hold the items of a list are made of names if the items are. -/
theorem isNamed_ofItems? (hnames : [name, field, "rest"].all isName = true)
    (hitems : ∀ item ∈ items, isNamed item = true) :
    ∀ value ∈ ofItems? name field items, isNamed value = true := by
  induction items with
  | nil => rintro value ⟨⟩
  | cons first rest ih =>
    obtain ⟨hfirst, hrest⟩ := List.forall_mem_cons.mp hitems
    rintro value ⟨⟩
    exact isNamed_record2 hnames hfirst (isNamed_ofOption (ih hrest))

@[simp] theorem ofItems?_eq_iff :
    ofItems? name field items = ofItems? name field items' ↔ items = items' := by
  induction items generalizing items' with
  | nil => cases items' <;> simp [ofItems?]
  | cons first rest ih => cases items' <;> simp [ofItems?, ih]

theorem isNamed_ofSeries (hnames : [name, field, "rest"].all isName = true)
    (hfirst : isNamed value = true) (hrest : ∀ item ∈ items, isNamed item = true) :
    isNamed (ofSeries name field value items) = true :=
  isNamed_record2 hnames hfirst (isNamed_ofOption (isNamed_ofItems? hnames hrest))

@[simp] theorem ofSeries_eq_iff :
    ofSeries name field value items = ofSeries name field value' items' ↔
      value = value' ∧ items = items' := by
  simp [ofSeries]

end

end Dump

/-! ## Expressions -/

-- The names in a dump are fixed, so that they are names is by `rfl` throughout.

theorem LiteralKind.isNamed_dump (kind : LiteralKind) : kind.dump.isNamed = Bool.true := by
  cases kind <;> rfl

theorem LiteralKind.dump_eq_iff {kind kind' : LiteralKind} :
    kind.dump = kind'.dump ↔ kind = kind' := by
  cases kind <;> cases kind' <;> simp [LiteralKind.dump]

theorem CallerKind.isNamed_dump (kind : CallerKind) : kind.dump.isNamed = true := by
  cases kind <;> rfl

theorem CallerKind.dump_eq_iff {kind kind' : CallerKind} :
    kind.dump = kind'.dump ↔ kind = kind' := by
  cases kind <;> cases kind' <;> simp [CallerKind.dump]

namespace Dump

theorem isNamed_ofCaller (kind : CallerKind) (name : String) {args : Option Dump}
    (hargs : ∀ value ∈ args, isNamed value = true) : isNamed (ofCaller kind name args) = true :=
  isNamed_record3 rfl kind.isNamed_dump rfl (isNamed_ofOption hargs)

@[simp] theorem ofCaller_eq_iff {kind kind' : CallerKind} {name name' : String}
    {args args' : Option Dump} :
    ofCaller kind name args = ofCaller kind' name' args' ↔
      kind = kind' ∧ name = name' ∧ args = args' := by
  simp [ofCaller, CallerKind.dump_eq_iff]

theorem isNamed_ofArgsPart {args : List Dump} (hargs : ∀ value ∈ args, isNamed value = true) :
    isNamed (ofArgsPart args) = true :=
  isNamed_record1 rfl (isNamed_ofOption (isNamed_ofItems? rfl hargs))

@[simp] theorem ofArgsPart_eq_iff {args args' : List Dump} :
    ofArgsPart args = ofArgsPart args' ↔ args = args' := by
  simp [ofArgsPart]

end Dump

mutual

theorem Expression.isNamed_dump : ∀ e : Expression, e.dump.isNamed = true
  | .literal kind _ =>
    Dump.isNamed_wrapped rfl (Dump.isNamed_record2 rfl kind.isNamed_dump rfl)
  | .chain first rest =>
    Dump.isNamed_wrapped rfl
      (Dump.isNamed_ofSeries rfl first.isNamed_dump (Caller.isNamed_of_mem_dumps rest))

theorem Caller.isNamed_dump : ∀ c : Caller, c.dump.isNamed = true
  | .ref kind name => Dump.isNamed_ofCaller kind name (by rintro value ⟨⟩)
  | .call kind name args => by
    refine Dump.isNamed_ofCaller kind name ?_
    rintro value ⟨⟩
    exact Dump.isNamed_ofArgsPart (Expression.isNamed_of_mem_dumps args)

theorem Caller.isNamed_of_mem_dumps :
    ∀ cs : List Caller, ∀ value ∈ Caller.dumps cs, value.isNamed = true
  | [] => List.forall_mem_nil _
  | c :: cs => List.forall_mem_cons.mpr ⟨c.isNamed_dump, Caller.isNamed_of_mem_dumps cs⟩

theorem Expression.isNamed_of_mem_dumps :
    ∀ es : List Expression, ∀ value ∈ Expression.dumps es, value.isNamed = true
  | [] => List.forall_mem_nil _
  | e :: es => List.forall_mem_cons.mpr ⟨e.isNamed_dump, Expression.isNamed_of_mem_dumps es⟩

end

mutual

theorem Expression.dump_eq_iff : ∀ e e' : Expression, e.dump = e'.dump ↔ e = e'
  | .literal k v, .literal k' v' => by simp [Expression.dump, LiteralKind.dump_eq_iff]
  | .chain c cs, .chain c' cs' => by
    simp [Expression.dump, Caller.dump_eq_iff c c', Caller.dumps_eq_iff cs cs']
  | .literal .., .chain .. => by simp [Expression.dump]
  | .chain .., .literal .. => by simp [Expression.dump]

theorem Caller.dump_eq_iff : ∀ c c' : Caller, c.dump = c'.dump ↔ c = c'
  | .ref k n, .ref k' n' => by simp [Caller.dump]
  | .call k n es, .call k' n' es' => by simp [Caller.dump, Expression.dumps_eq_iff es es']
  | .ref .., .call .. => by simp [Caller.dump]
  | .call .., .ref .. => by simp [Caller.dump]

theorem Caller.dumps_eq_iff :
    ∀ cs cs' : List Caller, Caller.dumps cs = Caller.dumps cs' ↔ cs = cs'
  | [], [] => by simp
  | c :: cs, c' :: cs' => by
    simp [Caller.dumps, Caller.dump_eq_iff c c', Caller.dumps_eq_iff cs cs']
  | [], _ :: _ => by simp [Caller.dumps]
  | _ :: _, [] => by simp [Caller.dumps]

theorem Expression.dumps_eq_iff :
    ∀ es es' : List Expression, Expression.dumps es = Expression.dumps es' ↔ es = es'
  | [], [] => by simp
  | e :: es, e' :: es' => by
    simp [Expression.dumps, Expression.dump_eq_iff e e', Expression.dumps_eq_iff es es']
  | [], _ :: _ => by simp [Expression.dumps]
  | _ :: _, [] => by simp [Expression.dumps]

end

theorem NewObject.isNamed_dump (object : NewObject) : object.dump.isNamed = true := by
  refine Dump.isNamed_record2 rfl rfl (Dump.isNamed_ofArgsPart ?_)
  exact List.forall_mem_map.mpr fun arg _ => arg.isNamed_dump

theorem NewObject.dump_eq_iff (o o' : NewObject) : o.dump = o'.dump ↔ o = o' := by
  cases o
  cases o'
  simp [NewObject.dump, List.map_inj_right fun e e' => (Expression.dump_eq_iff e e').mp]

/-! ## Statements -/

theorem Rhs.isNamed_dump : ∀ rhs : Rhs, rhs.dump.isNamed = true
  | .expression value => Dump.isNamed_wrapped rfl value.isNamed_dump
  | .new object => Dump.isNamed_wrapped rfl object.isNamed_dump

theorem Rhs.dump_eq_iff : ∀ r r' : Rhs, r.dump = r'.dump ↔ r = r'
  | .expression e, .expression e' => by simp [Rhs.dump, e.dump_eq_iff e']
  | .new o, .new o' => by simp [Rhs.dump, o.dump_eq_iff o']
  | .expression _, .new _ => by simp [Rhs.dump]
  | .new _, .expression _ => by simp [Rhs.dump]

namespace Dump

theorem isNamed_ofBlock {owner : String} {statements : List Dump} (howner : isName owner = true)
    (hstatements : ∀ value ∈ statements, isNamed value = true) :
    isNamed (ofBlock owner statements) = true :=
  isNamed_record1 (Bool.and_eq_true_iff.mpr ⟨howner, rfl⟩)
    (isNamed_ofOption (isNamed_ofItems? rfl hstatements))

@[simp] theorem ofBlock_eq_iff {owner : String} {statements statements' : List Dump} :
    ofBlock owner statements = ofBlock owner statements' ↔ statements = statements' := by
  simp [ofBlock]

end Dump

mutual

theorem Statement.isNamed_dump : ∀ s : Statement, s.dump.isNamed = true
  | .while condition body | .if condition body =>
    Dump.isNamed_wrapped rfl (Dump.isNamed_record2 rfl condition.isNamed_dump
      (Dump.isNamed_ofBlock rfl (Statement.isNamed_of_mem_dumps body)))
  | .return value => Dump.isNamed_wrapped rfl (Dump.isNamed_record1 rfl value.isNamed_dump)
  | .assign _ rhs => Dump.isNamed_wrapped rfl (Dump.isNamed_record2 rfl rfl rhs.isNamed_dump)
  | .new object => Dump.isNamed_wrapped rfl object.isNamed_dump

theorem Statement.isNamed_of_mem_dumps :
    ∀ ss : List Statement, ∀ value ∈ Statement.dumps ss, value.isNamed = true
  | [] => List.forall_mem_nil _
  | s :: ss => List.forall_mem_cons.mpr ⟨s.isNamed_dump, Statement.isNamed_of_mem_dumps ss⟩

end

mutual

theorem Statement.dump_eq_iff : ∀ s s' : Statement, s.dump = s'.dump ↔ s = s'
  | .while e b, s' => by
    cases s' <;> simp [Statement.dump, Expression.dump_eq_iff, Statement.dumps_eq_iff b]
  | .if e b, s' => by
    cases s' <;> simp [Statement.dump, Expression.dump_eq_iff, Statement.dumps_eq_iff b]
  | .return e, s' => by cases s' <;> simp [Statement.dump, Expression.dump_eq_iff]
  | .assign n r, s' => by cases s' <;> simp [Statement.dump, Rhs.dump_eq_iff]
  | .new o, s' => by cases s' <;> simp [Statement.dump, NewObject.dump_eq_iff]

theorem Statement.dumps_eq_iff :
    ∀ ss ss' : List Statement, Statement.dumps ss = Statement.dumps ss' ↔ ss = ss'
  | [], ss' => by cases ss' <;> simp [Statement.dumps]
  | s :: ss, [] => by simp [Statement.dumps]
  | s :: ss, s' :: ss' => by
    simp [Statement.dumps, Statement.dump_eq_iff s s', Statement.dumps_eq_iff ss ss']

end

/-! ## Programs -/

theorem Method.isNamed_dump (method : Method) : method.dump.isNamed = true := by
  refine Dump.isNamed_record2 rfl (Dump.isNamed_ofOption (Dump.isNamed_ofItems? rfl ?_))
    (Dump.isNamed_ofBlock rfl ?_)
  · exact List.forall_mem_map.mpr fun _ _ => rfl
  · exact List.forall_mem_map.mpr fun statement _ => statement.isNamed_dump

theorem Method.dump_eq_iff (m m' : Method) : m.dump = m'.dump ↔ m = m' := by
  cases m
  cases m'
  simp [Method.dump, List.map_inj_right fun s s' => (Statement.dump_eq_iff s s').mp,
    List.map_inj_right fun _ _ => Dump.quoted.inj]

namespace Member

theorem isNamed_dumpOfMethod {kind : String} (hkind : Dump.isName kind = true) (name : String)
    (method : Method) : (dumpOfMethod kind name method).isNamed = true :=
  Dump.isNamed_wrapped hkind
    (Dump.isNamed_record2 (Bool.and_eq_true_iff.mpr ⟨hkind, rfl⟩) rfl method.isNamed_dump)

theorem isNamed_dump : ∀ member : Member, member.dump.isNamed = true
  | staticField _ initializer => by
    refine Dump.isNamed_wrapped rfl (Dump.isNamed_record2 rfl rfl (Dump.isNamed_ofOption ?_))
    intro value hvalue
    obtain ⟨expression, -, rfl⟩ := Option.mem_map.mp hvalue
    exact expression.isNamed_dump
  | instanceField _ => Dump.isNamed_wrapped rfl (Dump.isNamed_record1 rfl rfl)
  | staticMethod name method => isNamed_dumpOfMethod rfl name method
  | instanceMethod name method => isNamed_dumpOfMethod rfl name method
  | constructor name method => isNamed_dumpOfMethod rfl name method

theorem dump_eq_iff (m m' : Member) : m.dump = m'.dump ↔ m = m' := by
  cases m <;> cases m' <;>
    simp [dump, dumpOfMethod, Method.dump_eq_iff,
      Option.map_inj_right fun e e' => (Expression.dump_eq_iff e e').mp]

end Member

theorem ClassDef.isNamed_dump (classDef : ClassDef) : classDef.dump.isNamed = true :=
  Dump.isNamed_record2 rfl rfl (Dump.isNamed_ofSeries rfl (Member.isNamed_dump _)
    (List.forall_mem_map.mpr fun member _ => member.isNamed_dump))

theorem ClassDef.dump_eq_iff (c c' : ClassDef) : c.dump = c'.dump ↔ c = c' := by
  obtain ⟨name, first, rest⟩ := c
  obtain ⟨name', first', rest'⟩ := c'
  simp [ClassDef.dump, Member.dump_eq_iff,
    List.map_inj_right fun m m' => (Member.dump_eq_iff m m').mp]

/-- What is not quoted in the dump of a program is a name, whatever texts the program holds. -/
theorem Program.isNamed_dump (program : Program) : program.dump.isNamed = true :=
  Dump.isNamed_record1 rfl (Dump.isNamed_ofSeries rfl (ClassDef.isNamed_dump _)
    (List.forall_mem_map.mpr fun classDef _ => classDef.isNamed_dump))

/-- Nothing of a program is lost in its dump. -/
theorem Program.dump_eq_iff (p p' : Program) : p.dump = p'.dump ↔ p = p' := by
  obtain ⟨first, rest⟩ := p
  obtain ⟨first', rest'⟩ := p'
  simp [Program.dump, ClassDef.dump_eq_iff,
    List.map_inj_right fun c c' => (ClassDef.dump_eq_iff c c').mp]

/-- Programs are the same if their dumps look the same, be it on one line or on many. -/
theorem Program.looks_alike_iff_eq (p p' : Program) :
    (p.dump.line = p'.dump.line ↔ p = p') ∧ (p.dump.block = p'.dump.block ↔ p = p') := by
  have hnamed := p.isNamed_dump
  have hnamed' := p'.isNamed_dump
  rw [Dump.line_eq_iff hnamed hnamed', Dump.block_eq_iff hnamed hnamed', p.dump_eq_iff p']
  exact ⟨Iff.rfl, Iff.rfl⟩

end FrappeSyntax
