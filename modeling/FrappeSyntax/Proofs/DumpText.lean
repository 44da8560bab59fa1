import FrappeSyntax.Dump
import FrappeSyntax.Proofs.QuotedText

/-!
# Reading dumps

The text of a dump determines the dump, on one line as well as on many, and it can be told from what
follows it. For a name ends where no character of a name follows, what comes next tells what kind of
value it is, a quoted text is read up to its closing quote, and the parts of a value stand between
marks that no part starts with.

* `Dump.Layout`: the marks between the parts of a value.
* `Dump.written`: the characters of a dump in a layout.
* `Dump.toList_line`, `Dump.toList_block`: a dump on one line, and on many, is written so.
* `Dump.written_append_inj`: a dump, and what follows it, can be told from both together.
* `Dump.line_eq_iff`, `Dump.block_eq_iff`: dumps that look the same are the same.
-/

namespace FrappeSyntax

namespace Dump

/-! ## Layouts -/

/-- How a value is laid out. -/
inductive Layout
  | line
  /-- On many lines, the first of which was begun at a level. -/
  | block (level : Nat)

namespace Layout

/-- The layout of the parts of a value. -/
def deeper : Layout → Layout
  | line => line
  | block level => block (level + 1)

/-- What stands between the opening parenthesis and a value. -/
def inside : Layout → List Char
  | line => []
  | block level => '\n' :: (margin (level + 1)).toList

/-- What stands after each part of a value. -/
def ended : Layout → List Char
  | line => []
  | block _ => [',', '\n']

/-- What stands before the closing parenthesis. -/
def outside : Layout → List Char
  | line => []
  | block level => (margin level).toList

/-- What stands after the opening brace. -/
def opened : Layout → List Char
  | line => []
  | block _ => ['\n']

/-- What stands before a field; on one line the first field has no comma before it. -/
def lead : Layout → Bool → List Char
  | line, isFirst => if isFirst then [' '] else [',', ' ']
  | block level, _ => (margin (level + 1)).toList

/-- What stands before the closing brace. -/
def closing : Layout → List Char
  | line => [' ']
  | block level => (margin level).toList

end Layout

/-! ## The characters of a dump -/

/-- The name that a value starts with; a quoted text has none. -/
def name : Dump → String
  | bare name => name
  | quoted _ => ""
  | wrapped name _ => name
  | record name _ => name

mutual

/-- The characters of a value after its name. -/
def body : Layout → Dump → List Char
  | _, bare _ => []
  | _, quoted text => (Text.quoted text).toList
  | layout, wrapped _ inner =>
    '(' :: layout.inside ++ inner.name.toList ++ body layout.deeper inner ++ layout.ended ++
      layout.outside ++ [')']
  | layout, record _ fields =>
    ' ' :: '\x7b' :: layout.opened ++ writtenFields layout true fields ++ layout.closing ++ ['\x7d']

/-- The characters of fields in the layout of their value. -/
def writtenFields : Layout → Bool → DumpFields → List Char
  | _, _, .nil => []
  | layout, isFirst, .cons name value rest =>
    layout.lead isFirst ++ name.toList ++ ':' :: ' ' :: value.name.toList ++
      body layout.deeper value ++ layout.ended ++ writtenFields layout false rest

end

/-- The characters of a dump in a layout. -/
def written (layout : Layout) (dump : Dump) : List Char :=
  dump.name.toList ++ body layout dump

mutual

theorem toList_appendLine (out : String) :
    ∀ dump, (appendLine out dump).toList = out.toList ++ written .line dump
  | bare name => by simp [appendLine, written, Dump.name, body]
  | quoted text => by simp [appendLine, written, Dump.name, body]
  | wrapped name inner => by
    rw [appendLine, String.toList_append, toList_appendLine _ inner]
    simp [written, Dump.name, body, Layout.inside, Layout.ended, Layout.outside, Layout.deeper]
  | record name fields => by
    rw [appendLine, String.toList_append, toList_appendLineOfFields _ _ true rfl fields]
    simp [written, Dump.name, body, Layout.opened, Layout.closing]

theorem toList_appendLineOfFields (out separator : String) (isFirst : Bool)
    (h : separator.toList = Layout.line.lead isFirst) :
    ∀ fields, (appendLineOfFields out separator fields).toList =
      out.toList ++ writtenFields .line isFirst fields
  | .nil => by simp [appendLineOfFields, writtenFields]
  | .cons name value rest => by
    rw [appendLineOfFields, toList_appendLineOfFields _ _ false rfl rest,
      toList_appendLine _ value, writtenFields, ← h]
    simp [written, Layout.ended, Layout.deeper]

end

mutual

theorem toList_appendBlock (level : Nat) (out : String) :
    ∀ dump, (appendBlock level out dump).toList = out.toList ++ written (.block level) dump
  | bare name => by simp [appendBlock, written, Dump.name, body]
  | quoted text => by simp [appendBlock, written, Dump.name, body]
  | wrapped name inner => by
    rw [appendBlock, String.toList_append, String.toList_append, String.toList_append,
      toList_appendBlock (level + 1) _ inner]
    simp [written, Dump.name, body, Layout.inside, Layout.ended, Layout.outside, Layout.deeper]
  | record name fields => by
    rw [appendBlock, String.toList_append, String.toList_append,
      toList_appendBlockOfFields level _ true fields]
    simp [written, Dump.name, body, Layout.opened, Layout.closing]

theorem toList_appendBlockOfFields (level : Nat) (out : String) (isFirst : Bool) :
    ∀ fields, (appendBlockOfFields (level + 1) out fields).toList =
      out.toList ++ writtenFields (.block level) isFirst fields
  | .nil => by simp [appendBlockOfFields, writtenFields]
  | .cons name value rest => by
    rw [appendBlockOfFields, toList_appendBlockOfFields level _ false rest, String.toList_append,
      toList_appendBlock (level + 1) _ value, writtenFields]
    simp [written, Layout.ended, Layout.lead, Layout.deeper]

end

theorem toList_line (dump : Dump) : dump.line.toList = written .line dump := by
  rw [line, toList_appendLine]
  rfl

theorem toList_block (dump : Dump) : dump.block.toList = written (.block 0) dump := by
  rw [block, toList_appendBlock]
  rfl

/-! ## Names -/

/-- Holds for a text made of letters, digits and `_`. -/
def isName (name : String) : Bool := name.toList.all Lexeme.isNameChar

mutual

/-- Holds for a dump in which all that is not quoted is a name. -/
def isNamed : Dump → Bool
  | bare name => isName name
  | quoted _ => true
  | wrapped name inner => isName name && isNamed inner
  | record name fields => isName name && areNamed fields

/-- Holds for fields in which all that is not quoted is a name. -/
def areNamed : DumpFields → Bool
  | .nil => true
  | .cons name value rest => isName name && (isNamed value && areNamed rest)

end

/-- A name, and what follows it, can be told where no character of a name follows. -/
theorem name_append_inj {name name' : String} {rest rest' : List Char} (hname : isName name = true)
    (hname' : isName name' = true) (hrest : ∀ c ∈ rest.head?, Lexeme.isNameChar c = false)
    (hrest' : ∀ c ∈ rest'.head?, Lexeme.isNameChar c = false)
    (h : name.toList ++ rest = name'.toList ++ rest') : name = name' ∧ rest = rest' := by
  have hchars := List.all_eq_true.mp hname
  have hchars' := List.all_eq_true.mp hname'
  constructor
  · rw [← String.toList_inj, ← takeWhile_append_eq hchars hrest, h,
      takeWhile_append_eq hchars' hrest']
  · rw [← dropWhile_append_eq hchars hrest, h, dropWhile_append_eq hchars' hrest']

/-! ## What follows a value -/

/-- What can follow a value: nothing, a comma, a closing parenthesis, or a closing brace after a
blank. -/
inductive Ends : List Char → Prop
  | stop : Ends []
  | comma (rest : List Char) : Ends (',' :: rest)
  | parenthesis (rest : List Char) : Ends (')' :: rest)
  | brace (rest : List Char) : Ends (' ' :: '\x7d' :: rest)

/-- What follows a value in parentheses. -/
theorem Layout.ends_outside (layout : Layout) (rest : List Char) :
    Ends (layout.ended ++ (layout.outside ++ ')' :: rest)) := by
  cases layout with
  | line => exact .parenthesis rest
  | block level => exact .comma _

/-- What follows the value of a field. -/
theorem Layout.ends_fields (layout : Layout) (fields : DumpFields) (rest : List Char) :
    Ends (layout.ended ++
      (writtenFields layout false fields ++ (layout.closing ++ '\x7d' :: rest))) := by
  cases layout with
  | line =>
    cases fields with
    | nil => exact .brace rest
    | cons name value fields => exact .comma _
  | block level => exact .comma _

theorem toList_margin_succ (level : Nat) :
    (margin (level + 1)).toList = (margin level).toList ++ [' ', ' ', ' ', ' '] := by
  rw [margin, margin, String.toList_ofList, String.toList_ofList, Nat.mul_add,
    ← List.replicate_append_replicate]
  rfl

/-- No field stands where a value is closed. -/
theorem Layout.closing_ne_lead (layout : Layout) (isFirst : Bool) {name : String}
    (h : isName name = true) (rest rest' : List Char) :
    layout.closing ++ '\x7d' :: rest ≠ layout.lead isFirst ++ (name.toList ++ ':' :: rest') := by
  have hname : '\x7d' :: rest ≠ name.toList ++ ':' :: rest' := by
    intro heq
    have hempty : "".toList ++ '\x7d' :: rest = name.toList ++ ':' :: rest' := heq
    obtain ⟨-, hrest⟩ := name_append_inj rfl h (by rintro c ⟨⟩; rfl) (by rintro c ⟨⟩; rfl) hempty
    cases hrest
  intro heq
  cases layout with
  | line =>
    cases isFirst with
    | true => exact hname (List.cons.inj heq).2
    | false => cases heq
  | block level =>
    rw [closing, lead, toList_margin_succ, List.append_assoc, List.append_cancel_left_eq] at heq
    cases heq

/-! ## Telling values apart -/

/-- The kinds of values. -/
inductive Form
  | bare
  | quoted
  | wrapped
  | record

/-- The kind of value that goes on with a text after its name. -/
def Form.ofText : List Char → Form
  | '"' :: _ => quoted
  | '(' :: _ => wrapped
  | ' ' :: '\x7b' :: _ => record
  | _ => bare

/-- The kind of a value. -/
def form : Dump → Form
  | bare _ => .bare
  | quoted _ => .quoted
  | wrapped _ _ => .wrapped
  | record _ _ => .record

section

variable {layout : Layout} {dump dump' : Dump} {rest rest' : List Char}

theorem isName_name (h : isNamed dump = true) : isName dump.name = true := by
  cases dump with
  | bare name => exact h
  | quoted text => rfl
  | wrapped name inner => exact (Bool.and_eq_true_iff.mp h).1
  | record name fields => exact (Bool.and_eq_true_iff.mp h).1

/-- What comes after its name tells the kind of a value. -/
theorem ofText_body (dump : Dump) (h : Ends rest) :
    Form.ofText (body layout dump ++ rest) = dump.form := by
  cases dump with
  | bare name => cases h <;> rfl
  | quoted text =>
    rw [body, Text.quoted, String.toList_ofList]
    rfl
  | wrapped | record => rfl

theorem isNameChar_body (dump : Dump) (h : Ends rest) :
    ∀ c ∈ (body layout dump ++ rest).head?, Lexeme.isNameChar c = false := by
  cases dump with
  | bare name => cases h <;> rintro c ⟨⟩ <;> rfl
  | quoted text =>
    rw [body, Text.quoted, String.toList_ofList]
    rintro c ⟨⟩
    rfl
  | wrapped | record =>
    rintro c ⟨⟩
    rfl

/-- Values that are written alike start with the same name, and go on in the same way after it. -/
theorem body_append_inj (hnamed : isNamed dump = true) (hnamed' : isNamed dump' = true)
    (hrest : Ends rest) (hrest' : Ends rest')
    (h : written layout dump ++ rest = written layout dump' ++ rest') :
    dump.name = dump'.name ∧ dump.form = dump'.form ∧
      body layout dump ++ rest = body layout dump' ++ rest' := by
  rw [written, written, List.append_assoc, List.append_assoc] at h
  obtain ⟨hname, hbody⟩ := name_append_inj (isName_name hnamed) (isName_name hnamed')
    (isNameChar_body dump hrest) (isNameChar_body dump' hrest') h
  refine ⟨hname, ?_, hbody⟩
  rw [← ofText_body dump hrest, hbody, ofText_body dump' hrest']

end

theorem body_wrapped_append (layout : Layout) (name : String) (inner : Dump) (rest : List Char) :
    body layout (wrapped name inner) ++ rest =
      '(' :: (layout.inside ++ (written layout.deeper inner ++
        (layout.ended ++ (layout.outside ++ ')' :: rest)))) := by
  simp [body, written]

theorem body_record_append (layout : Layout) (name : String) (fields : DumpFields)
    (rest : List Char) :
    body layout (record name fields) ++ rest =
      ' ' :: '\x7b' :: (layout.opened ++
        (writtenFields layout true fields ++ (layout.closing ++ '\x7d' :: rest))) := by
  simp [body]

theorem writtenFields_cons_append (layout : Layout) (isFirst : Bool) (name : String) (value : Dump)
    (fields : DumpFields) (rest : List Char) :
    writtenFields layout isFirst (.cons name value fields) ++ rest =
      layout.lead isFirst ++ (name.toList ++ ':' :: ' ' :: (written layout.deeper value ++
        (layout.ended ++ (writtenFields layout false fields ++ rest)))) := by
  simp [writtenFields, written]

mutual

/-- A value, and what follows it, can be told from both together. -/
theorem written_append_inj (layout : Layout) {rest rest' : List Char} (dump dump' : Dump)
    (hnamed : isNamed dump = true) (hnamed' : isNamed dump' = true) (hrest : Ends rest)
    (hrest' : Ends rest') (h : written layout dump ++ rest = written layout dump' ++ rest') :
    dump = dump' ∧ rest = rest' := by
  obtain ⟨hname, hform, hbody⟩ := body_append_inj hnamed hnamed' hrest hrest' h
  cases dump with
  | bare name =>
    cases dump' with
    | bare name' => exact ⟨congrArg bare hname, hbody⟩
    | quoted | wrapped | record => cases hform
  | quoted text =>
    cases dump' with
    | quoted text' =>
      obtain ⟨rfl, hrests⟩ := Text.quoted_append_inj hbody
      exact ⟨rfl, hrests⟩
    | bare | wrapped | record => cases hform
  | wrapped name inner =>
    cases dump' with
    | wrapped name' inner' =>
      obtain rfl : name = name' := hname
      rw [body_wrapped_append, body_wrapped_append] at hbody
      obtain ⟨rfl, hafter⟩ := written_append_inj layout.deeper inner inner'
        (Bool.and_eq_true_iff.mp hnamed).2 (Bool.and_eq_true_iff.mp hnamed').2
        (layout.ends_outside rest) (layout.ends_outside rest')
        (List.append_cancel_left (List.cons.inj hbody).2)
      have hclosed := List.append_cancel_left (List.append_cancel_left hafter)
      exact ⟨rfl, (List.cons.inj hclosed).2⟩
    | bare | quoted | record => cases hform
  | record name fields =>
    cases dump' with
    | record name' fields' =>
      obtain rfl : name = name' := hname
      rw [body_record_append, body_record_append] at hbody
      obtain ⟨rfl, hrests⟩ := writtenFields_append_inj layout true fields fields'
        (Bool.and_eq_true_iff.mp hnamed).2 (Bool.and_eq_true_iff.mp hnamed').2
        (List.append_cancel_left (List.cons.inj (List.cons.inj hbody).2).2)
      exact ⟨rfl, hrests⟩
    | bare | quoted | wrapped => cases hform

/-- Fields, and what follows the brace after them, can be told from all together. -/
theorem writtenFields_append_inj (layout : Layout) (isFirst : Bool) {rest rest' : List Char} :
    ∀ fields fields' : DumpFields, areNamed fields = true → areNamed fields' = true →
      writtenFields layout isFirst fields ++ (layout.closing ++ '\x7d' :: rest) =
        writtenFields layout isFirst fields' ++ (layout.closing ++ '\x7d' :: rest') →
      fields = fields' ∧ rest = rest'
  | .nil, .nil, _, _, h => ⟨rfl, (List.cons.inj (List.append_cancel_left h)).2⟩
  | .nil, .cons name' value' fields', _, hnamed', h => by
    rw [writtenFields_cons_append] at h
    exact absurd h (layout.closing_ne_lead isFirst (Bool.and_eq_true_iff.mp hnamed').1 _ _)
  | .cons name value fields, .nil, hnamed, _, h => by
    rw [writtenFields_cons_append] at h
    exact absurd h.symm (layout.closing_ne_lead isFirst (Bool.and_eq_true_iff.mp hnamed).1 _ _)
  | .cons name value fields, .cons name' value' fields', hnamed, hnamed', h => by
    obtain ⟨hname, hparts⟩ := Bool.and_eq_true_iff.mp hnamed
    obtain ⟨hname', hparts'⟩ := Bool.and_eq_true_iff.mp hnamed'
    obtain ⟨hvalue, hfields⟩ := Bool.and_eq_true_iff.mp hparts
    obtain ⟨hvalue', hfields'⟩ := Bool.and_eq_true_iff.mp hparts'
    rw [writtenFields_cons_append, writtenFields_cons_append] at h
    obtain ⟨rfl, hcolon⟩ := name_append_inj hname hname' (by rintro c ⟨⟩; rfl)
      (by rintro c ⟨⟩; rfl) (List.append_cancel_left h)
    obtain ⟨rfl, hafter⟩ := written_append_inj layout.deeper value value' hvalue hvalue'
      (layout.ends_fields fields rest) (layout.ends_fields fields' rest')
      (List.cons.inj (List.cons.inj hcolon).2).2
    obtain ⟨rfl, hrests⟩ := writtenFields_append_inj layout false fields fields' hfields hfields'
      (List.append_cancel_left hafter)
    exact ⟨rfl, hrests⟩

end

/-! ## Dumps that look the same -/

theorem eq_of_written_eq (layout : Layout) {dump dump' : Dump} (hnamed : isNamed dump = true)
    (hnamed' : isNamed dump' = true) (h : written layout dump = written layout dump') :
    dump = dump' :=
  (written_append_inj layout dump dump' hnamed hnamed' .stop .stop (congrArg (· ++ []) h)).1

theorem line_eq_iff {dump dump' : Dump} (hnamed : isNamed dump = true)
    (hnamed' : isNamed dump' = true) : dump.line = dump'.line ↔ dump = dump' := by
  refine ⟨fun h => eq_of_written_eq .line hnamed hnamed' ?_, congrArg line⟩
  rw [← toList_line, h, toList_line]

theorem block_eq_iff {dump dump' : Dump} (hnamed : isNamed dump = true)
    (hnamed' : isNamed dump' = true) : dump.block = dump'.block ↔ dump = dump' := by
  refine ⟨fun h => eq_of_written_eq (.block 0) hnamed hnamed' ?_, congrArg block⟩
  rw [← toList_block, h, toList_block]

end Dump

end FrappeSyntax
