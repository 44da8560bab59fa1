import FrappeSyntax.Text.Quoted

/-!
# Dumps

A dump shows a value in full, as text that tells the parts of the value by name: a bare name, a
quoted text, a name with a value in parentheses, or a name with named fields in braces. It is
written on one line or on many, where each level is indented by four blanks and each part ends
with a comma. So the types of `frappe::ast` are shown; `main` shows a program on many lines.
-/

namespace FrappeSyntax

mutual

/-- A value to be shown. -/
inductive Dump
  | bare (name : String)
  | quoted (text : String)
  | wrapped (name : String) (inner : Dump)
  | record (name : String) (fields : DumpFields)

/-- The fields of a value. -/
inductive DumpFields
  | nil
  | cons (name : String) (value : Dump) (rest : DumpFields)

end

namespace Dump

mutual

/-- Appends a value on one line. -/
def appendLine (out : String) : Dump → String
  | bare name => out ++ name
  | quoted text => out ++ Text.quoted text
  | wrapped name inner => appendLine (out ++ name ++ "(") inner ++ ")"
  | record name fields => appendLineOfFields (out ++ name ++ " \x7b") " " fields ++ " \x7d"

/-- Appends fields on one line, the first after `separator`. -/
def appendLineOfFields (out separator : String) : DumpFields → String
  | .nil => out
  | .cons name value rest =>
    appendLineOfFields (appendLine (out ++ separator ++ name ++ ": ") value) ", " rest

end

/-- The start of a line at a level. -/
def margin (level : Nat) : String := String.ofList (List.replicate (4 * level) ' ')

mutual

/-- Appends a value on many lines, the first of which was begun at `level`. -/
def appendBlock (level : Nat) (out : String) : Dump → String
  | bare name => out ++ name
  | quoted text => out ++ Text.quoted text
  | wrapped name inner =>
    appendBlock (level + 1) (out ++ name ++ "(\n" ++ margin (level + 1)) inner ++ ",\n" ++
      margin level ++ ")"
  | record name fields =>
    appendBlockOfFields (level + 1) (out ++ name ++ " \x7b\n") fields ++ margin level ++ "\x7d"

/-- Appends fields on lines of their own at `level`. -/
def appendBlockOfFields (level : Nat) (out : String) : DumpFields → String
  | .nil => out
  | .cons name value rest =>
    appendBlockOfFields level
      (appendBlock level (out ++ margin level ++ name ++ ": ") value ++ ",\n") rest

end

/-- A value on one line. -/
def line (dump : Dump) : String := appendLine "" dump

/-- A value on many lines. -/
def block (dump : Dump) : String := appendBlock 0 "" dump

/-- A value with one field. -/
def record1 (name field : String) (value : Dump) : Dump :=
  record name (.cons field value .nil)

/-- A value with two fields. -/
def record2 (name field₁ : String) (value₁ : Dump) (field₂ : String) (value₂ : Dump) : Dump :=
  record name (.cons field₁ value₁ (.cons field₂ value₂ .nil))

/-- A value with three fields. -/
def record3 (name field₁ : String) (value₁ : Dump) (field₂ : String) (value₂ : Dump)
    (field₃ : String) (value₃ : Dump) : Dump :=
  record name (.cons field₁ value₁ (.cons field₂ value₂ (.cons field₃ value₃ .nil)))

/-- A value that may be lacking. -/
def ofOption : Option Dump → Dump
  | none => bare "None"
  | some value => wrapped "Some" value

/-- A list as linked records, which hold an item in `field` and the records of the rest in `rest`.
An empty list has no record. -/
def ofItems? (name field : String) : List Dump → Option Dump
  | [] => none
  | first :: rest => some (record2 name field first "rest" (ofOption (ofItems? name field rest)))

/-- A series as linked records. -/
def ofSeries (name field : String) (first : Dump) (rest : List Dump) : Dump :=
  record2 name field first "rest" (ofOption (ofItems? name field rest))

end Dump

end FrappeSyntax
