/-!
# Byte measures of text

Text is a list of characters; places in it are counted in bytes of its UTF-8 form. This module
measures text in bytes and cuts it at byte offsets. A cut that would split a character, or that
lies past the end, does not exist.

* `dropBytes?_byteSize_append`, `takeBytes?_byteSize_append`: a cut after the bytes of `xs`
  divides `xs ++ ys` into `xs` and `ys`.
-/

namespace FrappeSyntax.Text

/-- The number of bytes of a text in UTF-8. -/
def byteSize : List Char → Nat
  | [] => 0
  | c :: cs => c.utf8Size + byteSize cs

/-- The text after the first `n` bytes, if `n` lies between two characters or at an end. -/
def dropBytes? : Nat → List Char → Option (List Char)
  | 0, cs => some cs
  | _ + 1, [] => none
  | n + 1, c :: cs => if c.utf8Size ≤ n + 1 then dropBytes? (n + 1 - c.utf8Size) cs else none

/-- The first `n` bytes of a text, if `n` lies between two characters or at an end. -/
def takeBytes? : Nat → List Char → Option (List Char)
  | 0, _ => some []
  | _ + 1, [] => none
  | n + 1, c :: cs =>
    if c.utf8Size ≤ n + 1 then (takeBytes? (n + 1 - c.utf8Size) cs).map (c :: ·) else none

/-- The text from byte `start` up to byte `stop`, if both are cuts and in this order. -/
def sliceBytes? (start stop : Nat) (cs : List Char) : Option (List Char) :=
  if start ≤ stop then (dropBytes? start cs).bind (takeBytes? (stop - start)) else none

@[simp] theorem byteSize_nil : byteSize [] = 0 := rfl

@[simp] theorem byteSize_cons (c : Char) (cs : List Char) :
    byteSize (c :: cs) = c.utf8Size + byteSize cs := rfl

@[simp] theorem byteSize_append (xs ys : List Char) :
    byteSize (xs ++ ys) = byteSize xs + byteSize ys := by
  induction xs with
  | nil => simp
  | cons c cs ih => simp [ih, Nat.add_assoc]

theorem dropBytes?_byteSize_append (xs ys : List Char) :
    dropBytes? (byteSize xs) (xs ++ ys) = some ys := by
  induction xs with
  | nil => rw [List.nil_append, byteSize_nil, dropBytes?]
  | cons c cs ih =>
    obtain ⟨n, hn⟩ := Nat.exists_eq_add_one_of_ne_zero (Nat.ne_of_gt c.utf8Size_pos)
    have size : byteSize (c :: cs) = (n + byteSize cs) + 1 := by
      rw [byteSize_cons, hn]; omega
    rw [size, List.cons_append, dropBytes?, if_pos (by omega)]
    rw [show n + byteSize cs + 1 - c.utf8Size = byteSize cs by omega, ih]

theorem takeBytes?_byteSize_append (xs ys : List Char) :
    takeBytes? (byteSize xs) (xs ++ ys) = some xs := by
  induction xs with
  | nil => rw [List.nil_append, byteSize_nil, takeBytes?]
  | cons c cs ih =>
    obtain ⟨n, hn⟩ := Nat.exists_eq_add_one_of_ne_zero (Nat.ne_of_gt c.utf8Size_pos)
    have size : byteSize (c :: cs) = (n + byteSize cs) + 1 := by
      rw [byteSize_cons, hn]; omega
    rw [size, List.cons_append, takeBytes?, if_pos (by omega)]
    rw [show n + byteSize cs + 1 - c.utf8Size = byteSize cs by omega, ih]
    rfl

end FrappeSyntax.Text
