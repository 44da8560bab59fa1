import FrappeSyntax.Proofs.Spelling
import FrappeSyntax.Text.Quoted
import Mathlib.Tactic.IntervalCases

/-!
# Reading quoted text

A quoted text can be read back, and so can what follows its closing quote: each character is told
from the way in which it is shown, a hidden one from its number, and no character is shown as a bare
quote.

* `Text.hexValue_hexDigits`: a number is read back from its hexadecimal digits.
* `Text.unescape?_escape`: a character is read back from the way in which it is shown.
* `Text.quoted_append_inj`: a quoted text, and what follows it, can be told from both together.
-/

namespace FrappeSyntax.Text

/-! ## Hexadecimal digits -/

/-- The value of a hexadecimal digit. -/
def digitValue (d : Char) : Nat :=
  if d.isDigit then d.toNat - '0'.toNat else d.toNat - 'a'.toNat + 10

/-- The number that hexadecimal digits write. -/
def hexValue (digits : List Char) : Nat :=
  digits.foldl (fun n d => 16 * n + digitValue d) 0

theorem digitValue_digitChar {n : Nat} (h : n < 16) : digitValue n.digitChar = n := by
  interval_cases n <;> rfl

theorem digitChar_ne_brace {n : Nat} (h : n < 16) : n.digitChar ≠ '\x7d' := by
  interval_cases n <;> decide

/-- A number that needs more than one digit. -/
theorem hexDigits_eq (n : Nat) : hexDigits n =
    if n < 16 then [n.digitChar] else hexDigits (n / 16) ++ [(n % 16).digitChar] :=
  Nat.toDigits_eq_if (by decide)

theorem hexValue_hexDigits (n : Nat) : hexValue (hexDigits n) = n := by
  induction n using Nat.strongRecOn with
  | ind n ih =>
    rw [hexDigits_eq]
    split
    next hlt =>
      rw [hexValue, List.foldl_cons, List.foldl_nil, digitValue_digitChar hlt]
      omega
    next hle =>
      have hmore := ih (n / 16) (by omega)
      rw [hexValue] at hmore ⊢
      rw [List.foldl_append, hmore, List.foldl_cons, List.foldl_nil,
        digitValue_digitChar (Nat.mod_lt n (by decide))]
      omega

theorem ne_brace_of_mem_hexDigits {n : Nat} {d : Char} (h : d ∈ hexDigits n) : d ≠ '\x7d' := by
  induction n using Nat.strongRecOn with
  | ind n ih =>
    rw [hexDigits_eq] at h
    split at h
    next hlt =>
      rw [List.mem_singleton.mp h]
      exact digitChar_ne_brace hlt
    next hle =>
      rcases List.mem_append.mp h with hmore | hlast
      · exact ih (n / 16) (by omega) hmore
      · rw [List.mem_singleton.mp hlast]
        exact digitChar_ne_brace (Nat.mod_lt n (by decide))

/-! ## Characters -/

/-- The character that a short escape stands for. -/
def meant? : Char → Option Char
  | '"' => some '"'
  | '\\' => some '\\'
  | '0' => some '\x00'
  | 't' => some '\t'
  | 'n' => some '\n'
  | 'r' => some '\r'
  | _ => none

/-- Reads the next character of a quoted text, and what follows it; there is none at the closing
quote. -/
def unescape? : List Char → Option (Char × List Char)
  | [] => none
  | '"' :: _ => none
  | '\\' :: 'u' :: '\x7b' :: cs =>
    some (Char.ofNat (hexValue (cs.takeWhile (· != '\x7d'))),
      (cs.dropWhile (· != '\x7d')).tail)
  | '\\' :: c :: cs => (meant? c).map fun meant => (meant, cs)
  | c :: cs => some (c, cs)

/-- A character that is shown by its number is read back. -/
theorem unescape?_number (c : Char) (rest : List Char) :
    unescape? (['\\', 'u', '\x7b'] ++ hexDigits c.toNat ++ ['\x7d'] ++ rest) = some (c, rest) := by
  have hdigits : ∀ d ∈ hexDigits c.toNat, (d != '\x7d') = true :=
    fun d hd => bne_iff_ne.mpr (ne_brace_of_mem_hexDigits hd)
  have hrest : ∀ d ∈ ('\x7d' :: rest).head?, (d != '\x7d') = false := by
    rintro d ⟨⟩
    rfl
  rw [List.append_assoc, List.append_assoc]
  show unescape? ('\\' :: 'u' :: '\x7b' :: (hexDigits c.toNat ++ '\x7d' :: rest)) = _
  rw [unescape?, takeWhile_append_eq hdigits hrest, dropWhile_append_eq hdigits hrest,
    hexValue_hexDigits, Char.ofNat_toNat, List.tail_cons]

theorem unescape?_escape (c : Char) (rest : List Char) :
    unescape? (escape c ++ rest) = some (c, rest) := by
  rw [escape]
  split_ifs with hquote hbackslash hnul htab hfeed hreturn hhidden
  · rw [hquote]; rfl
  · rw [hbackslash]; rfl
  · rw [hnul]; rfl
  · rw [htab]; rfl
  · rw [hfeed]; rfl
  · rw [hreturn]; rfl
  · exact unescape?_number c rest
  · rw [List.singleton_append, unescape?] <;> simp_all

/-! ## Quoted text -/

/-- The characters between two quotes can be told, and what follows the second one. -/
theorem flatMap_escape_append_inj {cs cs' rest rest' : List Char}
    (h : cs.flatMap escape ++ '"' :: rest = cs'.flatMap escape ++ '"' :: rest') :
    cs = cs' ∧ rest = rest' := by
  induction cs generalizing cs' with
  | nil =>
    cases cs' with
    | nil => exact ⟨rfl, (List.cons.inj h).2⟩
    | cons c' cs' =>
      have hread := congrArg unescape? h
      rw [List.flatMap_cons, List.append_assoc, unescape?_escape] at hread
      cases hread
  | cons c cs ih =>
    have hread := congrArg unescape? h
    rw [List.flatMap_cons, List.append_assoc, unescape?_escape] at hread
    cases cs' with
    | nil => cases hread
    | cons c' cs' =>
      rw [List.flatMap_cons, List.append_assoc, unescape?_escape] at hread
      obtain ⟨rfl, hmore⟩ := Prod.mk.inj (Option.some.inj hread)
      obtain ⟨rfl, hrest⟩ := ih hmore
      exact ⟨rfl, hrest⟩

theorem quoted_append_inj {text text' : String} {rest rest' : List Char}
    (h : (quoted text).toList ++ rest = (quoted text').toList ++ rest') :
    text = text' ∧ rest = rest' := by
  rw [quoted, quoted, String.toList_ofList, String.toList_ofList, List.append_assoc,
    List.append_assoc] at h
  obtain ⟨htext, hrest⟩ := flatMap_escape_append_inj (List.cons.inj h).2
  exact ⟨String.toList_inj.mp htext, hrest⟩

end FrappeSyntax.Text
