import FrappeSyntax.Proofs.Reading

/-!
# Reading one item after the other

A loop reads items for as long as the next token calls for one. Each item takes a token at least and
none that ends the source, so the loop never runs out of turns before it is through.

* `Reads.repeatWhile`: what a loop reads, given what its items read.
-/

namespace FrappeSyntax

open Routine

namespace Reading

/-- Items that the grammar lets be read one after the other. -/
def ManyAdmit (item : Reading α) : List Token → List α → Prop
  | tokens, [] => tokens = []
  | tokens, a :: items => ∃ front back, tokens = front ++ back ∧ item.admits front a ∧
      ManyAdmit item back items

/-- Items that are read one after the other, up to a token that calls for no more. -/
def ManyAccept (calls : Token → Bool) (item : Reading α) (levels : Nat) (following : Token) :
    List Token → List α → Prop
  | tokens, [] => tokens = [] ∧ calls following = false
  | tokens, a :: items => ∃ front back, tokens = front ++ back ∧
      item.accepts levels front a (back.headD following) ∧
      ManyAccept calls item levels following back items

theorem ManyAccept.admit {calls : Token → Bool} {item : Reading α} {levels : Nat}
    {following : Token} {tokens : List Token} {items : List α}
    (h : ManyAccept calls item levels following tokens items) : ManyAdmit item tokens items := by
  induction items generalizing tokens with
  | nil => exact h.1
  | cons a items ih =>
    obtain ⟨front, back, rfl, hacc, hmore⟩ := h
    exact ⟨front, back, rfl, item.admits_of_accepts hacc, ih hmore⟩

theorem ManyAccept.mono {calls : Token → Bool} {item : Reading α} {levels levels' : Nat}
    (hle : levels ≤ levels') {following : Token} {tokens : List Token} {items : List α}
    (h : ManyAccept calls item levels following tokens items) :
    ManyAccept calls item levels' following tokens items := by
  induction items generalizing tokens with
  | nil => exact h
  | cons a items ih =>
    obtain ⟨front, back, rfl, hacc, hmore⟩ := h
    exact ⟨front, back, rfl, item.accepts_mono hle hacc, ih hmore⟩

/-- Items are read for as long as the next token calls for one. -/
def many (calls : Token → Bool) (item : Reading α) : Reading (List α) where
  admits := ManyAdmit item
  accepts levels tokens items following := ManyAccept calls item levels following tokens items
  admits_of_accepts := ManyAccept.admit
  accepts_mono hle h := h.mono hle
  exists_admits := ⟨[], [], rfl⟩

/-- What is read as an item starts with a token that calls for it, and does not end the source. -/
structure IsItem (calls : Token → Bool) (item : Reading α) : Prop where
  starts : ∀ {tokens a}, item.admits tokens a →
    ∃ first rest, tokens = first :: rest ∧ calls first = true
  endless : ∀ {tokens a}, item.admits tokens a → ∀ token ∈ tokens, token.kind ≠ .eof

end Reading

section

variable {calls : Token → Bool} {item full : Routine α} {reading : Reading α}
  {levels more : Nat} {parser : Parser} {turn : Token} {turns : List Token} {items : List α}

/-! ## One turn -/

/-- Where the next token calls for an item, one is read, and the loop goes on. -/
theorem Routine.repeatFor_of_calls (h : calls parser.sequence.head = true) :
    ∃ start, repeatFor calls item items (turn :: turns) parser =
        (item >>= fun a => repeatFor calls item (a :: items) turns) start ∧
      start.sequence = parser.sequence ∧ start.limits = parser.limits := by
  obtain ⟨start, hpeek, hseq, hlim⟩ := Routine.peek_apply parser
  refine ⟨start, ?_, hseq, hlim⟩
  rw [repeatFor, Routine.bind_apply, hpeek]
  dsimp only
  rw [if_pos h]

/-- Where the next token calls for no item, the loop is through. -/
theorem Routine.repeatFor_of_not_calls (h : calls parser.sequence.head = false) :
    ∃ after, repeatFor calls item items (turn :: turns) parser = .ok items.reverse after ∧
      after.sequence = parser.sequence ∧ after.limits = parser.limits := by
  obtain ⟨after, hpeek, hseq, hlim⟩ := Routine.peek_apply parser
  refine ⟨after, ?_, hseq, hlim⟩
  rw [repeatFor, Routine.bind_apply, hpeek]
  dsimp only
  rw [if_neg (by simp [h])]
  rfl

/-- Only what an item does after a token that calls for it matters to a loop. -/
theorem Routine.repeatFor_congr {item' : Routine α}
    (h : ∀ parser, calls parser.sequence.head = true → item parser = item' parser)
    (turns : List Token) (items : List α) :
    repeatFor calls item items turns = repeatFor calls item' items turns := by
  induction turns generalizing items with
  | nil => rfl
  | cons turn turns ih =>
    funext parser
    obtain ⟨start, hpeek, hseq, -⟩ := Routine.peek_apply parser
    rw [repeatFor, repeatFor, Routine.bind_apply, Routine.bind_apply, hpeek]
    dsimp only
    split
    case isTrue hcalls =>
      rw [Routine.bind_apply, Routine.bind_apply, h start (by rw [hseq, hcalls])]
      simp only [ih]
    case isFalse => rfl

/-! ## All turns -/

theorem Routine.repeatFor_sound (h : Reads levels more item full reading)
    (hitem : reading.IsItem calls) {result : List α} {after : Parser}
    (hend : EndsWithin parser.sequence turns.length)
    (hrun : repeatFor calls item items turns parser = .ok result after) :
    ∃ tokens rest, result = items.reverse ++ rest ∧
      parser.sequence = tokens ++ₛ after.sequence ∧
      Reading.ManyAccept calls reading levels after.sequence.head tokens rest := by
  induction turns generalizing items parser with
  | nil => exact absurd hend (not_endsWithin_zero _)
  | cons turn turns ih =>
    cases hcalls : calls parser.sequence.head with
    | false =>
      obtain ⟨p, hp, hseq, -⟩ := repeatFor_of_not_calls hcalls
      rw [hp] at hrun
      cases hrun
      exact ⟨[], [], (List.append_nil _).symm, hseq.symm, rfl, by rw [hseq, hcalls]⟩
    | true =>
      obtain ⟨start, hstart, hseq, -⟩ := repeatFor_of_calls hcalls
      rw [hstart] at hrun
      obtain ⟨a, p, hr, hrun⟩ := Routine.ok_of_bind hrun
      obtain ⟨front, hfront, hacc⟩ := h.sound hr
      have hfront : parser.sequence = front ++ₛ p.sequence := hseq ▸ hfront
      have hadm := reading.admits_of_accepts hacc
      obtain ⟨first, others, rfl, -⟩ := hitem.starts hadm
      obtain ⟨back, rest, hrest, hback, hmore⟩ := ih
        (hend.after hfront (List.cons_ne_nil first others) (hitem.endless hadm)) hrun
      refine ⟨first :: others ++ back, a :: rest, by simp [hrest], ?_, first :: others, back, rfl,
        ?_, hmore⟩
      · rw [hfront, hback, Stream'.append_append_stream]
      · rwa [hback, head_append_stream] at hacc

theorem Routine.repeatFor_complete (h : Reads levels more item full reading)
    (hitem : reading.IsItem calls) {tokens : List Token} {new : List α} {rest : Stream' Token}
    (hend : EndsWithin parser.sequence turns.length) (hfree : parser.limits.deadline = none)
    (hseq : parser.sequence = tokens ++ₛ rest)
    (hacc : Reading.ManyAccept calls reading more rest.head tokens new) :
    ∃ after, repeatFor calls full items turns parser = .ok (items.reverse ++ new) after ∧
      after.sequence = rest ∧ after.limits = parser.limits := by
  induction turns generalizing items parser tokens new with
  | nil => exact absurd hend (not_endsWithin_zero _)
  | cons turn turns ih =>
    cases new with
    | nil =>
      obtain ⟨rfl, hcalls⟩ := hacc
      rw [Stream'.nil_append_stream] at hseq
      rw [← hseq] at hcalls
      obtain ⟨after, hafter, haseq, hlim⟩ := repeatFor_of_not_calls hcalls
      exact ⟨after, by rw [hafter, List.append_nil], by rw [haseq, hseq], hlim⟩
    | cons a new =>
      obtain ⟨front, back, rfl, hacc, hmore⟩ := hacc
      have hadm := reading.admits_of_accepts hacc
      obtain ⟨first, others, rfl, hcalls⟩ := hitem.starts hadm
      have hhead : parser.sequence.head = first := by rw [hseq]; rfl
      rw [← hhead] at hcalls
      obtain ⟨start, hstart, hsseq, hslim⟩ := repeatFor_of_calls hcalls
      rw [Stream'.append_append_stream] at hseq
      rw [← head_append_stream] at hacc
      obtain ⟨p, hp, hpseq, hplim⟩ := h.complete (by rw [hslim, hfree]) (hsseq.trans hseq) hacc
      rw [← hpseq] at hseq
      obtain ⟨after, hafter, haseq, hlim⟩ : ∃ after, repeatFor calls full (a :: items) turns p =
          .ok ((a :: items).reverse ++ new) after ∧ after.sequence = rest ∧
          after.limits = p.limits :=
        ih (hend.after hseq (List.cons_ne_nil first others) (hitem.endless hadm))
          (by rw [hplim, hslim, hfree]) hpseq hmore
      refine ⟨after, ?_, haseq, by rw [hlim, hplim, hslim]⟩
      rw [hstart, Routine.bind_apply, hp]
      simpa using hafter

theorem Routine.repeatFor_blames (h : Reads levels more item full reading)
    (hitem : reading.IsItem calls) {error : Error} {after : Parser}
    (hend : EndsWithin parser.sequence turns.length)
    (hrun : repeatFor calls item items turns parser = .error error after)
    (hsyn : error.IsSyntax) :
    ∃ tokens token, parser.sequence = (tokens ++ [token]) ++ₛ after.sequence ∧
      error.IsAbout token ∧ (∃ more result, reading.ManyAdmit (tokens ++ more) result) ∧
      ∀ {turns' : List Token} {items' parser' rest}, EndsWithin parser'.sequence turns'.length →
        parser'.limits.deadline = none → parser'.sequence = (tokens ++ [token]) ++ₛ rest →
        ∃ after', repeatFor calls full items' turns' parser' = .error error after' ∧
          after'.sequence = rest := by
  induction turns generalizing items parser with
  | nil => exact absurd hend (not_endsWithin_zero _)
  | cons turn turns ih =>
    cases hcalls : calls parser.sequence.head with
    | false =>
      obtain ⟨p, hp, -⟩ := repeatFor_of_not_calls hcalls
      rw [hp] at hrun
      cases hrun
    | true =>
      obtain ⟨start, hstart, hseq, -⟩ := repeatFor_of_calls hcalls
      rw [hstart] at hrun
      rcases Routine.error_of_bind hrun with hr | ⟨a, p, hr, hrun⟩
      · obtain ⟨tokens, token, htokens, -, habout, ⟨rest, a, hadm⟩, hlocal⟩ := h.blames hr hsyn
        have htokens : parser.sequence = tokens ++ [token] ++ₛ after.sequence := hseq ▸ htokens
        refine ⟨tokens, token, htokens, habout,
          ⟨rest, [a], tokens ++ rest, [], (List.append_nil _).symm, hadm, rfl⟩, ?_⟩
        intro turns' items' parser' rest' hend' hfree hseq'
        have hhead : parser'.sequence.head = parser.sequence.head := by
          rw [hseq', htokens, head_append_stream, head_append_stream]
          cases tokens <;> rfl
        cases turns' with
        | nil => exact absurd hend' (not_endsWithin_zero _)
        | cons turn' turns' =>
          rw [← hhead] at hcalls
          obtain ⟨start', hstart', hsseq, hslim⟩ := repeatFor_of_calls hcalls
          obtain ⟨p', hp', hpseq⟩ := hlocal (by rw [hslim, hfree]) (hsseq.trans hseq')
          exact ⟨p', by rw [hstart', Routine.bind_apply, hp'], hpseq⟩
      · obtain ⟨front, hfront, hacc⟩ := h.sound hr
        have hfront : parser.sequence = front ++ₛ p.sequence := hseq ▸ hfront
        have hadm := reading.admits_of_accepts hacc
        obtain ⟨first, others, rfl, hfirst⟩ := hitem.starts hadm
        obtain ⟨tokens, token, htokens, habout, ⟨rest, new, hnew⟩, hlocal⟩ := ih
          (hend.after hfront (List.cons_ne_nil first others) (hitem.endless hadm)) hrun
        refine ⟨first :: others ++ tokens, token, ?_, habout,
          ⟨rest, a :: new, first :: others, tokens ++ rest, List.append_assoc .., hadm, hnew⟩, ?_⟩
        · rw [hfront, htokens, List.append_assoc, Stream'.append_append_stream (first :: others)]
        intro turns' items' parser' rest' hend' hfree hseq'
        rw [List.append_assoc, Stream'.append_append_stream (first :: others)] at hseq'
        cases turns' with
        | nil => exact absurd hend' (not_endsWithin_zero _)
        | cons turn' turns' =>
          have hhead : parser'.sequence.head = first := by rw [hseq']; rfl
          rw [← hhead] at hfirst
          obtain ⟨start', hstart', hsseq, hslim⟩ := repeatFor_of_calls hfirst
          -- the item is followed by the same token as before, so it is read again
          have hnext : p.sequence.head = (tokens ++ [token] ++ₛ rest').head := by
            rw [htokens, head_append_stream, head_append_stream]
            cases tokens <;> rfl
          rw [hnext] at hacc
          obtain ⟨p', hp', hpseq, hplim⟩ := h.complete (by rw [hslim, hfree])
            (hsseq.trans hseq') (reading.accepts_mono h.le hacc)
          rw [← hpseq] at hseq'
          obtain ⟨after', hafter, haseq⟩ := hlocal
            (hend'.after hseq' (List.cons_ne_nil first others) (hitem.endless hadm))
            (by rw [hplim, hslim, hfree]) hpseq
          refine ⟨after', ?_, haseq⟩
          rw [hstart', Routine.bind_apply, hp']
          exact hafter

theorem Routine.repeatFor_refuses (h : Reads levels more item full reading)
    (hitem : reading.IsItem calls) {error : Error} {after : Parser}
    (hend : EndsWithin parser.sequence turns.length)
    (hrun : repeatFor calls item items turns parser = .error error after)
    (hnot : ¬ error.IsSyntax) :
    ∃ tokens, parser.sequence = tokens ++ₛ after.sequence ∧
      error.position = after.sequence.head.position ∧
      ∃ more result, reading.ManyAdmit (tokens ++ more) result := by
  induction turns generalizing items parser with
  | nil => exact absurd hend (not_endsWithin_zero _)
  | cons turn turns ih =>
    cases hcalls : calls parser.sequence.head with
    | false =>
      obtain ⟨p, hp, -⟩ := repeatFor_of_not_calls hcalls
      rw [hp] at hrun
      cases hrun
    | true =>
      obtain ⟨start, hstart, hseq, -⟩ := repeatFor_of_calls hcalls
      rw [hstart] at hrun
      rcases Routine.error_of_bind hrun with hr | ⟨a, p, hr, hrun⟩
      · obtain ⟨tokens, htokens, hposition, rest, a, hadm⟩ := h.refuses hr hnot
        exact ⟨tokens, hseq ▸ htokens, hposition, rest, [a], tokens ++ rest, [],
          (List.append_nil _).symm, hadm, rfl⟩
      · obtain ⟨front, hfront, hacc⟩ := h.sound hr
        have hfront : parser.sequence = front ++ₛ p.sequence := hseq ▸ hfront
        have hadm := reading.admits_of_accepts hacc
        obtain ⟨first, others, rfl, -⟩ := hitem.starts hadm
        obtain ⟨tokens, htokens, hposition, rest, new, hnew⟩ := ih
          (hend.after hfront (List.cons_ne_nil first others) (hitem.endless hadm)) hrun
        refine ⟨first :: others ++ tokens, ?_, hposition, rest, a :: new, first :: others,
          tokens ++ rest, List.append_assoc .., hadm, hnew⟩
        rw [hfront, htokens, Stream'.append_append_stream]

/-- What a loop reads: items, for as long as the next token calls for one. -/
theorem Reads.repeatWhile (h : Reads levels more item full reading)
    (hitem : reading.IsItem calls) :
    Reads levels more (Routine.repeatWhile calls item) (Routine.repeatWhile calls full)
      (reading.many calls) where
  le := h.le
  sound := by
    intro parser result after hrun
    obtain ⟨tokens, rest, rfl, hseq, hacc⟩ := repeatFor_sound h hitem parser.stream.endsWithin hrun
    exact ⟨tokens, hseq, hacc⟩
  complete := by
    intro parser tokens result rest hfree hseq hacc
    exact repeatFor_complete h hitem parser.stream.endsWithin hfree hseq hacc
  blames := by
    intro parser error after hrun hsyn
    obtain ⟨tokens, token, hseq, habout, hviable, hlocal⟩ :=
      repeatFor_blames h hitem parser.stream.endsWithin hrun hsyn
    refine ⟨tokens, token, hseq, Nat.zero_le _, habout, hviable, ?_⟩
    intro parser' rest hfree hseq'
    exact hlocal parser'.stream.endsWithin hfree hseq'
  refuses := by
    intro parser error after hrun hnot
    exact repeatFor_refuses h hitem parser.stream.endsWithin hrun hnot

end

end FrappeSyntax
