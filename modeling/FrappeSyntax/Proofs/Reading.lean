import FrappeSyntax.Proofs.Sequence

/-!
# Readings

A reading says what a routine may make of the tokens before it: which tokens the grammar lets be
read as which result, and which of these are read with a number of levels when a given token
follows. A routine *reads* a reading if it does exactly this, puts the blame for a syntax error on
the first token that rules every continuation out, and refuses a level only where it could go on.

Readings are put together as routines are, so the routine for a production reads what its parts
read one after the other.

* `ReadsAfter`: what it means that a routine reads a reading.
* `ReadsAfter.bind`, `ReadsAfter.next_bind`, `ReadsAfter.pushBack_bind`, `ReadsAfter.deeper`: each
  way to put routines together.
* `ReadsAfter.weaken`, `Reads.of_iff`: one reading in place of another.
-/

namespace FrappeSyntax

/-! ## Readings -/

/-- What a routine may make of tokens. -/
structure Reading (α : Type) where
  /-- The grammar lets tokens be read as a result. -/
  admits : List Token → α → Prop
  /-- With a number of levels, tokens are read as a result, given the token that follows. -/
  accepts : Nat → List Token → α → Token → Prop
  admits_of_accepts : ∀ {levels tokens result following},
    accepts levels tokens result following → admits tokens result
  accepts_mono : ∀ {levels levels' tokens result following}, levels ≤ levels' →
    accepts levels tokens result following → accepts levels' tokens result following
  exists_admits : ∃ tokens result, admits tokens result

namespace Reading

/-- Nothing is read, and the result is given. -/
def pure (result : α) : Reading α where
  admits tokens result' := tokens = [] ∧ result' = result
  accepts _ tokens result' _ := tokens = [] ∧ result' = result
  admits_of_accepts h := h
  accepts_mono _ h := h
  exists_admits := ⟨[], result, rfl, rfl⟩

/-- Nothing is read, and the result is the token that follows. -/
def peek : Reading Token where
  admits tokens _ := tokens = []
  accepts _ tokens result following := tokens = [] ∧ result = following
  admits_of_accepts h := h.1
  accepts_mono _ h := h
  exists_admits := ⟨[], Token.endAt .null, rfl⟩

/-- These tokens are read, and then as before. -/
def after (taken : List Token) (reading : Reading α) : Reading α where
  admits tokens result := ∃ back, tokens = taken ++ back ∧ reading.admits back result
  accepts levels tokens result following :=
    ∃ back, tokens = taken ++ back ∧ reading.accepts levels back result following
  admits_of_accepts := fun ⟨back, h, hacc⟩ => ⟨back, h, reading.admits_of_accepts hacc⟩
  accepts_mono := fun hle ⟨back, h, hacc⟩ => ⟨back, h, reading.accepts_mono hle hacc⟩
  exists_admits := by
    obtain ⟨back, result, h⟩ := reading.exists_admits
    exact ⟨taken ++ back, result, back, rfl, h⟩

/-- One token is read, which has a property. -/
def token (property : Token → Prop) (h : ∃ token, property token) : Reading Token where
  admits tokens result := tokens = [result] ∧ property result
  accepts _ tokens result _ := tokens = [result] ∧ property result
  admits_of_accepts h := h
  accepts_mono _ h := h
  exists_admits := ⟨[h.choose], h.choose, rfl, h.choose_spec⟩

/-- One reading after the other; the second may depend on what the first gives. -/
def bind (first : Reading α) (second : α → Reading β) : Reading β where
  admits tokens result := ∃ a front back, tokens = front ++ back ∧ first.admits front a ∧
    (second a).admits back result
  accepts levels tokens result following := ∃ a front back, tokens = front ++ back ∧
    first.accepts levels front a (back.headD following) ∧
    (second a).accepts levels back result following
  admits_of_accepts := by
    rintro levels tokens result following ⟨a, front, back, rfl, h1, h2⟩
    exact ⟨a, front, back, rfl, first.admits_of_accepts h1, (second a).admits_of_accepts h2⟩
  accepts_mono := by
    rintro levels levels' tokens result following hle ⟨a, front, back, rfl, h1, h2⟩
    exact ⟨a, front, back, rfl, first.accepts_mono hle h1, (second a).accepts_mono hle h2⟩
  exists_admits := by
    obtain ⟨front, a, h1⟩ := first.exists_admits
    obtain ⟨back, b, h2⟩ := (second a).exists_admits
    exact ⟨front ++ back, b, a, front, back, rfl, h1, h2⟩

/-- A token of a kind is read. -/
def kind (kind : Kind) : Reading Token :=
  token (·.kind = kind) ⟨⟨⟨kind, ""⟩, ⟨.null, .null⟩⟩, rfl⟩

/-- A word of punctuation is read. -/
def single (text : String) : Reading Token :=
  token (·.toWord = .single text) ⟨⟨.single text, ⟨.null, .null⟩⟩, rfl⟩

/-- What is read after one level was opened. -/
def inside (reading : Reading α) : Reading α where
  admits := reading.admits
  accepts levels := reading.accepts (levels + 1)
  admits_of_accepts h := reading.admits_of_accepts h
  accepts_mono hle h := reading.accepts_mono (Nat.succ_le_succ hle) h
  exists_admits := reading.exists_admits

/-- What is read where the result has a property. -/
def only (reading : Reading α) (property : α → Prop)
    (h : ∃ tokens result, reading.admits tokens result ∧ property result) : Reading α where
  admits tokens result := reading.admits tokens result ∧ property result
  accepts levels tokens result following :=
    reading.accepts levels tokens result following ∧ property result
  admits_of_accepts h := ⟨reading.admits_of_accepts h.1, h.2⟩
  accepts_mono hle h := ⟨reading.accepts_mono hle h.1, h.2⟩
  exists_admits := h

end Reading

/-! ## Errors about a token -/

/-- The word that a syntax error is about. -/
def Cause.found? : Cause → Option Word
  | unexpectedKind _ _ found => some found
  | unexpectedText _ _ found => some found
  | unexpectedAlternative _ _ found => some found
  | _ => none

/-- Holds for the syntax errors. -/
def Error.IsSyntax (error : Error) : Prop := error.cause.found?.isSome = true

/-- A syntax error is about a token: it shows the token's word and stands at its position. -/
def Error.IsAbout (error : Error) (token : Token) : Prop :=
  error.cause.found? = some token.toWord ∧ error.position = token.position

theorem Error.IsAbout.isSyntax {error : Error} {token : Token} (h : error.IsAbout token) :
    error.IsSyntax := by
  rw [IsSyntax, h.1]
  rfl

/-! ## Routines that read -/

/-- A routine reads a reading with `levels` levels, given that the tokens `taken` were taken before
it. The routine `full` is the same with `more` levels: where there is no deadline, it reads whatever
the reading allows, and it fails at the same token whatever follows. -/
structure ReadsAfter (taken : List Token) (levels more : Nat) (routine full : Routine α)
    (reading : Reading α) : Prop where
  le : levels ≤ more
  /-- A result is one that the reading accepts. -/
  sound : ∀ {parser result after}, routine parser = .ok result after →
    ∃ tokens, taken ++ₛ parser.sequence = tokens ++ₛ after.sequence ∧
      reading.accepts levels tokens result after.sequence.head
  /-- What the reading accepts is read. -/
  complete : ∀ {parser tokens result rest}, parser.limits.deadline = none →
    taken ++ₛ parser.sequence = tokens ++ₛ rest → reading.accepts more tokens result rest.head →
    ∃ after, full parser = .ok result after ∧ after.sequence = rest ∧
      after.limits = parser.limits
  /-- A syntax error is about the token taken last. The tokens before it could have gone on, and
  with this token after them they always give the same error. -/
  blames : ∀ {parser error after}, routine parser = .error error after → error.IsSyntax →
    ∃ tokens token, taken ++ₛ parser.sequence = (tokens ++ [token]) ++ₛ after.sequence ∧
      taken.length ≤ tokens.length + 1 ∧ error.IsAbout token ∧
      (∃ more result, reading.admits (tokens ++ more) result) ∧
      ∀ {parser' rest}, parser'.limits.deadline = none →
        taken ++ₛ parser'.sequence = (tokens ++ [token]) ++ₛ rest →
        ∃ after', full parser' = .error error after' ∧ after'.sequence = rest
  /-- A level is refused before the next token. The tokens before it could have gone on. -/
  refuses : ∀ {parser error after}, routine parser = .error error after → ¬ error.IsSyntax →
    ∃ tokens, taken ++ₛ parser.sequence = tokens ++ₛ after.sequence ∧
      error.position = after.sequence.head.position ∧
      ∃ more result, reading.admits (tokens ++ more) result

/-- A routine reads a reading with `levels` levels, and `full` is the same with `more` levels. -/
abbrev Reads (levels more : Nat) (routine full : Routine α) (reading : Reading α) : Prop :=
  ReadsAfter [] levels more routine full reading

/-! ## Tokens in front of a sequence -/

theorem head_append_stream (tokens : List Token) (rest : Stream' Token) :
    (tokens ++ₛ rest).head = tokens.headD rest.head := by
  cases tokens <;> rfl

theorem cons_append_stream_inj {token token' : Token} {rest rest' : Stream' Token} :
    [token] ++ₛ rest = [token'] ++ₛ rest' ↔ token = token' ∧ rest = rest' := by
  constructor
  · intro h
    exact ⟨congrArg Stream'.head h, congrArg Stream'.tail h⟩
  · rintro ⟨rfl, rfl⟩
    rfl

/-- Two sequences that begin with the same tokens agree in their first ones. -/
theorem eq_of_append_stream {front front' tokens : List Token} {s s' rest rest' : Stream' Token}
    (h : front ++ₛ s = tokens ++ₛ rest) (h' : front' ++ₛ s' = tokens ++ₛ rest')
    (hlen : front.length = front'.length) (hle : front.length ≤ tokens.length) :
    front = front' := by
  have h1 := congrArg (Stream'.take front.length) h
  have h2 := congrArg (Stream'.take front.length) h'
  rw [Stream'.take_append_of_le_length _ _ _ le_rfl,
    Stream'.take_append_of_le_length _ _ _ hle, List.take_length] at h1
  rw [Stream'.take_append_of_le_length _ _ _ (Nat.le_of_eq hlen),
    Stream'.take_append_of_le_length _ _ _ hle, hlen, List.take_length] at h2
  rw [h1, h2, hlen]

/-! ## Single steps -/

/-- The parser after a look at the next token. -/
def Parser.peeked (parser : Parser) : Parser :=
  { parser with stream := parser.stream.next.2.pushBack parser.stream.next.1 }

@[simp] theorem Parser.sequence_peeked (parser : Parser) :
    parser.peeked.sequence = parser.sequence :=
  parser.stream.sequence_eq.symm

theorem Parser.head_sequence (parser : Parser) :
    parser.sequence.head = parser.stream.next.1 :=
  congrArg Stream'.head parser.stream.sequence_eq

namespace Routine

theorem bind_apply (routine : Routine α) (f : α → Routine β) (parser : Parser) :
    (routine >>= f) parser =
      match routine parser with
      | .ok result parser => f result parser
      | .error error parser => .error error parser := by
  show EStateM.bind routine f parser = _
  unfold EStateM.bind
  cases routine parser <;> rfl

/-- What two routines give comes from a result of the first. -/
theorem ok_of_bind {routine : Routine α} {f : α → Routine β} {parser after : Parser} {result : β}
    (h : (routine >>= f) parser = .ok result after) :
    ∃ a middle, routine parser = .ok a middle ∧ f a middle = .ok result after := by
  rw [bind_apply] at h
  cases hrun : routine parser with
  | ok a middle =>
    rw [hrun] at h
    exact ⟨a, middle, rfl, h⟩
  | error error middle =>
    rw [hrun] at h
    cases h

/-- What fails in one routine after the other is the first, or the second after a result of the
first. -/
theorem error_of_bind {routine : Routine α} {f : α → Routine β} {parser after : Parser}
    {error : Error} (h : (routine >>= f) parser = .error error after) :
    routine parser = .error error after ∨
      ∃ a middle, routine parser = .ok a middle ∧ f a middle = .error error after := by
  rw [bind_apply] at h
  cases hrun : routine parser with
  | ok a middle =>
    rw [hrun] at h
    exact .inr ⟨a, middle, rfl, h⟩
  | error error' middle =>
    rw [hrun] at h
    cases h
    exact .inl rfl

/-- The next token leaves the sequence. -/
theorem next_apply (parser : Parser) :
    ∃ token after, next parser = .ok token after ∧
      parser.sequence = [token] ++ₛ after.sequence ∧ after.limits = parser.limits :=
  ⟨_, _, rfl, parser.stream.sequence_eq, rfl⟩

/-- A look at the next token finds the head of the sequence. -/
theorem peek_eq (parser : Parser) :
    peek parser = .ok parser.sequence.head parser.peeked := by
  rw [parser.head_sequence]
  rfl

/-- A look at the next token leaves the sequence as it is. -/
theorem peek_apply (parser : Parser) :
    ∃ after, peek parser = .ok parser.sequence.head after ∧
      after.sequence = parser.sequence ∧ after.limits = parser.limits :=
  ⟨parser.peeked, peek_eq parser, parser.sequence_peeked, rfl⟩

/-- One routine does what another does from a parser that will read the same. -/
def Resembles (routine other : Routine α) : Prop :=
  ∀ parser, ∃ parser', routine parser = other parser' ∧ parser'.sequence = parser.sequence ∧
    parser'.limits = parser.limits

theorem Resembles.refl (routine : Routine α) : Resembles routine routine :=
  fun parser => ⟨parser, rfl, rfl, rfl⟩

theorem enter_resembles (production : Production) (routine : Routine α) :
    Resembles (enter production >>= fun _ => routine) routine :=
  fun parser => ⟨parser.note (.entered production), rfl, rfl, rfl⟩

end Routine

section

variable {taken : List Token} {levels more : Nat} {routine full : Routine α} {reading : Reading α}

/-! ## Sequencing -/

/-- A result that is given without reading. -/
theorem Reads.pure (hle : levels ≤ more) (result : α) :
    Reads levels more (Pure.pure result) (Pure.pure result) (.pure result) where
  le := hle
  sound := by
    rintro parser result' after ⟨⟩
    exact ⟨[], rfl, rfl, rfl⟩
  complete := by
    rintro parser tokens result' rest - hseq ⟨rfl, rfl⟩
    exact ⟨parser, rfl, hseq, rfl⟩
  blames := by
    rintro parser error after ⟨⟩
  refuses := by
    rintro parser error after ⟨⟩

/-- What one routine reads, then what the next one reads. -/
theorem Reads.bind {f g : α → Routine β} {next : α → Reading β}
    (h : Reads levels more routine full reading)
    (hf : ∀ a, Reads levels more (f a) (g a) (next a)) :
    Reads levels more (routine >>= f) (full >>= g) (reading.bind next) where
  le := h.le
  sound := by
    intro parser result after hrun
    obtain ⟨a, p, hr, hrun⟩ := Routine.ok_of_bind hrun
    obtain ⟨front, hfront, hacc⟩ := h.sound hr
    obtain ⟨back, hback, hacc'⟩ := (hf a).sound hrun
    rw [Stream'.nil_append_stream] at hfront hback
    refine ⟨front ++ back, ?_, a, front, back, rfl, ?_, hacc'⟩
    · rw [Stream'.nil_append_stream, hfront, hback, Stream'.append_append_stream]
    · rwa [hback, head_append_stream] at hacc
  complete := by
    rintro parser tokens result rest hfree hseq ⟨a, front, back, rfl, hacc, hacc'⟩
    rw [Stream'.append_append_stream] at hseq
    obtain ⟨p, hp, hpseq, hplim⟩ := h.complete hfree hseq (by rwa [head_append_stream])
    obtain ⟨p', hp', hpseq', hplim'⟩ := (hf a).complete (by rw [hplim, hfree])
      (by rw [Stream'.nil_append_stream, hpseq]) hacc'
    refine ⟨p', ?_, hpseq', by rw [hplim', hplim]⟩
    rw [Routine.bind_apply, hp]
    exact hp'
  blames := by
    intro parser error after hrun hsyn
    rcases Routine.error_of_bind hrun with hr | ⟨a, p, hr, hrun⟩
    · obtain ⟨tokens, token, hseq, hlen, habout, ⟨rest, a, hadm⟩, hlocal⟩ := h.blames hr hsyn
      obtain ⟨back, b, hadm'⟩ := (next a).exists_admits
      refine ⟨tokens, token, hseq, hlen, habout,
        ⟨rest ++ back, b, a, tokens ++ rest, back, by rw [List.append_assoc], hadm, hadm'⟩, ?_⟩
      intro parser' rest' hfree hseq'
      obtain ⟨p', hp', hpseq'⟩ := hlocal hfree hseq'
      exact ⟨p', by rw [Routine.bind_apply, hp'], hpseq'⟩
    · obtain ⟨front, hfront, hacc⟩ := h.sound hr
      obtain ⟨tokens, token, hseq, -, habout, ⟨rest, b, hadm⟩, hlocal⟩ :=
        (hf a).blames hrun hsyn
      rw [Stream'.nil_append_stream] at hseq
      refine ⟨front ++ tokens, token, ?_, Nat.zero_le _, habout,
        ⟨rest, b, a, front, tokens ++ rest, by rw [List.append_assoc],
          reading.admits_of_accepts hacc, hadm⟩, ?_⟩
      · rw [hfront, hseq, List.append_assoc, Stream'.append_append_stream front]
      intro parser' rest' hfree hseq'
      -- the first routine sees the same token after its own, so it stops in the same place
      have hhead : p.sequence.head = ((tokens ++ [token]) ++ₛ rest').head := by
        rw [hseq, head_append_stream, head_append_stream]
        cases tokens <;> rfl
      rw [List.append_assoc, Stream'.append_append_stream front] at hseq'
      obtain ⟨p', hp', hpseq', hplim'⟩ := h.complete hfree hseq'
        (by rw [← hhead]; exact reading.accepts_mono h.le hacc)
      have hfree' : p'.limits.deadline = none := by rw [hplim', hfree]
      obtain ⟨p'', hp'', hpseq''⟩ := hlocal hfree' (by rw [Stream'.nil_append_stream, hpseq'])
      refine ⟨p'', ?_, hpseq''⟩
      rw [Routine.bind_apply, hp']
      exact hp''
  refuses := by
    intro parser error after hrun hnot
    rcases Routine.error_of_bind hrun with hr | ⟨a, p, hr, hrun⟩
    · obtain ⟨tokens, hseq, hposition, rest, a, hadm⟩ := h.refuses hr hnot
      obtain ⟨back, b, hadm'⟩ := (next a).exists_admits
      exact ⟨tokens, hseq, hposition, rest ++ back, b, a, tokens ++ rest, back,
        by rw [List.append_assoc], hadm, hadm'⟩
    · obtain ⟨front, hfront, hacc⟩ := h.sound hr
      obtain ⟨tokens, hseq, hposition, rest, b, hadm⟩ := (hf a).refuses hrun hnot
      rw [Stream'.nil_append_stream] at hseq
      refine ⟨front ++ tokens, ?_, hposition, rest, b, a, front, tokens ++ rest,
        by rw [List.append_assoc], reading.admits_of_accepts hacc, hadm⟩
      rw [hfront, hseq, Stream'.append_append_stream]

/-- One of two routines, whichever a condition tells. -/
theorem Reads.ite {condition : Prop} [Decidable condition] {other other' : Routine α}
    {reading' : Reading α} (h : Reads levels more routine full reading)
    (h' : Reads levels more other other' reading') :
    Reads levels more (if condition then routine else other) (if condition then full else other')
      (if condition then reading else reading') := by
  split
  · exact h
  · exact h'

/-- A routine reads what a routine reads that it resembles. -/
theorem ReadsAfter.of_resembles {routine' full' : Routine α}
    (h : Routine.Resembles routine routine') (h' : Routine.Resembles full full')
    (hreads : ReadsAfter taken levels more routine' full' reading) :
    ReadsAfter taken levels more routine full reading where
  le := hreads.le
  sound := by
    intro parser result after hrun
    obtain ⟨p, hp, hseq, -⟩ := h parser
    rw [← hseq]
    exact hreads.sound (hp ▸ hrun)
  complete := by
    intro parser tokens result rest hfree hseq hacc
    obtain ⟨p, hp, hpseq, hlim⟩ := h' parser
    rw [hp, ← hlim]
    exact hreads.complete (by rw [hlim, hfree]) (by rw [hpseq, hseq]) hacc
  blames := by
    intro parser error after hrun hsyn
    obtain ⟨p, hp, hseq, -⟩ := h parser
    obtain ⟨tokens, token, htokens, hlen, habout, hviable, hlocal⟩ :=
      hreads.blames (hp ▸ hrun) hsyn
    refine ⟨tokens, token, by rw [← hseq, htokens], hlen, habout, hviable, ?_⟩
    intro parser' rest hfree hseq'
    obtain ⟨p', hp', hpseq', hlim'⟩ := h' parser'
    rw [hp']
    exact hlocal (by rw [hlim', hfree]) (by rw [hpseq', hseq'])
  refuses := by
    intro parser error after hrun hnot
    obtain ⟨p, hp, hseq, -⟩ := h parser
    rw [← hseq]
    exact hreads.refuses (hp ▸ hrun) hnot

/-- The note that a production is entered reads nothing. -/
theorem ReadsAfter.enter (production : Production)
    (h : ReadsAfter taken levels more routine full reading) :
    ReadsAfter taken levels more (Routine.enter production >>= fun _ => routine)
      (Routine.enter production >>= fun _ => full) reading :=
  .of_resembles (Routine.enter_resembles production routine)
    (Routine.enter_resembles production full) h

/-- Another reading that agrees on the tokens that are there. -/
theorem ReadsAfter.weaken {other : Reading α}
    (h : ReadsAfter taken levels more routine full reading)
    (hadmits : ∀ {tokens result}, reading.admits tokens result → other.admits tokens result)
    (haccepts : ∀ {levels tokens result sequence rest}, taken ++ₛ sequence = tokens ++ₛ rest →
      (reading.accepts levels tokens result rest.head ↔
        other.accepts levels tokens result rest.head)) :
    ReadsAfter taken levels more routine full other where
  le := h.le
  sound := by
    intro parser result after hrun
    obtain ⟨tokens, hseq, hacc⟩ := h.sound hrun
    exact ⟨tokens, hseq, (haccepts hseq).mp hacc⟩
  complete := by
    intro parser tokens result rest hfree hseq hacc
    exact h.complete hfree hseq ((haccepts hseq).mpr hacc)
  blames := by
    intro parser error after hrun hsyn
    obtain ⟨tokens, token, hseq, hlen, habout, ⟨rest, result, hadm⟩, hlocal⟩ :=
      h.blames hrun hsyn
    exact ⟨tokens, token, hseq, hlen, habout, ⟨rest, result, hadmits hadm⟩, hlocal⟩
  refuses := by
    intro parser error after hrun hnot
    obtain ⟨tokens, hseq, hposition, rest, result, hadm⟩ := h.refuses hrun hnot
    exact ⟨tokens, hseq, hposition, rest, result, hadmits hadm⟩

/-- Two readings that agree are read by the same routines. -/
theorem Reads.congr {other : Reading α} (h : Reads levels more routine full reading)
    (hadmits : ∀ {tokens result}, reading.admits tokens result → other.admits tokens result)
    (haccepts : ∀ {levels tokens result following}, reading.accepts levels tokens result following ↔
      other.accepts levels tokens result following) :
    Reads levels more routine full other :=
  h.weaken hadmits fun _ => haccepts

/-! ## Tokens -/

/-- A token that is checked on the spot. -/
theorem Reads.check {check : Token → Except Error Token} {property : Token → Prop}
    (hle : levels ≤ more) (hproperty : ∃ token, property token)
    (hok : ∀ token, property token → check token = .ok token)
    (herror : ∀ token, ¬ property token → ∃ error, check token = .error error ∧
      error.IsAbout token) :
    Reads levels more (do ofExcept (check (← Routine.next))) (do ofExcept (check (← Routine.next)))
      (.token property hproperty) := by
  have hrun : ∀ {parser token after}, Routine.next parser = .ok token after →
      (do ofExcept (check (← Routine.next)) : Routine Token) parser =
        (ofExcept (check token) : Routine Token) after := by
    intro parser token after h
    rw [Routine.bind_apply, h]
  constructor
  case le => exact hle
  case sound =>
    intro parser result after h
    obtain ⟨token, p, hp, hseq, -⟩ := Routine.next_apply parser
    rw [hrun hp] at h
    by_cases ht : property token
    · rw [hok token ht] at h
      cases h
      exact ⟨[result], hseq, rfl, ht⟩
    · obtain ⟨error, herr, -⟩ := herror token ht
      rw [herr] at h
      cases h
  case complete =>
    rintro parser tokens result rest - hseq' ⟨rfl, ht⟩
    obtain ⟨token, p, hp, hseq, hlim⟩ := Routine.next_apply parser
    rw [Stream'.nil_append_stream, hseq] at hseq'
    obtain ⟨rfl, rfl⟩ := cons_append_stream_inj.mp hseq'
    exact ⟨p, by rw [hrun hp, hok token ht]; rfl, rfl, hlim⟩
  case blames =>
    intro parser error after h hsyn
    obtain ⟨token, p, hp, hseq, -⟩ := Routine.next_apply parser
    rw [hrun hp] at h
    by_cases ht : property token
    · rw [hok token ht] at h
      cases h
    · obtain ⟨error', herr, habout⟩ := herror token ht
      rw [herr] at h
      cases h
      obtain ⟨first, hfirst⟩ := hproperty
      refine ⟨[], token, by rw [Stream'.nil_append_stream, hseq]; rfl, Nat.zero_le _, habout,
        ⟨[first], first, rfl, hfirst⟩, ?_⟩
      rintro parser' rest - hseq'
      obtain ⟨token', p', hp', hpseq', -⟩ := Routine.next_apply parser'
      rw [Stream'.nil_append_stream, hpseq'] at hseq'
      obtain ⟨rfl, rfl⟩ := cons_append_stream_inj.mp hseq'
      exact ⟨p', by rw [hrun hp', herr]; rfl, rfl⟩
  case refuses =>
    intro parser error after h hnot
    obtain ⟨token, p, hp, -⟩ := Routine.next_apply parser
    rw [hrun hp] at h
    by_cases ht : property token
    · rw [hok token ht] at h
      cases h
    · obtain ⟨error', herr, habout⟩ := herror token ht
      rw [herr] at h
      cases h
      exact absurd habout.isSyntax hnot

/-- A token of a kind. -/
theorem Reads.expect (hle : levels ≤ more) (kind : Kind) (production : String) :
    Reads levels more (Routine.expect kind production) (Routine.expect kind production)
      (.kind kind) := by
  refine Reads.check hle _ ?_ ?_
  · intro token h
    simp [Token.expectKind, Token.isKind, h]
  · intro token h
    exact ⟨.unexpectedKind production kind token, by simp [Token.expectKind, Token.isKind, h],
      rfl, rfl⟩

/-- A word of punctuation. -/
theorem Reads.expectSingle (hle : levels ≤ more) (text production : String) :
    Reads levels more (Routine.expectSingle text production) (Routine.expectSingle text production)
      (.single text) := by
  refine Reads.check hle _ ?_ ?_
  · intro token h
    rw [Token.expectWord, if_pos h]
  · intro token h
    exact ⟨.unexpectedText production (.single text) token, by rw [Token.expectWord, if_neg h],
      rfl, rfl⟩

/-- A look at the next token. -/
theorem Reads.peek (hle : levels ≤ more) :
    Reads levels more Routine.peek Routine.peek .peek where
  le := hle
  sound := by
    intro parser result after h
    obtain ⟨p, hp, hseq, -⟩ := Routine.peek_apply parser
    rw [hp] at h
    cases h
    exact ⟨[], hseq.symm ▸ rfl, rfl, by rw [hseq]⟩
  complete := by
    rintro parser tokens result rest - hseq' ⟨rfl, rfl⟩
    obtain ⟨p, hp, hseq, hlim⟩ := Routine.peek_apply parser
    have hrest : parser.sequence = rest := hseq'
    exact ⟨p, by rw [hp, hrest], by rw [hseq, hrest], hlim⟩
  blames := by
    intro parser error after h
    obtain ⟨p, hp, -⟩ := Routine.peek_apply parser
    rw [hp] at h
    cases h
  refuses := by
    intro parser error after h
    obtain ⟨p, hp, -⟩ := Routine.peek_apply parser
    rw [hp] at h
    cases h

/-! ## Levels -/

/-- The parser after it has opened a level: it has looked at the clock. -/
def Parser.opened (parser : Parser) : Parser := { parser.raise with looks := parser.looks + 1 }

/-- No level is opened, because of the limit. -/
theorem Routine.refuse_eq (production : String) (parser : Parser) :
    (Routine.refuse production : Routine α) parser =
      .error ⟨.recursionLimitExceeded parser.limits.maxDepth, parser.sequence.head.position⟩
        (parser.raise.note (.refused production (parser.depth + 1))).peeked := by
  rw [parser.head_sequence]
  rfl

theorem Routine.deeper_eq (routine : Routine α) (parser : Parser) :
    Routine.deeper routine parser =
      if parser.limits.isExpired parser.looks = true then
        .error ⟨.deadlineExceeded, parser.sequence.head.position⟩ parser.opened.peeked
      else Routine.thenLower routine parser.opened := by
  have hrun : Routine.deeper routine parser =
      (if parser.limits.isExpired parser.looks = true then
        (do throw ⟨.deadlineExceeded, (← Routine.peek).position⟩ : Routine α)
      else Routine.thenLower routine) parser.opened := rfl
  rw [hrun, parser.head_sequence]
  split <;> rfl

/-- When time is over, no level is opened either. -/
theorem Routine.deeper_eq_error {parser : Parser}
    (h : parser.limits.isExpired parser.looks = true) (routine : Routine α) :
    Routine.deeper routine parser =
      .error ⟨.deadlineExceeded, parser.sequence.head.position⟩ parser.opened.peeked := by
  rw [deeper_eq, if_pos h]

/-- As long as there is time, a level is opened, and closed when the routine is through. -/
theorem Routine.deeper_eq_thenLower {parser : Parser}
    (h : parser.limits.isExpired parser.looks = false) (routine : Routine α) :
    Routine.deeper routine parser = Routine.thenLower routine parser.opened := by
  rw [deeper_eq, if_neg (by simp [h])]

/-- What a routine gives one level deeper it gives inside. -/
theorem Routine.ok_of_deeper {routine : Routine α} {parser after : Parser} {result : α}
    (h : Routine.deeper routine parser = .ok result after) :
    parser.limits.isExpired parser.looks = false ∧
      ∃ inside, routine parser.opened = .ok result inside ∧ after = inside.lower := by
  cases hexpired : parser.limits.isExpired parser.looks with
  | true =>
    rw [deeper_eq_error hexpired] at h
    cases h
  | false =>
    rw [deeper_eq_thenLower hexpired, thenLower] at h
    cases hrun : routine parser.opened with
    | error error inside =>
      rw [hrun] at h
      cases h
    | ok a inside =>
      rw [hrun] at h
      cases h
      exact ⟨rfl, inside, rfl, rfl⟩

/-- What fails one level deeper is the routine inside, or the time is over. -/
theorem Routine.error_of_deeper {routine : Routine α} {parser after : Parser} {error : Error}
    (h : Routine.deeper routine parser = .error error after) :
    parser.limits.isExpired parser.looks = true ∧
        error = ⟨.deadlineExceeded, parser.sequence.head.position⟩ ∧ after = parser.opened.peeked ∨
      parser.limits.isExpired parser.looks = false ∧
        ∃ inside, routine parser.opened = .error error inside ∧ after = inside.lower := by
  cases hexpired : parser.limits.isExpired parser.looks with
  | true =>
    rw [deeper_eq_error hexpired] at h
    cases h
    exact .inl ⟨rfl, rfl, rfl⟩
  | false =>
    rw [deeper_eq_thenLower hexpired, thenLower] at h
    cases hrun : routine parser.opened with
    | ok a inside =>
      rw [hrun] at h
      cases h
    | error error' inside =>
      rw [hrun] at h
      cases h
      exact .inr ⟨rfl, inside, rfl, rfl⟩

/-- A refusal because of the limit reads nothing, and is no syntax error. It is about the next
token. -/
theorem Routine.refuse_apply (production : String) (parser : Parser) :
    ∃ error after, (Routine.refuse production : Routine α) parser = .error error after ∧
      ¬ error.IsSyntax ∧ after.sequence = parser.sequence ∧
      error.position = after.sequence.head.position := by
  refine ⟨_, _, refuse_eq production parser, by simp [Error.IsSyntax, Cause.found?],
    Parser.sequence_peeked _, ?_⟩
  rw [Parser.sequence_peeked]
  rfl

theorem Limits.isExpired_of_deadline_eq_none {limits : Limits} (h : limits.deadline = none)
    (looks : Nat) : limits.isExpired looks = false := by
  simp [Limits.isExpired, h]

/-- What a routine reads one level deeper. -/
theorem Reads.deeper (h : Reads levels more routine full reading.inside) :
    Reads (levels + 1) (more + 1) (Routine.deeper routine) (Routine.deeper full) reading where
  le := Nat.succ_le_succ h.le
  sound := by
    intro parser result after hrun
    obtain ⟨-, inside, hinside, rfl⟩ := Routine.ok_of_deeper hrun
    obtain ⟨tokens, htokens, hacc⟩ := h.sound hinside
    exact ⟨tokens, htokens, hacc⟩
  complete := by
    intro parser tokens result rest hfree hseq hacc
    have hopened : parser.opened.limits.deadline = none := hfree
    obtain ⟨p, hp, hpseq, hplim⟩ := h.complete hopened hseq hacc
    refine ⟨p.lower, ?_, hpseq, hplim⟩
    rw [Routine.deeper_eq_thenLower (Limits.isExpired_of_deadline_eq_none hfree _),
      Routine.thenLower, hp]
  blames := by
    intro parser error after hrun hsyn
    rcases Routine.error_of_deeper hrun with ⟨-, rfl, -⟩ | ⟨-, inside, hinside, rfl⟩
    · cases hsyn
    · obtain ⟨tokens, token, htokens, hlen, habout, hviable, hlocal⟩ := h.blames hinside hsyn
      refine ⟨tokens, token, htokens, hlen, habout, hviable, ?_⟩
      intro parser' rest hfree hseq
      have hopened : parser'.opened.limits.deadline = none := hfree
      obtain ⟨p, hp, hpseq⟩ := hlocal hopened hseq
      refine ⟨p.lower, ?_, hpseq⟩
      rw [Routine.deeper_eq_thenLower (Limits.isExpired_of_deadline_eq_none hfree _),
        Routine.thenLower, hp]
  refuses := by
    intro parser error after hrun hnot
    rcases Routine.error_of_deeper hrun with ⟨-, rfl, rfl⟩ | ⟨-, inside, hinside, rfl⟩
    · have hseq : parser.opened.peeked.sequence = parser.sequence := Parser.sequence_peeked _
      exact ⟨[], hseq.symm, by rw [hseq], reading.exists_admits⟩
    · obtain ⟨tokens, htokens, hposition, hviable⟩ := h.refuses hinside hnot
      exact ⟨tokens, htokens, hposition, hviable⟩

/-- Where no level may be opened, nothing is read and no token is to blame. -/
theorem Reads.refuse (production : String)
    (hcomplete : ∀ {parser tokens result rest}, parser.limits.deadline = none →
      parser.sequence = tokens ++ₛ rest → reading.accepts more tokens result rest.head →
      ∃ after, full parser = .ok result after ∧ after.sequence = rest ∧
        after.limits = parser.limits) :
    Reads 0 more (Routine.refuse production) full reading where
  le := Nat.zero_le more
  sound := by
    intro parser result after hrun
    obtain ⟨e, p, hp, -⟩ := @Routine.refuse_apply α production parser
    rw [hp] at hrun
    cases hrun
  complete := hcomplete
  blames := by
    intro parser error after hrun hsyn
    obtain ⟨e, p, hp, hne, -⟩ := @Routine.refuse_apply α production parser
    rw [hp] at hrun
    cases hrun
    exact absurd hsyn hne
  refuses := by
    intro parser error after hrun hnot
    obtain ⟨e, p, hp, -, hseq, hposition⟩ := @Routine.refuse_apply α production parser
    rw [hp] at hrun
    cases hrun
    exact ⟨[], hseq.symm, hposition, reading.exists_admits⟩

/-- A routine that opens a level reads a reading if it does so with a level less inside, and the
reading accepts nothing without any level. -/
theorem Reads.of_inside (routines inner : Nat → Routine α) {production : String}
    (hzero : Routine.Resembles (routines 0) (Routine.refuse production))
    (hsucc : ∀ n, Routine.Resembles (routines (n + 1)) (Routine.deeper (inner n)))
    (hnone : ∀ {tokens result following}, ¬ reading.accepts 0 tokens result following)
    (hle : levels ≤ more) (hinner : ∀ {n m}, n ≤ m → m < more →
      Reads n m (inner n) (inner m) reading.inside) :
    Reads levels more (routines levels) (routines more) reading := by
  cases more with
  | zero =>
    obtain rfl : levels = 0 := Nat.le_zero.mp hle
    exact .of_resembles hzero hzero (Reads.refuse production fun _ _ h => absurd h hnone)
  | succ more =>
    have hfull : Reads (more + 1) (more + 1) (Routine.deeper (inner more))
        (Routine.deeper (inner more)) reading := (hinner le_rfl (Nat.lt_succ_self more)).deeper
    cases levels with
    | zero => exact .of_resembles hzero (hsucc more) (Reads.refuse production hfull.complete)
    | succ levels =>
      exact .of_resembles (hsucc levels) (hsucc more)
        (hinner (Nat.le_of_succ_le_succ hle) (Nat.lt_succ_self more)).deeper

end

end FrappeSyntax
