import FrappeSyntax.Proofs.Reading

/-!
# Looking ahead

Where the next tokens decide which routine goes on, they are taken first, and some of them handed
back. The rules here say what is read in this way, in terms of all tokens from the first one taken.

* `ReadsAfter.next_bind`: one more token is taken.
* `ReadsAfter.fail`: the token taken last is to blame.
* `ReadsAfter.of_reads`: no more tokens are taken ahead.
* `ReadsAfter.of_handsBack`, `ReadsAfter.pushBack_two`: the last token or two are handed back.
-/

namespace FrappeSyntax

variable {taken : List Token} {levels more : Nat} {routine full : Routine α} {reading : Reading α}

/-- One token more is taken, and what is read may depend on it. -/
theorem ReadsAfter.next_bind {f g : Token → Routine α}
    (h : ∀ token, ReadsAfter (taken ++ [token]) levels more (f token) (g token) reading) :
    ReadsAfter taken levels more (Routine.next >>= f) (Routine.next >>= g) reading where
  le := (h (Token.endAt .null)).le
  sound := by
    intro parser result after hrun
    obtain ⟨token, p, hp, hseq, -⟩ := Routine.next_apply parser
    rw [Routine.bind_apply, hp] at hrun
    rw [hseq, ← Stream'.append_append_stream]
    exact (h token).sound hrun
  complete := by
    intro parser tokens result rest hfree hseq' hacc
    obtain ⟨token, p, hp, hseq, hlim⟩ := Routine.next_apply parser
    rw [hseq, ← Stream'.append_append_stream] at hseq'
    rw [Routine.bind_apply, hp, ← hlim]
    exact (h token).complete (by rw [hlim, hfree]) hseq' hacc
  blames := by
    intro parser error after hrun hsyn
    obtain ⟨token, p, hp, hseq, -⟩ := Routine.next_apply parser
    rw [Routine.bind_apply, hp] at hrun
    obtain ⟨tokens, last, htokens, hlen, habout, hviable, hlocal⟩ := (h token).blames hrun hsyn
    rw [List.length_append, List.length_singleton] at hlen
    refine ⟨tokens, last, by rw [hseq, ← Stream'.append_append_stream, htokens], by omega, habout,
      hviable, ?_⟩
    intro parser' rest hfree hseq''
    obtain ⟨token', p', hp', hpseq', hlim'⟩ := Routine.next_apply parser'
    rw [hpseq', ← Stream'.append_append_stream] at hseq''
    -- the error is about no token before this one, so it is the same token
    have heq : taken ++ [token] = taken ++ [token'] :=
      eq_of_append_stream htokens hseq'' (by simp) (by simpa using hlen)
    obtain rfl : token = token' := by simpa using heq
    rw [Routine.bind_apply, hp']
    exact hlocal (by rw [hlim', hfree]) hseq''
  refuses := by
    intro parser error after hrun hnot
    obtain ⟨token, p, hp, hseq, -⟩ := Routine.next_apply parser
    rw [Routine.bind_apply, hp] at hrun
    rw [hseq, ← Stream'.append_append_stream]
    exact (h token).refuses hrun hnot

/-- The token taken last is to blame. -/
theorem ReadsAfter.fail {token : Token} {error : Error} (hle : levels ≤ more)
    (habout : error.IsAbout token)
    (hviable : ∃ rest result, reading.admits (taken ++ rest) result)
    (hnone : ∀ {sequence tokens result rest}, taken ++ [token] ++ₛ sequence = tokens ++ₛ rest →
      ¬ reading.accepts more tokens result rest.head) :
    ReadsAfter (taken ++ [token]) levels more (throw error) (throw error) reading where
  le := hle
  sound := by
    rintro parser result after ⟨⟩
  complete := by
    intro parser tokens result rest hfree hseq hacc
    exact absurd hacc (hnone hseq)
  blames := by
    rintro parser error' after ⟨⟩ hsyn
    refine ⟨taken, token, rfl, by simp, habout, hviable, ?_⟩
    intro parser' rest hfree hseq
    exact ⟨parser', rfl, (Stream'.append_right_inj ..).mp hseq⟩
  refuses := by
    rintro parser error' after ⟨⟩ hnot
    exact absurd habout.isSyntax hnot

/-- No more tokens are taken ahead. -/
theorem ReadsAfter.of_reads (taken : List Token) (h : Reads levels more routine full reading) :
    ReadsAfter taken levels more routine full (reading.after taken) where
  le := h.le
  sound := by
    intro parser result after hrun
    obtain ⟨tokens, hseq, hacc⟩ := h.sound hrun
    rw [Stream'.nil_append_stream] at hseq
    exact ⟨taken ++ tokens, by rw [hseq, Stream'.append_append_stream], tokens, rfl, hacc⟩
  complete := by
    rintro parser tokens result rest hfree hseq ⟨back, rfl, hacc⟩
    rw [Stream'.append_append_stream, Stream'.append_right_inj] at hseq
    exact h.complete hfree hseq hacc
  blames := by
    intro parser error after hrun hsyn
    obtain ⟨tokens, token, hseq, -, habout, ⟨rest, result, hadm⟩, hlocal⟩ := h.blames hrun hsyn
    rw [Stream'.nil_append_stream] at hseq
    refine ⟨taken ++ tokens, token, ?_, by simp; omega, habout,
      ⟨rest, result, tokens ++ rest, List.append_assoc .., hadm⟩, ?_⟩
    · rw [hseq, List.append_assoc, Stream'.append_append_stream taken]
    intro parser' rest' hfree hseq'
    rw [List.append_assoc, Stream'.append_append_stream taken, Stream'.append_right_inj] at hseq'
    exact hlocal hfree hseq'
  refuses := by
    intro parser error after hrun hnot
    obtain ⟨tokens, hseq, hposition, rest, result, hadm⟩ := h.refuses hrun hnot
    rw [Stream'.nil_append_stream] at hseq
    exact ⟨taken ++ tokens, by rw [hseq, Stream'.append_append_stream], hposition, rest, result,
      tokens ++ rest, List.append_assoc .., hadm⟩

/-! ## Tokens handed back -/

/-- One routine does what another does after a token was handed back. -/
def Routine.HandsBack (token : Token) (routine other : Routine α) : Prop :=
  ∀ parser, ∃ parser', routine parser = other parser' ∧
    parser'.sequence = [token] ++ₛ parser.sequence ∧ parser'.limits = parser.limits

theorem Routine.pushBack_handsBack (token : Token) (routine : Routine α) :
    Routine.HandsBack token (Routine.pushBack token >>= fun _ => routine) routine :=
  fun parser => ⟨{ parser with stream := parser.stream.pushBack token }, rfl, rfl, rfl⟩

/-- The token taken last is handed back, and no more tokens are taken ahead. -/
theorem ReadsAfter.of_handsBack {token : Token} {routine' full' : Routine α} (taken : List Token)
    (hback : Routine.HandsBack token routine routine') (hback' : Routine.HandsBack token full full')
    (h : Reads levels more routine' full' reading) :
    ReadsAfter (taken ++ [token]) levels more routine full (reading.after taken) where
  le := h.le
  sound := by
    intro parser result after hrun
    obtain ⟨start, hstart, hseq, -⟩ := hback parser
    rw [hstart] at hrun
    rw [Stream'.append_append_stream, ← hseq]
    exact (ReadsAfter.of_reads taken h).sound hrun
  complete := by
    intro parser tokens result rest hfree hseq' hacc
    obtain ⟨start, hstart, hseq, hlim⟩ := hback' parser
    rw [Stream'.append_append_stream, ← hseq] at hseq'
    rw [hstart, ← hlim]
    exact (ReadsAfter.of_reads taken h).complete (by rw [hlim, hfree]) hseq' hacc
  blames := by
    intro parser error after hrun hsyn
    obtain ⟨start, hstart, hseq, -⟩ := hback parser
    rw [hstart] at hrun
    obtain ⟨tokens, last, htokens, -, habout, ⟨rest, result, hadm⟩, hlocal⟩ :=
      h.blames hrun hsyn
    rw [Stream'.nil_append_stream, hseq] at htokens
    refine ⟨taken ++ tokens, last, ?_, by simp, habout,
      ⟨rest, result, tokens ++ rest, List.append_assoc .., hadm⟩, ?_⟩
    · rw [Stream'.append_append_stream, htokens, List.append_assoc,
        Stream'.append_append_stream taken]
    intro parser' rest' hfree hseq'
    rw [Stream'.append_append_stream, List.append_assoc, Stream'.append_append_stream taken,
      Stream'.append_right_inj] at hseq'
    obtain ⟨start', hstart', hsseq, hslim⟩ := hback' parser'
    rw [hstart']
    exact hlocal (by rw [hslim, hfree]) (hsseq.trans hseq')
  refuses := by
    intro parser error after hrun hnot
    obtain ⟨start, hstart, hseq, -⟩ := hback parser
    rw [hstart] at hrun
    rw [Stream'.append_append_stream, ← hseq]
    exact (ReadsAfter.of_reads taken h).refuses hrun hnot

/-- A token of a kind, or else the token is to blame. -/
theorem ReadsAfter.expect_bind {kind : Kind} {f g : Token → Routine α} (production : String)
    (hle : levels ≤ more) (hviable : ∃ rest result, reading.admits (taken ++ rest) result)
    (hnone : ∀ token : Token, token.kind ≠ kind → ∀ {sequence tokens result rest},
      taken ++ [token] ++ₛ sequence = tokens ++ₛ rest →
        ¬ reading.accepts more tokens result rest.head)
    (h : ∀ token : Token, token.kind = kind →
      ReadsAfter (taken ++ [token]) levels more (f token) (g token) reading) :
    ReadsAfter taken levels more (Routine.expect kind production >>= f)
      (Routine.expect kind production >>= g) reading := by
  show ReadsAfter taken levels more
    (Routine.next >>= fun token => (ofExcept (token.expectKind kind production) : Routine _) >>= f)
    (Routine.next >>= fun token => (ofExcept (token.expectKind kind production) : Routine _) >>= g) _
  refine .next_bind fun token => ?_
  by_cases hkind : token.kind = kind
  · have hok : token.expectKind kind production = .ok token := by
      rw [Token.expectKind, if_pos (by simp [Token.isKind, hkind])]
    rw [hok]
    exact h token hkind
  · have herror : token.expectKind kind production =
        .error (.unexpectedKind production kind token) := by
      rw [Token.expectKind, if_neg (by simp [Token.isKind, hkind])]
    rw [herror]
    exact .fail hle ⟨rfl, rfl⟩ hviable (hnone token hkind)

/-- A token that was handed back is there to be taken. -/
theorem Routine.expect_pushBack {kind : Kind} {token : Token} (h : token.kind = kind)
    (production : String) {parser : Parser} {pushed : List Token}
    (hpushed : parser.stream.pushed = token :: pushed) :
    Routine.expect kind production parser =
      .ok token { parser with stream := { parser.stream with pushed := pushed } } := by
  have hnext : Routine.next parser =
      .ok token { parser with stream := { parser.stream with pushed := pushed } } := by
    unfold Routine.next TokenStream.next
    rw [hpushed]
  rw [Routine.expect, Routine.bind_apply, hnext]
  dsimp only
  rw [Token.expectKind, if_pos (by simp [Token.isKind, h])]
  rfl

/-- Two tokens are handed back, and the first of them is taken again. -/
theorem Routine.expect_handsBack {kind : Kind} {token following : Token} (h : token.kind = kind)
    (production : Production) (f : Token → Routine α) :
    Routine.HandsBack following
      (Routine.pushBack following >>= fun _ => Routine.pushBack token >>= fun _ =>
        Routine.enter production >>= fun _ => Routine.expect kind production.label >>= f)
      (f token) := by
  intro parser
  let start : Parser := { parser with
    stream := (parser.stream.pushBack following).pushBack token
    log := .entered production :: parser.log }
  refine ⟨{ start with stream := { start.stream with pushed := following :: parser.stream.pushed } },
    ?_, rfl, rfl⟩
  show (Routine.expect kind production.label >>= f) start = _
  rw [Routine.bind_apply, Routine.expect_pushBack h production.label rfl]
  rfl

/-- Three tokens are handed back, and the first two of them are taken again. -/
theorem Routine.expect_two_handsBack {kind kind' : Kind} {token token' following : Token}
    (h : token.kind = kind) (h' : token'.kind = kind') (production : Production)
    (f : Token → Routine α) :
    Routine.HandsBack following
      (Routine.pushBack following >>= fun _ => Routine.pushBack token' >>= fun _ =>
        Routine.pushBack token >>= fun _ => Routine.enter production >>= fun _ =>
        Routine.expect kind production.label >>= fun _ =>
        Routine.expect kind' production.label >>= f)
      (f token') := by
  intro parser
  let start : Parser := { parser with
    stream := ((parser.stream.pushBack following).pushBack token').pushBack token
    log := .entered production :: parser.log }
  refine ⟨{ start with stream := { start.stream with pushed := following :: parser.stream.pushed } },
    ?_, rfl, rfl⟩
  show (Routine.expect kind production.label >>= fun _ =>
    Routine.expect kind' production.label >>= f) start = _
  rw [Routine.bind_apply, Routine.expect_pushBack h production.label rfl]
  dsimp only
  rw [Routine.bind_apply, Routine.expect_pushBack h' production.label rfl]
  rfl

/-- A parser that is not pressed for time can have any tokens ahead. -/
theorem Parser.exists_sequence (tokens : List Token) (following : Token) :
    ∃ (parser : Parser) (rest : Stream' Token), parser.limits.deadline = none ∧
      parser.sequence = tokens ++ₛ rest ∧ rest.head = following := by
  let stream := TokenStream.ofTokens (tokens ++ [following]) ""
  refine ⟨.ofStream stream {}, [following] ++ₛ Stream'.const stream.final, rfl, ?_, rfl⟩
  exact Stream'.append_append_stream tokens [following] (Stream'.const stream.final)

/-- Two tokens are handed back, the first of which is read as the beginning of something, so that
it is not to blame. -/
theorem ReadsAfter.pushBack_two {token next : Token} (h : Reads levels more routine full reading)
    (haccepts : ∃ back result following, reading.accepts more (token :: back) result following) :
    ReadsAfter ([token] ++ [next]) levels more
      (Routine.pushBack next >>= fun _ => Routine.pushBack token >>= fun _ => routine)
      (Routine.pushBack next >>= fun _ => Routine.pushBack token >>= fun _ => full) reading where
  le := h.le
  sound := by
    intro parser result after hrun
    have hrun : routine { parser with stream := (parser.stream.pushBack next).pushBack token } =
      .ok result after := hrun
    exact h.sound hrun
  complete := by
    intro parser tokens result rest hfree hseq hacc
    let start : Parser := { parser with stream := (parser.stream.pushBack next).pushBack token }
    have hfree : start.limits.deadline = none := hfree
    have hseq : start.sequence = tokens ++ₛ rest := hseq
    exact h.complete hfree hseq hacc
  blames := by
    intro parser error after hrun hsyn
    have hrun : routine { parser with stream := (parser.stream.pushBack next).pushBack token } =
      .error error after := hrun
    obtain ⟨tokens, last, hseq, -, habout, hviable, hlocal⟩ := h.blames hrun hsyn
    have hseq : [token] ++ [next] ++ₛ parser.sequence = tokens ++ [last] ++ₛ after.sequence := hseq
    have hne : tokens ≠ [] := by
      rintro rfl
      obtain rfl : token = last := congrArg Stream'.head hseq
      obtain ⟨back, result, following, hacc⟩ := haccepts
      obtain ⟨parser', rest, hfree, hseq', rfl⟩ := Parser.exists_sequence (token :: back) following
      obtain ⟨_, hok, -⟩ := h.complete hfree hseq' hacc
      have hseq' : [] ++ₛ parser'.sequence = [] ++ [token] ++ₛ (back ++ₛ rest) := hseq'
      obtain ⟨_, herror, -⟩ := hlocal hfree hseq'
      rw [hok] at herror
      cases herror
    have hpos := List.length_pos_iff.mpr hne
    refine ⟨tokens, last, hseq, Nat.succ_le_succ hpos, habout, hviable, ?_⟩
    intro parser' rest hfree hseq'
    let start : Parser := { parser' with stream := (parser'.stream.pushBack next).pushBack token }
    have hfree : start.limits.deadline = none := hfree
    have hseq' : start.sequence = tokens ++ [last] ++ₛ rest := hseq'
    exact hlocal hfree hseq'
  refuses := by
    intro parser error after hrun hnot
    have hrun : routine { parser with stream := (parser.stream.pushBack next).pushBack token } =
      .error error after := hrun
    exact h.refuses hrun hnot

/-- What is read may depend on the next token, which is left where it is. -/
theorem ReadsAfter.peek_bind {f g : Token → Routine α}
    (h : ∀ next, ReadsAfter (taken ++ [next]) levels more
      (Routine.pushBack next >>= fun _ => f next) (Routine.pushBack next >>= fun _ => g next)
      reading) :
    ReadsAfter taken levels more (Routine.peek >>= f) (Routine.peek >>= g) reading :=
  .next_bind h

end FrappeSyntax
