import FrappeSyntax.Proofs.DepthLimit
import FrappeSyntax.Proofs.Expectation
import FrappeSyntax.Proofs.Series

/-!
# How routines fail

A routine that fails with a syntax error tells what it expected in the place of the token that it is
about, and one that is refused a level has taken tokens for each level before it. The rules here say
how routines fail that are put together from others, as the rules for readings say what they read.

* `FaultsAfter`: how a routine fails.
* `Fault`: what may be wrong where symbols come next.
* `FaultsAfter.next_bind`, `FaultsAfter.handsBack`: tokens that are taken ahead.
* `FaultsAfter.kind`, `FaultsAfter.mark`, `FaultsAfter.part`: one symbol, and then others.
* `FaultsAfter.separated`, `FaultsAfter.run`, `FaultsAfter.between`: series.
-/

namespace FrappeSyntax

/-- How a routine fails, given that the tokens `taken` were taken before it. -/
structure FaultsAfter (taken : List Token) (least : Nat) (fault : List Token → Cause → Prop)
    (routine : Routine α) : Prop where
  /-- A syntax error is about the token taken last, which is not one that the error expects. -/
  blames : ∀ {parser error after}, routine parser = .error error after → error.IsSyntax →
    ∃ tokens token, taken ++ₛ parser.sequence = (tokens ++ [token]) ++ₛ after.sequence ∧
      error.IsAbout token ∧ ¬ error.cause.Expects token.toWord ∧ fault tokens error.cause
  /-- Before a level is refused, at least `least` tokens were taken. -/
  refuses : ∀ {parser error after}, routine parser = .error error after → error.IsTooDeep →
    ∀ {bound}, EndsWithin (taken ++ₛ parser.sequence) bound → least < bound

/-- How a routine fails. -/
abbrev Faults (least : Nat) (fault : List Token → Cause → Prop) (routine : Routine α) : Prop :=
  FaultsAfter [] least fault routine

/-- An error after some tokens, where symbols come next: what it expects could have gone on with
them, and the error is one that is okay there. -/
def Fault (symbols : List Symbol) (okay : List Token → Cause → Prop) (tokens : List Token)
    (cause : Cause) : Prop :=
  cause.Suggests symbols tokens ∧ okay tokens cause

theorem EndsWithin.of_append {taken : List Token} {rest : Stream' Token} {bound : Nat}
    (h : EndsWithin (taken ++ₛ rest) bound) (hkind : ∀ token ∈ taken, token.kind ≠ .eof) :
    ∃ bound', bound = taken.length + bound' ∧ EndsWithin rest bound' := by
  have hlt := h taken rest rfl hkind
  refine ⟨bound - taken.length, by omega, fun more rest' hrest hmore => ?_⟩
  have hlen := h (taken ++ more) rest' (by rw [hrest, Stream'.append_append_stream])
    (List.forall_mem_append.mpr ⟨hkind, hmore⟩)
  rw [List.length_append] at hlen
  omega

section

variable {taken : List Token} {least : Nat} {fault fault' : List Token → Cause → Prop}
  {routine routine' : Routine α}

namespace FaultsAfter

/-! ## Single steps -/

/-- A routine that gives a result does not fail. -/
theorem of_ok (h : ∀ parser, ∃ a after, routine parser = .ok a after) :
    FaultsAfter taken least fault routine where
  blames := by
    intro parser error after hrun
    obtain ⟨a, after, hok⟩ := h parser
    cases hok.symm.trans hrun
  refuses := by
    intro parser error after hrun
    obtain ⟨a, after, hok⟩ := h parser
    cases hok.symm.trans hrun

theorem pure (a : α) : FaultsAfter taken least fault (Pure.pure a) :=
  .of_ok fun parser => ⟨a, parser, rfl⟩

theorem mono (h : FaultsAfter taken least fault routine) {least' : Nat} (hle : least' ≤ least)
    (himp : ∀ {tokens cause}, fault tokens cause → fault' tokens cause) :
    FaultsAfter taken least' fault' routine where
  blames hrun hsyn := by
    obtain ⟨tokens, token, hseq, habout, hnot, hfault⟩ := h.blames hrun hsyn
    exact ⟨tokens, token, hseq, habout, hnot, himp hfault⟩
  refuses hrun hdeep _ hbound := Nat.lt_of_le_of_lt hle (h.refuses hrun hdeep hbound)

theorem weaken (h : FaultsAfter taken least fault routine) {least' : Nat} (hle : least' ≤ least) :
    FaultsAfter taken least' fault routine :=
  h.mono hle id

/-- A routine fails as a routine does that it resembles. -/
theorem of_resembles (hsame : Routine.Resembles routine routine')
    (h : FaultsAfter taken least fault routine') : FaultsAfter taken least fault routine where
  blames := by
    intro parser error after hrun hsyn
    obtain ⟨start, hstart, hseq, -⟩ := hsame parser
    rw [← hseq]
    exact h.blames (hstart ▸ hrun) hsyn
  refuses := by
    intro parser error after hrun hdeep bound hbound
    obtain ⟨start, hstart, hseq, -⟩ := hsame parser
    rw [← hseq] at hbound
    exact h.refuses (hstart ▸ hrun) hdeep hbound

theorem enter (production : Production) (h : FaultsAfter taken least fault routine) :
    FaultsAfter taken least fault (Routine.enter production >>= fun _ => routine) :=
  .of_resembles (Routine.enter_resembles production routine) h

/-- What is given under a name. -/
theorem map (h : FaultsAfter taken least fault routine) (make : α → β) :
    FaultsAfter taken least fault (routine >>= fun a => Pure.pure (make a)) := by
  have hrun : ∀ {parser error after},
      (routine >>= fun a => Pure.pure (make a)) parser = .error error after →
        routine parser = .error error after := by
    intro parser error after hrun
    rcases Routine.error_of_bind hrun with hfirst | ⟨a, middle, -, ⟨⟩⟩
    exact hfirst
  exact ⟨fun h' => h.blames (hrun h'), fun h' => h.refuses (hrun h')⟩

/-! ## Tokens taken ahead -/

/-- One token more is taken, and what may be wrong may depend on it. -/
theorem next_bind {f : Token → Routine α}
    (h : ∀ token, FaultsAfter (taken ++ [token]) least fault (f token)) :
    FaultsAfter taken least fault (Routine.next >>= f) where
  blames := by
    intro parser error after hrun hsyn
    obtain ⟨token, p, hp, hseq, -⟩ := Routine.next_apply parser
    rw [Routine.bind_apply, hp] at hrun
    rw [hseq, ← Stream'.append_append_stream]
    exact (h token).blames hrun hsyn
  refuses := by
    intro parser error after hrun hdeep bound hbound
    obtain ⟨token, p, hp, hseq, -⟩ := Routine.next_apply parser
    rw [Routine.bind_apply, hp] at hrun
    rw [hseq, ← Stream'.append_append_stream] at hbound
    exact (h token).refuses hrun hdeep hbound

/-- What may be wrong may depend on the next token, which is left where it is. -/
theorem peek_bind {f : Token → Routine α}
    (h : ∀ next, FaultsAfter (taken ++ [next]) least fault
      (Routine.pushBack next >>= fun _ => f next)) :
    FaultsAfter taken least fault (Routine.peek >>= f) :=
  .next_bind h

/-- The token taken last is to blame. -/
theorem fail {token : Token} {error : Error} (habout : error.IsAbout token)
    (hnot : ¬ error.cause.Expects token.toWord) (hfault : fault taken error.cause) :
    FaultsAfter (taken ++ [token]) least fault (throw error : Routine α) where
  blames := by
    rintro parser _ after ⟨⟩ -
    exact ⟨taken, token, rfl, habout, hnot, hfault⟩
  refuses := by
    rintro parser _ after ⟨⟩ hdeep
    exact absurd habout.isSyntax hdeep.not_isSyntax

/-- Tokens are handed back, and no more are taken ahead. So the first token is known, and it is not to
blame for being another one than is expected. -/
theorem handsBackAll {token : Token} {others : List Token}
    (hback : ∀ parser, ∃ start, routine parser = routine' start ∧
      start.sequence = (token :: others) ++ₛ parser.sequence)
    (h : Faults least fault' routine') (hkind : ∀ token ∈ taken, token.kind ≠ .eof)
    (himp : ∀ {tokens cause}, fault' tokens cause →
      (tokens = [] → ¬ cause.Expects token.toWord) → fault (taken ++ tokens) cause) :
    FaultsAfter (taken ++ token :: others) (least + taken.length) fault routine where
  blames := by
    intro parser error after hrun hsyn
    obtain ⟨start, hstart, hseq⟩ := hback parser
    rw [hstart] at hrun
    obtain ⟨tokens, last, htokens, habout, hnot, hfault⟩ := h.blames hrun hsyn
    rw [Stream'.nil_append_stream, hseq] at htokens
    refine ⟨taken ++ tokens, last, ?_, habout, hnot, himp hfault ?_⟩
    · rw [Stream'.append_append_stream, htokens, List.append_assoc,
        Stream'.append_append_stream taken]
    · rintro rfl
      obtain rfl : token = last := congrArg Stream'.head htokens
      exact hnot
  refuses := by
    intro parser error after hrun hdeep bound hbound
    obtain ⟨start, hstart, hseq⟩ := hback parser
    rw [hstart] at hrun
    rw [Stream'.append_append_stream, ← hseq] at hbound
    obtain ⟨bound', rfl, hbound'⟩ := hbound.of_append hkind
    have := h.refuses hrun hdeep hbound'
    omega

/-- The token taken last is handed back, and no more tokens are taken ahead. -/
theorem handsBack {token : Token} (hback : Routine.HandsBack token routine routine')
    (h : Faults least fault' routine') (hkind : ∀ token ∈ taken, token.kind ≠ .eof)
    (himp : ∀ {tokens cause}, fault' tokens cause →
      (tokens = [] → ¬ cause.Expects token.toWord) → fault (taken ++ tokens) cause) :
    FaultsAfter (taken ++ [token]) (least + taken.length) fault routine := by
  refine .handsBackAll (fun parser => ?_) h hkind himp
  obtain ⟨start, hstart, hseq, -⟩ := hback parser
  exact ⟨start, hstart, hseq⟩

/-- The only token that was taken is handed back. -/
theorem pushBack_bind {token : Token} (h : Faults least fault' routine)
    (himp : ∀ {tokens cause}, fault' tokens cause →
      (tokens = [] → ¬ cause.Expects token.toWord) → fault tokens cause) :
    FaultsAfter [token] least fault (Routine.pushBack token >>= fun _ => routine) :=
  .handsBack (Routine.pushBack_handsBack token routine) h (List.forall_mem_nil _) himp

/-- The only two tokens that were taken are handed back. -/
theorem pushBack_two {token following : Token} (h : Faults least fault' routine)
    (himp : ∀ {tokens cause}, fault' tokens cause →
      (tokens = [] → ¬ cause.Expects token.toWord) → fault tokens cause) :
    FaultsAfter [token, following] least fault
      (Routine.pushBack following >>= fun _ => Routine.pushBack token >>= fun _ => routine) :=
  .handsBackAll (fun parser =>
    ⟨{ parser with stream := (parser.stream.pushBack following).pushBack token }, rfl, rfl⟩)
    h (List.forall_mem_nil _) himp

/-- No more tokens are taken ahead. -/
theorem of_faults (h : Faults least fault' routine) (hkind : ∀ token ∈ taken, token.kind ≠ .eof)
    (himp : ∀ {tokens cause}, fault' tokens cause → fault (taken ++ tokens) cause) :
    FaultsAfter taken (least + taken.length) fault routine where
  blames := by
    intro parser error after hrun hsyn
    obtain ⟨tokens, last, htokens, habout, hnot, hfault⟩ := h.blames hrun hsyn
    rw [Stream'.nil_append_stream] at htokens
    refine ⟨taken ++ tokens, last, ?_, habout, hnot, himp hfault⟩
    rw [htokens, List.append_assoc, Stream'.append_append_stream taken]
  refuses := by
    intro parser error after hrun hdeep bound hbound
    obtain ⟨bound', rfl, hbound'⟩ := hbound.of_append hkind
    have := h.refuses hrun hdeep hbound'
    omega

/-- A token that is checked on the spot. -/
theorem check_bind {check : Token → Except Error Token} {property : Token → Prop}
    {f : Token → Routine α} (hok : ∀ token, property token → check token = .ok token)
    (herror : ∀ token, ¬ property token → ∃ error, check token = .error error ∧
      error.IsAbout token ∧ ¬ error.cause.Expects token.toWord ∧ fault taken error.cause)
    (h : ∀ token, property token → FaultsAfter (taken ++ [token]) least fault (f token)) :
    FaultsAfter taken least fault ((do ofExcept (check (← Routine.next))) >>= f) := by
  rw [bind_assoc]
  refine .next_bind fun token => ?_
  by_cases htoken : property token
  · rw [hok token htoken]
    exact h token htoken
  · obtain ⟨error, hcheck, habout, hnot, hfault⟩ := herror token htoken
    rw [hcheck]
    exact .fail habout hnot hfault

/-- A token of a kind. -/
theorem expect_bind {kind : Kind} {label : String} {f : Token → Routine α}
    (hfault : ∀ found, fault taken (.unexpectedKind label kind found))
    (h : ∀ token : Token, token.kind = kind →
      FaultsAfter (taken ++ [token]) least fault (f token)) :
    FaultsAfter taken least fault (Routine.expect kind label >>= f) := by
  refine .check_bind (fun token htoken => ?_) (fun token htoken => ?_) h
  · rw [Token.expectKind, if_pos (by simp [Token.isKind, htoken])]
  · exact ⟨.unexpectedKind label kind token,
      by rw [Token.expectKind, if_neg (by simp [Token.isKind, htoken])], ⟨rfl, rfl⟩, htoken,
      hfault _⟩

/-- A word of punctuation. -/
theorem expectSingle_bind {text label : String} {f : Token → Routine α}
    (hfault : ∀ found, fault taken (.unexpectedText label (.single text) found))
    (h : ∀ token : Token, token.toWord = .single text →
      FaultsAfter (taken ++ [token]) least fault (f token)) :
    FaultsAfter taken least fault (Routine.expectSingle text label >>= f) := by
  refine .check_bind (fun token htoken => ?_) (fun token htoken => ?_) h
  · rw [Token.expectWord, if_pos htoken]
  · exact ⟨.unexpectedText label (.single text) token, by rw [Token.expectWord, if_neg htoken],
      ⟨rfl, rfl⟩, htoken, hfault _⟩

/-! ## Levels -/

/-- A level is refused at once. -/
theorem refuse (label : String) : Faults 0 fault (Routine.refuse label : Routine α) where
  blames := by
    intro parser error after hrun hsyn
    rw [Routine.refuse_eq] at hrun
    cases hrun
    cases hsyn
  refuses := by
    intro parser error after hrun hdeep bound hbound
    refine Nat.pos_of_ne_zero ?_
    rintro rfl
    exact not_endsWithin_zero _ hbound

/-- A level is opened. -/
theorem deeper (h : Faults least fault routine) : Faults least fault (Routine.deeper routine) where
  blames := by
    intro parser error after hrun hsyn
    rcases Routine.error_of_deeper hrun with ⟨-, rfl, -⟩ | ⟨-, inside, hinside, rfl⟩
    · cases hsyn
    · obtain ⟨tokens, token, htokens, hrest⟩ := h.blames hinside hsyn
      exact ⟨tokens, token, htokens, hrest⟩
  refuses := by
    intro parser error after hrun hdeep bound hbound
    rcases Routine.error_of_deeper hrun with ⟨-, rfl, -⟩ | ⟨-, inside, hinside, rfl⟩
    · obtain ⟨_, ⟨⟩⟩ := hdeep
    · exact h.refuses hinside hdeep hbound

end FaultsAfter

/-! ## One symbol, and then others -/

section

variable {okay okay' : List Token → Cause → Prop} {rest : List Symbol}

theorem Token.derives_kind {token : Token} {kind : Kind} (h : token.kind = kind) :
    Derives [.kind kind] ([token].map Token.toWord) :=
  .kind h .nil

theorem Token.derives_mark {token : Token} {text : String} (h : token.toWord = .single text) :
    Derives [.mark text] ([token].map Token.toWord) := by
  rw [List.map_singleton, h]
  exact .mark .nil

theorem Token.kind_ne_of_toWord_eq {token : Token} {text : String} (h : token.toWord = .single text) :
    token.kind ≠ .eof := by
  rw [h]
  exact Kind.noConfusion

/-- A token of a kind, and then what is read after it. -/
theorem FaultsAfter.kind {kind : Kind} {label : String} {f : Token → Routine α} (hkind : kind ≠ .eof)
    (hokay : ∀ found, okay [] (.unexpectedKind label kind found))
    (h : ∀ token : Token, token.kind = kind → Faults least (Fault rest okay') (f token))
    (hmore : ∀ {token : Token} {tokens cause}, token.kind = kind → okay' tokens cause →
      okay (token :: tokens) cause) :
    Faults (least + 1) (Fault (.kind kind :: rest) okay) (Routine.expect kind label >>= f) := by
  refine .expect_bind (fun found => ⟨(Cause.Suggests.kind label kind found).append rest, hokay _⟩)
    fun token htoken => .of_faults (h token htoken) ?_ ?_
  · exact List.forall_mem_singleton.mpr (htoken ▸ hkind)
  · rintro tokens cause ⟨hsuggests, hcause⟩
    exact ⟨hsuggests.prepend (token.derives_kind htoken), hmore htoken hcause⟩

/-- A word of punctuation, and then what is read after it. -/
theorem FaultsAfter.mark {text label : String} {f : Token → Routine α}
    (hokay : ∀ found, okay [] (.unexpectedText label (.single text) found))
    (h : ∀ token, Faults least (Fault rest okay') (f token))
    (hmore : ∀ {token tokens cause}, token.toWord = .single text → okay' tokens cause →
      okay (token :: tokens) cause) :
    Faults (least + 1) (Fault (.mark text :: rest) okay)
      (Routine.expectSingle text label >>= f) := by
  refine .expectSingle_bind
    (fun found => ⟨(Cause.Suggests.mark label text found).append rest, hokay _⟩)
    fun token htoken => .of_faults (h token) ?_ ?_
  · exact List.forall_mem_singleton.mpr (token.kind_ne_of_toWord_eq htoken)
  · rintro tokens cause ⟨hsuggests, hcause⟩
    exact ⟨hsuggests.prepend (token.derives_mark htoken), hmore htoken hcause⟩

variable {levels more : Nat} {full : Routine α} {form : Form α} {symbols : List Symbol}

theorem Form.derives_of_normals_eq (hderives : ∀ tree, Derives symbols (form.words tree))
    {tokens : List Token} {tree : α} (h : normals tokens = form.words tree) :
    Derives symbols (tokens.map Token.toWord) := by
  refine .of_map_normal ?_
  rw [map_normal_map_toWord, h]
  exact hderives tree

/-- The tree of a form, and then what is read after it. The token after the tree is known to stop
it. -/
theorem FaultsAfter.part {f : α → Routine β} (hreads : Reads levels more routine full form.reading)
    (hendless : form.Endless) (hderives : ∀ tree, Derives symbols (form.words tree))
    (h : Faults least (Fault symbols okay) routine)
    (hf : ∀ tree, Faults least (Fault rest okay') (f tree))
    (hmore : ∀ {front tree following tokens cause},
      form.reading.accepts levels front tree following → okay' tokens cause →
      (tokens = [] → ¬ cause.Expects following.toWord) → okay (front ++ tokens) cause) :
    Faults least (Fault (symbols ++ rest) okay) (routine >>= f) where
  blames := by
    intro parser error after hrun hsyn
    rcases Routine.error_of_bind hrun with hfirst | ⟨tree, middle, hok, hnext⟩
    · obtain ⟨tokens, token, hseq, habout, hnot, hsuggests, hcause⟩ := h.blames hfirst hsyn
      exact ⟨tokens, token, hseq, habout, hnot, hsuggests.append rest, hcause⟩
    · obtain ⟨front, hfront, hacc⟩ := hreads.sound hok
      obtain ⟨tokens, token, hseq, habout, hnot, hsuggests, hcause⟩ :=
        (hf tree).blames hnext hsyn
      rw [Stream'.nil_append_stream] at hfront hseq
      refine ⟨front ++ tokens, token, ?_, habout, hnot,
        hsuggests.prepend (Form.derives_of_normals_eq hderives hacc.1), hmore hacc hcause ?_⟩
      · rw [Stream'.nil_append_stream, hfront, hseq, List.append_assoc,
          Stream'.append_append_stream front]
      · rintro rfl
        obtain rfl : middle.sequence.head = token := congrArg Stream'.head hseq
        exact hnot
  refuses := by
    intro parser error after hrun hdeep bound hbound
    rcases Routine.error_of_bind hrun with hfirst | ⟨tree, middle, hok, hnext⟩
    · exact h.refuses hfirst hdeep hbound
    · obtain ⟨front, hfront, hacc⟩ := hreads.sound hok
      rw [hfront] at hbound
      obtain ⟨bound', rfl, hbound'⟩ :=
        hbound.of_append fun token hmem => hendless.kind_ne hacc.1 hmem
      exact Nat.lt_of_lt_of_le ((hf tree).refuses hnext hdeep hbound') (Nat.le_add_left _ _)

/-- What a rule of a production says. -/
theorem FaultsAfter.of_rule {production : Production} {rule : List Symbol}
    (h : FaultsAfter taken least (Fault rule okay) routine) (hrule : rule ∈ production.rules) :
    FaultsAfter taken least (Fault [.part production] okay) routine :=
  h.mono le_rfl fun hfault => ⟨.of_rule hrule hfault.1, hfault.2⟩

theorem FaultsAfter.okay_mono (h : FaultsAfter taken least (Fault symbols okay) routine)
    (himp : ∀ {tokens cause}, okay tokens cause → okay' tokens cause) :
    FaultsAfter taken least (Fault symbols okay') routine :=
  h.mono le_rfl fun hfault => ⟨hfault.1, himp hfault.2⟩

/-! ## Repetition -/

/-- What fails in a loop is an item, after some items and at a token that calls for it. -/
theorem Routine.error_of_repeatFor {reading : Reading α} {calls : Token → Bool}
    (hreads : Reads levels more routine full reading) {items : List α} {turns : List Token}
    {parser after : Parser} {error : Error}
    (hrun : repeatFor calls routine items turns parser = .error error after) :
    ∃ front done start, parser.sequence = front ++ₛ start.sequence ∧
      reading.ManyAdmit front done ∧ calls start.sequence.head = true ∧
      routine start = .error error after := by
  induction turns generalizing items parser with
  | nil => cases hrun
  | cons turn turns ih =>
    cases hcalls : calls parser.sequence.head with
    | false =>
      obtain ⟨p, hp, -⟩ := repeatFor_of_not_calls hcalls
      rw [hp] at hrun
      cases hrun
    | true =>
      obtain ⟨start, hstart, hseq, -⟩ := repeatFor_of_calls hcalls
      rw [hstart] at hrun
      rcases error_of_bind hrun with hitem | ⟨a, middle, hitem, hmore⟩
      · exact ⟨[], [], start, hseq.symm, rfl, hseq ▸ hcalls, hitem⟩
      · obtain ⟨front, hfront, hacc⟩ := hreads.sound hitem
        obtain ⟨back, done, start', hback, hdone, hcalls', hrun'⟩ := ih hmore
        refine ⟨front ++ back, a :: done, start', ?_,
          ⟨front, back, rfl, reading.admits_of_accepts hacc, hdone⟩, hcalls', hrun'⟩
        rw [← hseq, Stream'.append_append_stream, ← hback]
        exact hfront

theorem Reading.ManyAdmit.endless {reading : Reading α}
    (hendless : ∀ {tokens a}, reading.admits tokens a → ∀ token ∈ tokens, token.kind ≠ .eof)
    {tokens : List Token} {items : List α} (h : reading.ManyAdmit tokens items) :
    ∀ token ∈ tokens, token.kind ≠ .eof := by
  induction items generalizing tokens with
  | nil =>
    obtain rfl := h
    simp
  | cons a items ih =>
    obtain ⟨front, back, rfl, hadm, hmore⟩ := h
    exact List.forall_mem_append.mpr ⟨hendless hadm, ih hmore⟩

/-- Items for as long as the next token calls for one. -/
theorem FaultsAfter.repeatWhile {reading : Reading α} {calls : Token → Bool}
    (hreads : Reads levels more routine full reading)
    (hendless : ∀ {tokens a}, reading.admits tokens a → ∀ token ∈ tokens, token.kind ≠ .eof)
    (h : Faults least fault routine)
    (himp : ∀ {front done following tokens cause}, reading.ManyAdmit front done →
      calls following = true → fault tokens cause →
      (tokens = [] → ¬ cause.Expects following.toWord) → fault' (front ++ tokens) cause) :
    Faults least fault' (Routine.repeatWhile calls routine) where
  blames := by
    intro parser error after hrun hsyn
    obtain ⟨front, done, start, hfront, hdone, hcalls, hstart⟩ :=
      Routine.error_of_repeatFor hreads hrun
    obtain ⟨tokens, token, hseq, habout, hnot, hfault⟩ := h.blames hstart hsyn
    rw [Stream'.nil_append_stream] at hseq
    refine ⟨front ++ tokens, token, ?_, habout, hnot, himp hdone hcalls hfault ?_⟩
    · rw [Stream'.nil_append_stream, hfront, hseq, List.append_assoc,
        Stream'.append_append_stream front]
    · rintro rfl
      obtain rfl : start.sequence.head = token := congrArg Stream'.head hseq
      exact hnot
  refuses := by
    intro parser error after hrun hdeep bound hbound
    obtain ⟨front, done, start, hfront, hdone, -, hstart⟩ :=
      Routine.error_of_repeatFor hreads hrun
    rw [Stream'.nil_append_stream, hfront] at hbound
    obtain ⟨bound', rfl, hbound'⟩ := hbound.of_append (hdone.endless hendless)
    exact Nat.lt_of_lt_of_le (h.refuses hstart hdeep hbound') (Nat.le_add_left _ _)

/-! ## Series -/

variable {item : Symbol} {series : Production}

/-- Items with separators, before an error in one more. -/
theorem Cause.Suggests.after_separated {separator : String}
    (hmore : [item, .mark separator, .part series] ∈ series.rules) (hone : [item] ∈ series.rules)
    (hderives : ∀ tree, Derives [item] (form.words tree)) {front tokens : List Token}
    {trees : List α} {mark : Token} {cause : Cause}
    (hfront : normals front = wordsOfMore separator form.words trees)
    (hmark : mark.toWord = .single separator) (h : cause.Suggests [item] tokens) :
    cause.Suggests [.mark separator, .part series] (front ++ mark :: tokens) := by
  induction trees generalizing front with
  | nil =>
    obtain rfl := normals_eq_nil.mp hfront
    exact (Cause.Suggests.of_rule hone h).prepend (mark.derives_mark hmark)
  | cons tree trees ih =>
    obtain ⟨first, back, rfl, hfirst, hback⟩ := normals_eq_cons.mp hfront
    obtain ⟨middle, last, rfl, hmiddle, hlast⟩ := normals_eq_append.mp hback
    have hitem : Derives [item] (middle.map Token.toWord) :=
      Form.derives_of_normals_eq hderives hmiddle
    rw [Word.normal_eq_single] at hfirst
    rw [List.cons_append, List.append_assoc]
    exact (Cause.Suggests.of_rule hmore ((ih hlast).prepend hitem)).prepend (first.derives_mark hfirst)

/-- Items with separators between them. -/
theorem FaultsAfter.separated {separator : String}
    (hmore : [item, .mark separator, .part series] ∈ series.rules) (hone : [item] ∈ series.rules)
    (hreads : Reads levels more routine full form.reading) (hendless : form.Endless)
    (hderives : ∀ tree, Derives [item] (form.words tree))
    (h : Faults least (Fault [item] okay') routine)
    (hfirst : ∀ {tokens cause}, okay' tokens cause → okay tokens cause)
    (hnext : ∀ {front mark tokens cause}, mark.toWord = .single separator →
      okay' tokens cause → okay (front ++ mark :: tokens) cause) :
    Faults least (Fault [.part series] okay) (Series.parse separator routine) := by
  -- an item after the first one: the separator was looked at, so it is not to blame
  let another : List Token → Cause → Prop := fun tokens cause =>
    (tokens = [] ∧ ∃ found, cause = .unexpectedText "" (.single separator) found) ∨
      ∃ mark back, tokens = mark :: back ∧ mark.toWord = .single separator ∧
        Fault [item] okay' back cause
  have hanother : Faults least another
      (Routine.expectSingle separator "" >>= fun _ => routine) := by
    refine .expectSingle_bind (fun found => .inl ⟨rfl, found, rfl⟩) fun mark hmark => ?_
    refine (FaultsAfter.of_faults h ?_ ?_).weaken (Nat.le_succ least)
    · exact List.forall_mem_singleton.mpr (mark.kind_ne_of_toWord_eq hmark)
    · exact fun hfault => .inr ⟨mark, _, rfl, hmark, hfault⟩
  let later : List Token → Cause → Prop := fun tokens cause =>
    ∃ front mark back, tokens = front ++ mark :: back ∧ mark.toWord = .single separator ∧
      okay' back cause
  have hloop : Faults least (Fault [.mark separator, .part series] later)
      (Routine.repeatWhile (·.isSingle separator)
        (Routine.expectSingle separator "" >>= fun _ => routine)) := by
    refine .repeatWhile (.bind (.expectSingle hreads.le separator "") fun _ => hreads)
      (hendless.isItem_separated separator).endless hanother ?_
    rintro front done following _ cause hdone hcalls (⟨rfl, found, rfl⟩ | ⟨mark, back, rfl, hmark,
      hsuggests, hcause⟩) hnot
    · exact absurd (Word.isSingle_iff.mp hcalls) (hnot rfl)
    · exact ⟨.after_separated hmore hone hderives (Form.manyAdmit_separated hdone) hmark hsuggests,
        front, mark, back, rfl, hmark, hcause⟩
  have hseries : Faults least (Fault ([item] ++ [.mark separator, .part series]) okay)
      (Series.parse separator routine) := by
    rw [Series.parse_eq]
    refine .part hreads hendless hderives (h.okay_mono hfirst) (fun tree => hloop.map _) ?_
    rintro front tree following _ cause - ⟨middle, mark, back, rfl, hmark, hcause⟩ -
    rw [← List.append_assoc]
    exact hnext hmark hcause
  exact hseries.of_rule hmore

/-- Items in a run, before an error in one more. -/
theorem Cause.Suggests.after_run (hmore : [item, .part series] ∈ series.rules)
    (hone : [item] ∈ series.rules) (hderives : ∀ tree, Derives [item] (form.words tree))
    {front tokens : List Token} {trees : List α} {cause : Cause}
    (hfront : normals front = wordsOfRun form.words trees) (h : cause.Suggests [item] tokens) :
    cause.Suggests [.part series] (front ++ tokens) := by
  induction trees generalizing front with
  | nil =>
    obtain rfl := normals_eq_nil.mp hfront
    exact .of_rule hone h
  | cons tree trees ih =>
    obtain ⟨first, back, rfl, hfirst, hback⟩ := normals_eq_append.mp hfront
    rw [List.append_assoc]
    exact .of_rule hmore ((ih hback).prepend (Form.derives_of_normals_eq hderives hfirst))

/-- Items up to a token that ends them. -/
theorem FaultsAfter.run {ends : Token → Bool} (hmore : [item, .part series] ∈ series.rules)
    (hone : [item] ∈ series.rules) (hreads : Reads levels more routine full form.reading)
    (hendless : form.Endless) (hderives : ∀ tree, Derives [item] (form.words tree))
    (h : Faults least (Fault [item] okay') routine)
    (hnext : ∀ {trees front tokens cause}, normals front = wordsOfRun form.words trees →
      okay' tokens cause → okay (front ++ tokens) cause) :
    Faults least (Fault [.part series] okay) (Series.parseUntil ends routine) := by
  let later : List Token → Cause → Prop := fun tokens cause =>
    ∃ trees front back, tokens = front ++ back ∧ normals front = wordsOfRun form.words trees ∧
      okay' back cause
  have hloop : Faults least (Fault [.part series] later)
      (Routine.repeatWhile (!ends ·) routine) := by
    refine .repeatWhile hreads (fun hadm _ hmem => hendless.kind_ne hadm hmem) h ?_
    rintro front done following tokens cause hdone - ⟨hsuggests, hcause⟩ -
    have hfront := Form.manyAdmit_run hdone
    exact ⟨.after_run hmore hone hderives hfront hsuggests, done, front, tokens, rfl, hfront, hcause⟩
  have hseries : Faults least (Fault ([item] ++ [.part series]) okay)
      (Series.parseUntil ends routine) := by
    refine .part hreads hendless hderives (h.okay_mono fun hcause => ?_) (fun tree => hloop.map _) ?_
    · have hnil : normals [] = wordsOfRun form.words ([] : List α) := rfl
      exact hnext hnil hcause
    · rintro front tree following _ cause hacc ⟨trees, middle, back, rfl, hmiddle, hcause⟩ -
      have hfront : normals (front ++ middle) = wordsOfRun form.words (tree :: trees) := by
        rw [normals_append, hmiddle, hacc.1]
        rfl
      rw [← List.append_assoc]
      exact hnext hfront hcause
  exact hseries.of_rule hmore

end

/-- What stands between two words of punctuation, and then what is read after it, in order. -/
theorem Series.parseBetween_bind (opening closing label : String) (routine : Routine (Series α))
    (f : List α → Routine β) :
    (parseBetween opening closing label routine >>= f) =
      Routine.expectSingle opening label >>= fun _ => Routine.peek >>= fun next =>
        if next.isSingle closing then Routine.expectSingle closing label >>= fun _ => f []
        else routine >>= fun series =>
          Routine.expectSingle closing label >>= fun _ => f series.toList := by
  simp only [parseBetween, parseUnless, bind_assoc, pure_bind]
  congr 1
  funext _
  congr 1
  funext next
  split <;> simp only [bind_assoc, pure_bind]

section

variable {okay okay' okay'' : List Token → Cause → Prop} {rest : List Symbol} {levels more : Nat}
  {routine full : Routine (Series α)} {form : Form (Series α)} {series production : Production}
  {opening closing label : String} {f : List α → Routine β}

/-- Items between two words of punctuation, or none, and then what is read after them. -/
theorem FaultsAfter.between (hnone : .mark opening :: .mark closing :: rest ∈ production.rules)
    (hsome : .mark opening :: .part series :: .mark closing :: rest ∈ production.rules)
    (hreads : Reads levels more routine full form.reading) (hendless : form.Endless)
    (hderives : ∀ tree, Derives [.part series] (form.words tree))
    (h : Faults least (Fault [.part series] okay') routine)
    (hf : ∀ items, Faults least (Fault rest okay'') (f items))
    (hopens : ∀ found, okay [] (.unexpectedText label (.single opening) found))
    (hcloses : ∀ {front tree following found}, form.stops following tree →
      following.isSingle closing = false →
      okay front (.unexpectedText label (.single closing) found))
    (hitems : ∀ {first tokens cause}, okay' tokens cause → okay (first :: tokens) cause)
    (hrest : ∀ {front tokens cause}, okay'' tokens cause → okay (front ++ tokens) cause) :
    Faults (least + 1) (Fault [.part production] okay)
      (Series.parseBetween opening closing label routine >>= f) := by
  -- what may be wrong from the closing word on
  let closed : List Token → Cause → Prop := fun tokens cause =>
    (tokens = [] ∧ ∃ found, cause = .unexpectedText label (.single closing) found) ∨
      ∃ last back, tokens = last :: back ∧ okay'' back cause
  have hclosed : ∀ items, Faults least (Fault (.mark closing :: rest) closed)
      (Routine.expectSingle closing label >>= fun _ => f items) := by
    intro items
    refine FaultsAfter.weaken (FaultsAfter.mark (fun found => .inl ⟨rfl, found, rfl⟩) (fun _ => hf items) ?_)
      (Nat.le_succ least)
    exact fun _ hcause => .inr ⟨_, _, rfl, hcause⟩
  rw [Series.parseBetween_bind]
  refine .expectSingle_bind
    (fun found => ⟨.of_rule hnone ((Cause.Suggests.mark label opening found).append _), hopens _⟩)
    fun first hfirst => .peek_bind fun next => ?_
  have hkind : ∀ token ∈ [first], token.kind ≠ .eof :=
    List.forall_mem_singleton.mpr (first.kind_ne_of_toWord_eq hfirst)
  have hopened := first.derives_mark hfirst
  split
  case isTrue hnext =>
    refine .handsBack (Routine.pushBack_handsBack next _) (hclosed []) hkind ?_
    rintro tokens cause ⟨hsuggests, hcause⟩ hnot
    refine ⟨.of_rule hnone (hsuggests.prepend hopened), ?_⟩
    rcases hcause with ⟨rfl, found, rfl⟩ | ⟨last, back, rfl, hcause⟩
    · exact absurd (Word.isSingle_iff.mp hnext) (hnot rfl)
    · have hokay : okay ([first, last] ++ back) cause := hrest hcause
      exact hokay
  case isFalse hnext =>
    have hinner : Faults least
        (Fault ([.part series] ++ .mark closing :: rest) fun tokens cause =>
          okay (first :: tokens) cause)
        (routine >>= fun series =>
          Routine.expectSingle closing label >>= fun _ => f series.toList) := by
      refine .part hreads hendless hderives (h.okay_mono hitems) (fun tree => hclosed _) ?_
      rintro front tree following tokens cause hacc (⟨rfl, found, rfl⟩ | ⟨last, back, rfl, hcause⟩)
        hnot
      · refine hcloses hacc.2.2 (Bool.eq_false_iff.mpr fun hsingle => ?_)
        exact hnot rfl (Word.isSingle_iff.mp hsingle)
      · have hokay : okay ((first :: front ++ [last]) ++ back) cause := hrest hcause
        rwa [List.append_assoc] at hokay
    refine .handsBack (Routine.pushBack_handsBack next _) hinner hkind ?_
    rintro tokens cause ⟨hsuggests, hcause⟩ -
    exact ⟨.of_rule hsome (hsuggests.prepend hopened), hcause⟩

/-- Items between two words of punctuation, or none. -/
theorem FaultsAfter.between_last (hnone : [.mark opening, .mark closing] ∈ production.rules)
    (hsome : [.mark opening, .part series, .mark closing] ∈ production.rules)
    (hreads : Reads levels more routine full form.reading) (hendless : form.Endless)
    (hderives : ∀ tree, Derives [.part series] (form.words tree))
    (h : Faults least (Fault [.part series] okay') routine)
    (hopens : ∀ found, okay [] (.unexpectedText label (.single opening) found))
    (hcloses : ∀ {front tree following found}, form.stops following tree →
      following.isSingle closing = false →
      okay front (.unexpectedText label (.single closing) found))
    (hitems : ∀ {first tokens cause}, okay' tokens cause → okay (first :: tokens) cause) :
    Faults (least + 1) (Fault [.part production] okay)
      (Series.parseBetween opening closing label routine) := by
  have hrest : ∀ items : List α, Faults least (Fault [] fun _ _ => False)
      (Pure.pure items : Routine (List α)) :=
    fun items => .pure items
  rw [← bind_pure (Series.parseBetween opening closing label routine)]
  exact .between hnone hsome hreads hendless hderives h hrest hopens hcloses hitems False.elim

end

end

end FrappeSyntax
