import FrappeSyntax.Error.Report
import FrappeSyntax.Proofs.Line
import FrappeSyntax.Proofs.ReadAhead
import FrappeSyntax.Proofs.Tiling

/-!
# What a report points at

An error of a scan or of a parse is about a character that is not a blank, or about the end of the
source. In the first case a report shows the line of this character and points at it: blanks around
the line are left out, and the caret stands in the column of the character. In the second case it
shows no line.

* `scanFrom_pointed`: where the tokens and the errors of a scan stand.
* `parseWith_reports`: the errors of a parse are about tokens.
* `Text.Site.snippet_eq`, `Text.Site.isShownBy`: the rows that show a character.
* `report_pointsAt`: the reports of all errors.
-/

namespace FrappeSyntax

/-! ## Where tokens and errors stand -/

/-- A character that is not a blank stands at a byte offset of a text. -/
def Text.VisibleAt (text : List Char) (offset : Nat) : Prop :=
  ∃ site : Site, text = site.text ∧ site.offset = offset ∧ isBlank site.char = false

theorem Text.VisibleAt.lt {text : List Char} {offset : Nat} (h : VisibleAt text offset) :
    offset < byteSize text := by
  obtain ⟨site, rfl, rfl, -⟩ := h
  exact site.offset_lt

/-- A word starts with a character that is not a blank, and the end token stands at the end. -/
inductive Token.StandsIn (text : List Char) (token : Token) : Prop
  | word : token.kind ≠ .eof → Text.VisibleAt text token.position.offset → StandsIn text token
  | last : token.kind = .eof → token.position.offset = Text.byteSize text → StandsIn text token

/-- Just the end token stands at the end or past it. -/
theorem Token.StandsIn.le_iff {text : List Char} {token : Token} (h : token.StandsIn text) :
    Text.byteSize text ≤ token.position.offset ↔ token.kind = .eof := by
  cases h with
  | word hkind hvisible =>
    exact ⟨fun hle => absurd hvisible.lt (Nat.not_lt_of_le hle), fun heof => absurd heof hkind⟩
  | last hkind hoffset => exact ⟨fun _ => hkind, fun _ => Nat.le_of_eq hoffset.symm⟩

/-- The tokens of a scan stand in a text, or its error is about a character that is not a blank. -/
def Pointed (text : List Char) : Except Error (List Token) → Prop
  | .ok tokens => ∀ token ∈ tokens, token.StandsIn text
  | .error error => Text.VisibleAt text error.position.offset

/-- Scanning the rest of a source adds tokens that stand in it, or ends with an error about a
character of it. -/
theorem scanFrom_pointed {source before cs : List Char} {file : String} {offset covered : Nat}
    {done : List Token} (hsource : source = before ++ cs) (hoffset : Text.byteSize before = offset)
    (hdone : ∀ token ∈ done, token.StandsIn source) :
    Pointed source (scanFrom file offset covered done cs) := by
  induction cs generalizing before offset covered done with
  | nil =>
    rw [scanFrom]
    intro token hmem
    rw [List.mem_reverse, List.mem_cons] at hmem
    rcases hmem with rfl | hmem
    · rw [List.append_nil] at hsource
      exact .last rfl (hsource ▸ hoffset.symm)
    · exact hdone token hmem
  | cons c cs ih =>
    have hnext : source = (before ++ [c]) ++ cs := by rw [hsource, List.append_cons]
    have hsize : Text.byteSize (before ++ [c]) = offset + c.utf8Size := by
      rw [Text.byteSize_append, hoffset]
      rfl
    cases covered with
    | succ covered =>
      rw [scanFrom]
      exact ih hnext hsize hdone
    | zero =>
      rw [scanFrom]
      -- blanks have no token, so what is found is about the character only if it is not a blank
      cases hblank : Text.isBlank c with
      | true =>
        rw [Lexeme.first?_of_isBlank hblank]
        exact ih hnext hsize hdone
      | false =>
        have hvisible : Text.VisibleAt source offset := ⟨⟨before, c, cs⟩, hsource, hoffset, hblank⟩
        cases hfirst : Lexeme.first? (c :: cs) with
        | none => exact hvisible
        | some lexeme =>
          refine ih hnext hsize (List.forall_mem_append.mpr ⟨fun token hmem => ?_, hdone⟩)
          obtain ⟨rest, -, hstands⟩ := Lexeme.stands_of_first? hfirst
          unfold Lexeme.tokens at hmem
          rcases hstands.gap_or_word with ⟨hnone, -⟩ | ⟨word, hsome, hkind, -⟩
          · rw [hnone] at hmem
            cases hmem
          · rw [hsome] at hmem
            obtain rfl := List.mem_singleton.mp hmem
            exact .word hkind hvisible

/-- The token that an error is about: it stands there, and its word is the one that is shown. -/
def Error.Reports (error : Error) (token : Token) : Prop :=
  error.position = token.position ∧ ∀ word ∈ error.cause.found?, word = token.toWord

theorem Error.IsAbout.reports {error : Error} {token : Token} (h : error.IsAbout token) :
    error.Reports token :=
  ⟨h.2, fun _ hword => Option.some.inj (hword.symm.trans h.1)⟩

theorem Error.reports_of_isRefusal {cause : Cause} (h : cause.isRefusal = true) (token : Token) :
    Error.Reports ⟨cause, token.position⟩ token := by
  refine ⟨rfl, fun word hword => ?_⟩
  cases cause with
  | recursionLimitExceeded | deadlineExceeded => cases hword
  | _ => cases h

/-- The errors of a parse are about tokens. -/
theorem parseWith_reports {front : List Token} {final : Token} (hfinal : final.kind = .eof)
    {file : String} {limits : Limits} {error : Error}
    (h : (parseWith (.ofTokens (front ++ [final]) file) limits).1 = .error error) :
    ∃ token ∈ front ++ [final], error.Reports token := by
  let tape := Tape.ofTokens (front ++ [final]) file
  have hmem : ∀ index, tape.get index ∈ front ++ [final] := Tape.get_mem_of_eof hfinal front file
  obtain ⟨after, hrun, -⟩ := parseWith_fst_eq_error h
  change Program.parse limits.maxDepth ((Spot.start limits).on tape) = _ at hrun
  obtain ⟨outcome', hparse⟩ := Program.exists_abreast tape limits limits.maxDepth
  rw [hrun] at hparse
  cases hparse with
  | @complains _ index complaint => exact ⟨_, hmem index, (complaint.isAbout _).reports⟩
  | @refuses spot _ hcause => exact ⟨_, hmem spot.index, Error.reports_of_isRefusal hcause _⟩

/-! ## Rows -/

namespace Text

theorem trimStart_append_cons {c : Char} (h : isBlank c = false) (start rest : List Char) :
    trimStart (start ++ c :: rest) = trimStart start ++ c :: rest :=
  dropWhile_append_cons h start rest

theorem trimEnd_append_cons {c : Char} (h : isBlank c = false) (start rest : List Char) :
    trimEnd (start ++ c :: rest) = start ++ c :: trimEnd rest := by
  have hreverse : (start ++ c :: rest).reverse = rest.reverse ++ c :: start.reverse := by simp
  rw [trimEnd, trimEnd, hreverse, dropWhile_append_cons h]
  simp

theorem trimEnd_concat {c : Char} (h : isBlank c = true) (cs : List Char) :
    trimEnd (cs ++ [c]) = trimEnd cs := by
  rw [trimEnd, trimEnd, List.reverse_concat, List.dropWhile_cons_of_pos h]

theorem mem_of_mem_trimStart {c : Char} {cs : List Char} (h : c ∈ trimStart cs) : c ∈ cs :=
  (List.dropWhile_suffix _).mem h

theorem mem_of_mem_trimEnd {c : Char} {cs : List Char} (h : c ∈ trimEnd cs) : c ∈ cs :=
  List.mem_reverse.mp ((List.dropWhile_suffix _).mem (List.mem_reverse.mp h))

theorem sliceBytes?_append (xs ys zs : List Char) :
    sliceBytes? (byteSize xs) (byteSize (xs ++ ys)) (xs ++ (ys ++ zs)) = some ys := by
  rw [sliceBytes?, byteSize_append, if_pos (Nat.le_add_right _ _), dropBytes?_byteSize_append,
    Option.bind_some, Nat.add_sub_cancel_left, takeBytes?_byteSize_append]

end Text

namespace Text.Site

variable (site : Site)

/-- The number of the line, as it is written. -/
def digits : List Char := (toString site.number).toList

theorem notMem_digits : '\n' ∉ site.digits := by
  intro hmem
  rw [digits, Nat.toString_eq_repr, Nat.toList_repr] at hmem
  cases Nat.isDigit_of_mem_toDigits (by decide) (by decide) hmem

/-- What the row of the line has before the character. -/
def front : List Char := site.digits ++ [' ', '|', ' '] ++ trimStart site.start

/-- Three rows show the line that holds a character, and point at the character. -/
structure IsShownBy (margin row marker : List Char) : Prop where
  /-- The rows do not hold line feeds. -/
  unbroken : '\n' ∉ margin ∧ '\n' ∉ row ∧ '\n' ∉ marker
  /-- The row has the number of the line, and its text without the blanks at both ends. -/
  row_eq : row = site.digits ++ [' ', '|', ' '] ++ trimEnd (trimStart site.line)
  /-- The text is shown up to the character, then the character, and then what follows it. -/
  row_divides : row = site.front ++ site.char :: trimEnd site.rest
  /-- The caret stands in the column of the character, and nothing comes after it. -/
  caret : row[site.front.length]? = some site.char ∧ marker[site.front.length]? = some '^' ∧
    marker.length = site.front.length + 1
  /-- After the bar, a space and hyphens lead up to the caret. -/
  marker_eq : ∃ hyphens, (∀ c ∈ hyphens, c = '-') ∧ marker = margin ++ ' ' :: hyphens ++ ['^']
  /-- The margin is a bar after spaces. -/
  margin_eq : ∃ spaces, (∀ c ∈ spaces, c = ' ') ∧ margin = spaces ++ ['|']
  /-- The bars of the rows stand in one column, after the number and a space. -/
  bars : margin[site.digits.length + 1]? = some '|' ∧ row[site.digits.length + 1]? = some '|' ∧
    marker[site.digits.length + 1]? = some '|'

/-- A line feed at its end does not change what is shown of a line. -/
theorem trim_line (h : isBlank site.char = false) {ending : List Char}
    (hending : ending = [] ∨ ending = ['\n']) :
    trimEnd (trimStart (site.line ++ ending)) =
      trimStart site.start ++ site.char :: trimEnd site.rest := by
  rw [line, List.append_assoc, List.cons_append, trimStart_append_cons h, trimEnd_append_cons h]
  rcases hending with rfl | rfl
  · rw [List.append_nil]
  · rw [trimEnd_concat (by decide)]

/-- The hyphens are as many as the characters that are shown before the one that is pointed at. -/
theorem marked_eq (h : isBlank site.char = false) :
    Error.marked ⟨site.number, site.line ++ site.ending, byteSize site.start⟩ =
      (trimStart site.start).length := by
  let blanks := site.start.takeWhile isBlank
  have hstart : blanks ++ trimStart site.start = site.start := takeWhile_append_trimStart _
  have hline : site.line ++ site.ending = site.start ++ site.char :: (site.rest ++ site.ending) := by
    rw [line, List.append_assoc, List.cons_append]
  have hindent : Error.indent ⟨site.number, site.line ++ site.ending, byteSize site.start⟩ =
      byteSize blanks := by
    rw [Error.indent, hline, takeWhile_append_cons h]
  have hslice := sliceBytes?_append blanks (trimStart site.start)
    (site.char :: (site.rest ++ site.ending))
  rw [← List.append_assoc, hstart, ← hline] at hslice
  rw [Error.marked, hindent, hslice]
  rfl

theorem char_ne_lineFeed (h : isBlank site.char = false) : site.char ≠ '\n' := by
  intro hchar
  rw [hchar] at h
  cases h

/-- The row above the line. -/
def margin : List Char := List.replicate (site.digits ++ [' ']).length ' ' ++ ['|']

/-- The row that shows the line. -/
def row : List Char := site.front ++ site.char :: trimEnd site.rest

/-- What leads up to the caret. -/
def hyphens : List Char := List.replicate (trimStart site.start).length '-'

/-- The row with the caret. -/
def marker : List Char := site.margin ++ ' ' :: site.hyphens ++ ['^']

theorem snippet_eq (h : isBlank site.char = false) :
    Error.snippet ⟨site.number, site.line ++ site.ending, byteSize site.start⟩ =
      [site.margin, site.row, site.marker] := by
  have hmargin : Error.alignRight ' ' (site.digits.length + 2) ['|'] = site.margin := by
    rw [margin, List.length_append]
    rfl
  have hmarker : Error.alignRight '-' ((trimStart site.start).length + 1) ['^'] =
      site.hyphens ++ ['^'] := rfl
  rw [Error.snippet, site.marked_eq h, site.trim_line h site.ending_eq, ← digits, hmargin, hmarker,
    row, front, marker]
  simp

theorem notMem_margin : '\n' ∉ site.margin := by
  simp [margin]

theorem notMem_row (h : isBlank site.char = false) : '\n' ∉ site.row := by
  have hstart : '\n' ∉ trimStart site.start := fun hmem =>
    site.notMem_start (mem_of_mem_trimStart hmem)
  have hrest : '\n' ∉ trimEnd site.rest := fun hmem => site.notMem_rest (mem_of_mem_trimEnd hmem)
  simp [row, front, site.notMem_digits, hstart, (site.char_ne_lineFeed h).symm, hrest]

theorem notMem_marker : '\n' ∉ site.marker := by
  simp [marker, site.notMem_margin, hyphens]

theorem length_margin : site.margin.length = site.digits.length + 2 := by
  simp [margin]

theorem length_margin_hyphens : (site.margin ++ ' ' :: site.hyphens).length = site.front.length := by
  simp [length_margin, hyphens, front]
  omega

/-- The rows that a report shows for the line of a character point at the character. -/
theorem isShownBy (h : isBlank site.char = false) :
    site.IsShownBy site.margin site.row site.marker where
  unbroken := ⟨site.notMem_margin, site.notMem_row h, site.notMem_marker⟩
  row_eq := by
    have hline := site.trim_line h (.inl rfl)
    rw [List.append_nil] at hline
    rw [hline, row, front]
    simp
  row_divides := rfl
  caret := by
    refine ⟨by simp [row], ?_, ?_⟩
    · rw [marker, ← length_margin_hyphens]
      exact List.getElem?_concat_length
    · rw [marker, List.length_append, length_margin_hyphens]
      rfl
  marker_eq := ⟨site.hyphens, fun _ hmem => List.eq_of_mem_replicate hmem, rfl⟩
  margin_eq := ⟨_, fun _ hmem => List.eq_of_mem_replicate hmem, rfl⟩
  bars := by
    have hbar : site.margin[site.digits.length + 1]? = some '|' := by simp [margin]
    refine ⟨hbar, ?_, ?_⟩
    · simp [row, front]
    · rw [marker, List.append_assoc, List.getElem?_append_left (by simp [length_margin])]
      exact hbar

end Text.Site

/-! ## Reports -/

namespace Error

theorem report_of_none {error : Error} {source file : String}
    (h : Text.lineAt? source.toList error.position.offset = none) :
    error.report source file =
      error.heading ++ "\n-> " ++ file ++ "\n   " ++ error.cause.detail ++ "\n" := by
  rw [report, reportRows, h]
  exact String.toList_injective (by simp)

theorem report_of_some {error : Error} {source file : String} {place : Text.LinePlace}
    {margin row marker : List Char}
    (h : Text.lineAt? source.toList error.position.offset = some place)
    (hsnippet : snippet place = [margin, row, marker]) :
    error.report source file = error.heading ++ "\n-> " ++ file ++ "\n" ++
      String.ofList margin ++ "\n" ++ String.ofList row ++ "\n" ++ String.ofList marker ++ "\n" := by
  rw [report, reportRows, h]
  dsimp only
  rw [hsnippet]
  exact String.toList_injective (by simp)

end Error

/-- A report on an error of a scan, or of the parse of what was scanned, points at the character that
the error is about. If there is such a character, it is not a blank. The last three rows show its
line, with the line's number and without the blanks at both ends of it, and the caret stands in its
column. If the error is about the end of the source, the report shows no line. This is so exactly if
the token that the error is about is the end token; the error of a scan is about a character. -/
theorem report_pointsAt {source file : String} {limits : Limits} {error : Error}
    (h : tokenize source file = .error error ∨ ∃ tokens, tokenize source file = .ok tokens ∧
      (parseWith (.ofTokens tokens file) limits).1 = .error error) :
    (error.position.offset < Text.byteSize source.toList →
      ∃ (site : Text.Site) (margin row marker : List Char),
        source.toList = site.text ∧ site.offset = error.position.offset ∧
        Text.isBlank site.char = false ∧ site.IsShownBy margin row marker ∧
        error.report source file = error.heading ++ "\n-> " ++ file ++ "\n" ++
          String.ofList margin ++ "\n" ++ String.ofList row ++ "\n" ++ String.ofList marker ++ "\n") ∧
    (Text.byteSize source.toList ≤ error.position.offset → error.report source file =
      error.heading ++ "\n-> " ++ file ++ "\n   " ++ error.cause.detail ++ "\n") ∧
    (tokenize source file = .error error →
      error.position.offset < Text.byteSize source.toList) ∧
    ∀ tokens, tokenize source file = .ok tokens → ∃ token ∈ tokens, error.Reports token ∧
      (Text.byteSize source.toList ≤ error.position.offset ↔ token.kind = .eof) := by
  have hsource : source.toList = [] ++ source.toList := rfl
  have hscan : Pointed source.toList (tokenize source file) :=
    scanFrom_pointed hsource rfl (by simp)
  have htoken : ∀ tokens, tokenize source file = .ok tokens →
      ∃ token ∈ tokens, error.Reports token ∧ token.StandsIn source.toList := by
    intro tokens htokens
    rw [htokens] at h hscan
    rcases h with h | ⟨tokens', h, herror⟩ <;> cases h
    obtain ⟨front, final, rfl, hfinal, -⟩ := exists_append_eof_of_tokenize htokens
    obtain ⟨token, hmem, hreports⟩ := parseWith_reports hfinal herror
    exact ⟨token, hmem, hreports, hscan token hmem⟩
  have hvisible : error.position.offset < Text.byteSize source.toList →
      Text.VisibleAt source.toList error.position.offset := by
    intro hlt
    rcases h with h | ⟨tokens, h, -⟩
    · rw [h] at hscan
      exact hscan
    · obtain ⟨token, -, hreports, hstands⟩ := htoken tokens h
      rw [hreports.1] at hlt ⊢
      cases hstands with
      | word _ hvisible => exact hvisible
      | last _ hoffset => exact absurd hoffset (Nat.ne_of_lt hlt)
  refine ⟨fun hlt => ?_, fun hle => Error.report_of_none (Text.lineAt?_eq_none hle), ?_, ?_⟩
  · obtain ⟨site, htext, hoffset, hblank⟩ := hvisible hlt
    have hline := site.lineAt?_eq (site.char_ne_lineFeed hblank)
    rw [← htext, hoffset] at hline
    exact ⟨site, _, _, _, htext, hoffset, hblank, site.isShownBy hblank,
      Error.report_of_some hline (site.snippet_eq hblank)⟩
  · intro herror
    rw [herror] at hscan
    exact hscan.lt
  · intro tokens htokens
    obtain ⟨token, hmem, hreports, hstands⟩ := htoken tokens htokens
    exact ⟨token, hmem, hreports, hreports.1 ▸ hstands.le_iff⟩

/-- A sharp after a string, on an indented line. -/
theorem report_pointsAt_sharp :
    tokenize "x\n\t\"é\" #" "a" = .error ⟨.unrecognisedToken "#", ⟨8, "a"⟩⟩ ∧
      ∃ (site : Text.Site) (margin row marker : List Char),
        "x\n\t\"é\" #".toList = site.text ∧ site.offset = 8 ∧
        Text.isBlank site.char = false ∧ site.IsShownBy margin row marker ∧
        Error.report ⟨.unrecognisedToken "#", ⟨8, "a"⟩⟩ "x\n\t\"é\" #" "a" =
          Error.heading ⟨.unrecognisedToken "#", ⟨8, "a"⟩⟩ ++ "\n-> " ++ "a" ++ "\n" ++
            String.ofList margin ++ "\n" ++ String.ofList row ++ "\n" ++
            String.ofList marker ++ "\n" := by
  have hscan : tokenize "x\n\t\"é\" #" "a" = .error ⟨.unrecognisedToken "#", ⟨8, "a"⟩⟩ := by
    decide +kernel
  exact ⟨hscan, (@report_pointsAt _ _ {} _ (.inl hscan)).1 (by decide +kernel)⟩

example : Error.report ⟨.unrecognisedToken "#", ⟨8, "a"⟩⟩ "x\n\t\"é\" #" "a" =
    "Error: UnrecognisedToken\n-> a\n  |\n2 | \"é\" #\n  | ----^\n" := by
  decide +kernel

end FrappeSyntax
