import SableFrontend.Diagnostic.Rendering
import SableFrontend.Proofs.Diagnostic.Lines
import SableFrontend.Proofs.Placement.Spans
import SableFrontend.Proofs.Token.Positions

/-!
What a rendered diagnostic shows of its source. A label names a line and a column by newline
characters, and below it stand a line as people are shown it, and carets. These are the line that the
label names, and carets under the characters of its span on that line, as long as no other line break
stands in the text up to there (`Diagnostic.excerpt_of_parseSource`).
-/

namespace SableFrontend

open Text

/-! ### Spans on their first line -/

/-- The characters of a span on the line that it starts on. If that line ends within the span, the
carriage return in front of its end is left out. -/
def Span.onFirstLine (span : Span) (text : List Char) : List Char :=
  if '\n' ∈ span.slice text then withoutReturn ((span.slice text).takeWhile (· != '\n'))
  else span.slice text

/-- A span of a text: its lines and columns are those of its offsets, but for the end of a line break,
which is on the line that it ends. -/
structure Span.PointsInto (text : List Char) (span : Span) : Prop where
  nonneg : 0 ≤ span.start
  le : span.start ≤ span.stop
  stop_le : span.stop ≤ text.length
  starts : HasPlace text span.start.toNat span.startLine span.startColumn
  stops : HasPlace text span.stop.toNat span.endLine span.endColumn ∨
    span.slice text = ['\n'] ∧ span.endLine = span.startLine ∧ span.endColumn = span.startColumn + 1

namespace Text

variable {text : List Char} {offset start start' : Nat}

theorem StartsLine.eq (h : StartsLine text offset start) (h' : StartsLine text offset start') :
    start = start' := by
  have hle : ∀ {start start' : Nat}, StartsLine text offset start →
      StartsLine text offset start' → start' ≤ start := by
    intro start start' h h'
    refine Nat.le_of_not_lt fun hlt => ?_
    rcases h'.behind_break with rfl | hbreak
    · exact Nat.not_lt_zero _ hlt
    · exact h.unbroken (start' - 1) (by omega) (by have := h'.le; omega) hbreak
  exact Nat.le_antisymm (hle h' h) (hle h h')

/-- No newline character stands between the start of a line and an offset on it. -/
theorem StartsLine.not_mem (h : StartsLine text offset start) :
    '\n' ∉ (text.drop start).take (offset - start) := by
  intro hmem
  obtain ⟨k, hlt, hget⟩ := List.mem_iff_getElem.1 hmem
  rw [List.getElem_take, List.getElem_drop] at hget
  rw [List.length_take, List.length_drop] at hlt
  refine h.unbroken (start + k) (Nat.le_add_right _ _) (by omega) ?_
  rw [List.getElem?_eq_getElem (by omega), hget]

/-- The line that an offset is on, by its number: what stands behind its start. -/
theorem StartsLine.newlineLine?_eq (h : StartsLine text offset start) :
    newlineLine? text ((text.take offset).count '\n') =
      some (withoutReturn ((text.drop start).takeWhile (· != '\n'))) := by
  have hcount : (text.take offset).count '\n' = (text.take start).count '\n' := by
    have hsplit : offset = start + (offset - start) := by have := h.le; omega
    rw [hsplit, List.take_add, List.count_append, List.count_eq_zero.2 h.not_mem, Nat.add_zero]
  have hbehind : text.take start = [] ∨ (text.take start).getLast? = some '\n' := by
    rcases h.behind_break with rfl | hbreak
    · exact Or.inl List.take_zero
    · by_cases hzero : start = 0
      · exact Or.inl (by rw [hzero, List.take_zero])
      · right
        have hlast := h.le
        rw [List.getLast?_take, if_neg hzero, hbreak]
        rfl
  have hline := getElem?_splitOn hbehind (text.drop start)
  rw [List.take_append_drop, ← hcount] at hline
  rw [newlineLine?, hline]
  rfl

/-- A line goes on where no newline character stands. -/
theorem StartsLine.add (h : StartsLine text offset start) {count : Nat}
    (hnot : '\n' ∉ (text.drop offset).take count) : StartsLine text (offset + count) start := by
  refine ⟨Nat.le_add_right_of_le h.le, h.behind_break, fun k hle hlt hbreak => ?_⟩
  by_cases hbefore : k < offset
  · exact h.unbroken k hle hbefore hbreak
  · refine hnot (List.mem_of_getElem? (i := k - offset) ?_)
    rw [List.getElem?_take_of_lt (by omega), List.getElem?_drop, Nat.add_sub_of_le (by omega), hbreak]

end Text

/-- The carets are as many as the characters of the span on the line that it starts on. -/
theorem Span.PointsInto.caretCount_eq {span : Span} {text line : List Char} (h : span.PointsInto text)
    (hline : newlineLine? text (span.startLine - 1).toNat = some line) :
    Diagnostic.caretCount span line = max 1 (span.onFirstLine text).length := by
  obtain ⟨hstart, start, hstarts, hcolumn⟩ := h.starts
  have hnonneg := h.nonneg
  have hle := h.le
  have hstop := h.stop_le
  rcases h.stops with ⟨hend, start', hstops, hcolumn'⟩ | ⟨hslice, hsame, hnext⟩
  · have hoffset : span.stop.toNat = span.start.toNat + (span.stop - span.start).toNat := by omega
    have hcount : (text.take span.stop.toNat).count '\n' =
        (text.take span.start.toNat).count '\n' + (span.slice text).count '\n' := by
      rw [hoffset, List.take_add, List.count_append]
      rfl
    by_cases hmem : '\n' ∈ span.slice text
    · -- the span goes on behind its first line
      have hpos := List.count_pos_iff.2 hmem
      rw [Diagnostic.caretCount, if_neg (by omega), Span.onFirstLine, if_pos hmem, Span.slice,
        takeWhile_take hmem]
      have hnumber : (span.startLine - 1).toNat = (text.take span.start.toNat).count '\n' := by omega
      rw [hnumber, hstarts.newlineLine?_eq] at hline
      have hsplit : text.drop start =
          (text.drop start).take (span.start.toNat - start) ++ text.drop span.start.toNat := by
        have hfront := hstarts.le
        rw [← Nat.add_sub_of_le hfront, ← List.drop_drop, Nat.add_sub_of_le hfront]
        exact (List.take_append_drop _ _).symm
      have hfront : ((text.drop start).take (span.start.toNat - start)).length =
          span.start.toNat - start := by
        rw [List.length_take, List.length_drop]
        omega
      have hkeeps : ∀ c ∈ (text.drop start).take (span.start.toNat - start), (c != '\n') = true :=
        fun c hc => bne_iff_ne.2 fun heq => hstarts.not_mem (heq ▸ hc)
      rw [hsplit, List.takeWhile_append_of_pos hkeeps] at hline
      have hlength := length_withoutReturn_append ((text.drop start).take (span.start.toNat - start))
        ((text.drop span.start.toNat).takeWhile (· != '\n'))
      rw [Option.some.inj hline, hfront] at hlength
      have hfrom := hstarts.le
      omega
    · have hzero := List.count_eq_zero.2 hmem
      have hsame : start' = start := hstops.eq (hoffset ▸ hstarts.add hmem)
      rw [Diagnostic.caretCount, if_pos (by omega), Span.onFirstLine, if_neg hmem, Span.slice,
        List.length_take, List.length_drop]
      omega
  · have hone : (span.startColumn + 1 - span.startColumn).toNat = 1 := by omega
    rw [Diagnostic.caretCount, if_pos hsame.symm, Span.onFirstLine, hslice, hnext, hone]
    rfl

/-! ### What labels point at -/

theorem Span.Agrees.pointsInto {text : List Char} {isBreak : Bool} {span : Span}
    (h : span.Agrees text isBreak) (hbreak : isBreak = true → span.slice text = ['\n']) :
    span.PointsInto text where
  nonneg := h.nonneg
  le := h.le
  stop_le := h.stop_le
  starts := h.starts
  stops := by
    cases isBreak with
    | false => exact Or.inl (h.stops rfl)
    | true => exact Or.inr ⟨hbreak rfl, h.stays rfl⟩

namespace LexState

variable {file : String} {text left shown : List Char} {state next last : LexState}

theorem spanOf_file (state : LexState) (lexeme : Lexeme) (shown : List Char) :
    (state.spanOf file lexeme shown).file = file := by
  cases lexeme <;> rfl

/-- A token is one of the file, and a line break takes up a newline character. -/
theorem step_file {first : Char} {rest : List Char} {extra : Nat}
    (hstep : state.step file first rest = .ok (next, extra)) (hreads : Reads text state (first :: rest))
    (h : ∀ token ∈ state.tokens, token.span.file = file ∧
      (token.kind = .newline → token.span.slice text = ['\n'])) :
    ∀ token ∈ next.tokens, token.span.file = file ∧
      (token.kind = .newline → token.span.slice text = ['\n']) := by
  obtain ⟨lexeme, recorded, hscan, hrecords, rfl⟩ := step_eq_ok hstep
  have hsplit : text.drop state.position.offset = (first :: rest.take extra) ++ rest.drop extra := by
    rw [← hreads.left_eq, List.cons_append, List.take_append_drop]
  have hslice : (state.spanOf file lexeme (first :: rest.take extra)).slice text = _ :=
    slice_spanOf state lexeme hsplit
  have hpush : ∀ {kind : TokenKind} {value : String}, (kind = .newline → lexeme = .lineBreak) →
      ∀ token ∈ state.tokens.push ⟨kind, value, state.spanOf file lexeme (first :: rest.take extra)⟩,
        token.span.file = file ∧ (token.kind = .newline → token.span.slice text = ['\n']) := by
    intro kind value hkind token hmem
    rcases Array.mem_push.1 hmem with hold | rfl
    · exact h token hold
    · refine ⟨spanOf_file state lexeme _, fun hnewline => ?_⟩
      have hshows := Lexeme.scan_shows hscan
      rw [hslice]
      rwa [show lexeme = .lineBreak from hkind hnewline] at hshows
  cases hrecords with
  | skipped => exact h
  | newline hlexeme => exact hpush fun _ => hlexeme
  | token kind value hlexeme =>
    refine hpush fun hkind => Lexeme.eq_lineBreak_of_isBreak hscan ?_
    rw [hlexeme, hkind]
    rfl
  | opener | closer => exact hpush TokenKind.noConfusion

theorem Turns.file_eq {count : Nat} (h : Turns file count initial text last left) :
    ∀ token ∈ last.tokens, token.span.file = file ∧
      (token.kind = .newline → token.span.slice text = ['\n']) := by
  have hboth : Reads text last left ∧ ∀ token ∈ last.tokens, token.span.file = file ∧
      (token.kind = .newline → token.span.slice text = ['\n']) := by
    refine h.invariant (motive := fun state left => Reads text state left ∧
        ∀ token ∈ state.tokens, token.span.file = file ∧
          (token.kind = .newline → token.span.slice text = ['\n']))
      (fun _ _ _ _ _ hstep ⟨hreads, hfile⟩ =>
        ⟨step_reads hstep hreads, step_file hstep hreads hfile⟩) ⟨⟨rfl, ?_⟩, ?_⟩
    · exact fun token hmem => absurd hmem (Array.not_mem_empty token)
    · exact fun token hmem => absurd hmem (Array.not_mem_empty token)
  exact hboth.2

end LexState

/-- The tokens of a text, and the fault that ends the reading, are places of the text in the file. -/
theorem LexRun.pointsInto (text file : String) :
    (∀ token ∈ (ofText text file).tokens,
      token.span.file = file ∧ token.span.PointsInto text.toList) ∧
    ∀ error, (ofText text file).error? = some error →
      error.span.file = file ∧ error.span.PointsInto text.toList := by
  obtain ⟨hagrees, -, herror⟩ := agrees_ofText text file
  obtain ⟨count, last, left, hturns, hends⟩ := ofText_ends text file
  have hfile := hturns.file_eq
  generalize ofText text file = run at hends hagrees herror ⊢
  have htoken : ∀ token ∈ last.tokens, token ∈ run.tokens →
      token.span.file = file ∧ token.span.PointsInto text.toList := fun token hmem hrun =>
    ⟨(hfile token hmem).1, (hagrees token hrun).pointsInto fun hbreak =>
      (hfile token hmem).2 (beq_iff_eq.1 hbreak)⟩
  cases hends with
  | settled =>
    refine ⟨fun token hmem => ?_, fun error hsome => by cases hsome⟩
    rcases Array.mem_push.1 hmem with hold | rfl
    · exact htoken token hold hmem
    · exact ⟨rfl, (hagrees _ hmem).pointsInto fun hbreak => by cases hbreak⟩
  | unclosed innermost outer hopened =>
    refine ⟨fun token hmem => htoken token hmem hmem, fun error hsome => ?_⟩
    refine ⟨?_, (herror error hsome).pointsInto Bool.noConfusion⟩
    cases hsome
    -- the fault is where the innermost delimiter was opened
    have hopen := hturns.delimited.tokens_eq
    rw [hopened, List.map_cons] at hopen
    have hmem : innermost.token ∈ openTokens last.tokens.toList := by
      rw [← hopen]
      exact List.mem_cons_self
    exact (hfile innermost.token (Array.mem_toList_iff.1 (mem_of_mem_openTokens hmem))).1
  | fault hstep =>
    refine ⟨fun token hmem => htoken token hmem hmem, fun error hsome => ?_⟩
    refine ⟨?_, (herror error hsome).pointsInto Bool.noConfusion⟩
    cases hsome
    unfold LexState.step at hstep
    split at hstep
    · dsimp only at hstep
      split at hstep
      · cases hstep
      · next hrecord =>
        cases hstep
        rw [LexState.record_error_span hrecord, LexState.spanOf_file]
    · cases hstep
      rfl

/-- Whatever is reported about a source points into its text. -/
theorem pointsInto_of_parseSource {text file : String} {result : ParseResult}
    (h : parseSource text file = .ok result) {diagnostic : Diagnostic}
    (hmem : diagnostic ∈ result.diagnostics) {label : Label} (hlabel : label ∈ diagnostic.labels) :
    label.span.file = file ∧ label.span.PointsInto text.toList := by
  obtain ⟨htokens, herror⟩ := LexRun.pointsInto text file
  cases hlexes : Token.ofText text file with
  | error error =>
    have hfault : (LexRun.ofText text file).error? = some error := by
      unfold Token.ofText LexRun.toExcept at hlexes
      split at hlexes
      · cases hlexes
      · next hsome =>
        cases hlexes
        exact hsome
    rw [parseSource, hlexes] at h
    cases h
    obtain rfl := List.mem_singleton.1 hmem
    obtain rfl := List.mem_singleton.1 hlabel
    exact herror error hfault
  | ok tokens =>
    obtain ⟨stream, found, final, -, -, -, -, hfound, -⟩ :=
      exists_moduleSource_of_parseSource hlexes h
    obtain ⟨set, final, hplaced, hstream, -, hreported, -⟩ :=
      exists_placed_of_parseSource h hfound
    have hmarks : set.stream.Marks label.span :=
      hplaced.marked diagnostic (Array.mem_toList_iff.1 (hreported ▸ hmem)) label hlabel
    have hrun : (LexRun.ofText text file).tokens = set.stream.tokens := by
      unfold Token.ofText LexRun.toExcept at hstream
      split at hstream
      · exact Except.ok.inj hstream
      · cases hstream
    have htoken : ∀ position, position < set.stream.size →
        (set.stream.token position).span.file = file ∧
          (set.stream.token position).span.PointsInto text.toList := by
      intro position hlt
      refine htokens _ ?_
      rw [hrun, TokenStream.token, Array.getElem?_eq_getElem hlt]
      exact Array.getElem_mem hlt
    rcases hmarks with ⟨position, hlt, heq⟩ | ⟨first, last, hspans⟩
    · rw [heq]
      exact htoken position hlt
    · refine ⟨?_, ((hspans.isIn hstream).1.agrees).pointsInto Bool.noConfusion⟩
      rw [hspans.eq, TokenStream.reach, Span.join_file]
      exact (htoken first (Nat.lt_of_le_of_lt hspans.le (Nat.lt_of_succ_lt hspans.lt))).1

/-! ### What is shown -/

namespace Diagnostic

theorem labelLines_plain {lines : LineSource} {severity : Severity} {label : Label} {line : List Char}
    (h : lines label.span.file label.span.startLine = some line) :
    labelLines false lines severity label =
      ["  --> " ++ label.span.label, "     |",
        "  " ++ gutter label.span.startLine ++ " | " ++ String.ofList line,
        "     | " ++ String.ofList (List.replicate (caretIndent label.span) ' ') ++
          String.ofList (List.replicate (caretCount label.span line) '^')] ++
        if label.message.isEmpty then [] else ["     |   " ++ label.message] := by
  have hframe : "  " ++ "   |" = "     |" := by decide
  have hcarets : "     |" ++ " " = "     | " := by decide
  have hremark : "     |" ++ "   " = "     |   " := by decide
  have harrow : "  " ++ "-->" ++ " " = "  --> " := by decide
  have hgutter : ∀ number : String, "  " ++ (number ++ " |") ++ " " = "  " ++ number ++ " | " :=
    fun number => by
      rw [String.append_assoc, String.append_assoc, String.append_assoc]
      rfl
  rw [labelLines, h, Option.elim_some, excerpt, blankFrame]
  simp only [Paint.apply_plain, hframe, hcarets, hremark, harrow, hgutter]
  rfl

theorem lineSource_eq {text file : String} {number : Nat} :
    LineSource.ofTexts [(file, .ofString text)] file ((number : Int) + 1) =
      (lines text.toList)[number]? := by
  have hindex : ((number : Int) + 1 - 1).toNat = number := by omega
  simp only [LineSource.ofTexts, List.lookup_cons, beq_self_eq_true, Option.bind_some, SourceText.line?,
    SourceText.ofString, hindex]
  exact if_pos (by omega)

/-- Below a label stand the line of the text on which its span starts, and carets. Up to that line the
lines that can be shown are those of the text if and only if no other line break stands in one of them.
If so, what is shown is the line that the label names, with carets from its column on, as many as the
span has characters on the line, and at least one. -/
theorem excerpt_of_parseSource {text file : String} {result : ParseResult}
    (h : parseSource text file = .ok result) {diagnostic : Diagnostic}
    (hmem : diagnostic ∈ result.diagnostics) {label : Label} (hlabel : label ∈ diagnostic.labels) :
    label.span.PointsInto text.toList ∧
    ∃ number column : Nat, label.span.startLine = number + 1 ∧ label.span.startColumn = column + 1 ∧
      ((∀ before ≤ number, ∀ line,
          LineSource.ofTexts [(file, .ofString text)] label.span.file (before + 1) = some line →
            newlineLine? text.toList before = some line) ↔
        UnbrokenLines text.toList (number + 1)) ∧
      (UnbrokenLines text.toList (number + 1) → ∀ line,
        LineSource.ofTexts [(file, .ofString text)] label.span.file label.span.startLine = some line →
          newlineLine? text.toList number = some line ∧
          labelLines false (.ofTexts [(file, .ofString text)]) diagnostic.severity label =
            ["  --> " ++ label.span.label, "     |",
              "  " ++ gutter label.span.startLine ++ " | " ++ String.ofList line,
              "     | " ++ String.ofList (List.replicate column ' ') ++ String.ofList
                (List.replicate (max 1 (label.span.onFirstLine text.toList).length) '^')] ++
              if label.message.isEmpty then [] else ["     |   " ++ label.message]) := by
  obtain ⟨hfile, hpoints⟩ := pointsInto_of_parseSource h hmem hlabel
  obtain ⟨hstart, start, hstarts, hcolumn⟩ := hpoints.starts
  have hnonneg := hpoints.nonneg
  have hle := hstarts.le
  generalize hnumber : (text.toList.take label.span.start.toNat).count '\n' = number at hstart
  have hshown : ∀ (number : Nat) (line : List Char),
      LineSource.ofTexts [(file, .ofString text)] label.span.file ((number : Int) + 1) = some line ↔
        (lines text.toList)[number]? = some line := by
    intro number line
    rw [hfile, lineSource_eq]
  have hagree := lines_agree_iff text.toList (number + 1)
  refine ⟨hpoints, number, label.span.start.toNat - start, hstart, by omega, ?_,
    fun hunbroken line hline => ?_⟩
  · rw [← hagree]
    constructor
    · exact fun h before hlt line hget => h before (Nat.le_of_lt_succ hlt) line ((hshown before line).2 hget)
    · exact fun h before hle line hget => h before (Nat.lt_succ_of_le hle) line ((hshown before line).1 hget)
  · have hget : (lines text.toList)[number]? = some line := by
      rw [hstart] at hline
      exact (hshown number line).1 hline
    have hnamed := hagree.2 hunbroken number (Nat.lt_succ_self number) line hget
    refine ⟨hnamed, ?_⟩
    have hindex : (label.span.startLine - 1).toNat = number := by omega
    have hcount : caretCount label.span line = _ := hpoints.caretCount_eq (hindex.symm ▸ hnamed)
    have hindent : caretIndent label.span = label.span.start.toNat - start := by
      rw [caretIndent]
      omega
    rw [labelLines_plain hline, hcount, hindent]

/-- Whether a diagnostic of a source has a label on the line of a number, below which this line is
shown. -/
def showsAt (text file : String) (number : Int) (line : List Char) : Bool :=
  match parseSource text file with
  | .ok result => result.diagnostics.any fun diagnostic => diagnostic.labels.any fun label =>
      label.span.startLine == number &&
        LineSource.ofTexts [(file, .ofString text)] label.span.file number == some line
  | .error _ => false

theorem exists_of_showsAt {text file : String} {number : Int} {line : List Char}
    (h : showsAt text file number line = true) :
    ∃ result diagnostic label, parseSource text file = .ok result ∧
      diagnostic ∈ result.diagnostics ∧ label ∈ diagnostic.labels ∧
      label.span.startLine = number ∧
      LineSource.ofTexts [(file, .ofString text)] label.span.file label.span.startLine = some line := by
  unfold showsAt at h
  split at h
  · next result hparse =>
    obtain ⟨diagnostic, hmem, hlabels⟩ := List.any_eq_true.1 h
    obtain ⟨label, hlabel, hboth⟩ := List.any_eq_true.1 hlabels
    rw [Bool.and_eq_true, beq_iff_eq, beq_iff_eq] at hboth
    exact ⟨result, diagnostic, label, hparse, hmem, hlabel, hboth.1, hboth.1.symm ▸ hboth.2⟩
  · cases h

/-- A carriage return in front of a newline character is part of the line end. -/
theorem exists_excerpt_of_parseSource :
    ∃ result diagnostic label, parseSource "x = 1\r\ny = = 2\r\n" "t.sbl" = .ok result ∧
      diagnostic ∈ result.diagnostics ∧ label ∈ diagnostic.labels ∧ label.span.startLine = 2 ∧
      newlineLine? "x = 1\r\ny = = 2\r\n".toList 1 = some "y = = 2".toList := by
  have hshows : showsAt "x = 1\r\ny = = 2\r\n" "t.sbl" 2 "y = = 2".toList = true := by
    decide +kernel
  obtain ⟨result, diagnostic, label, hparse, hmem, hlabel, hnumber, hline⟩ := exists_of_showsAt hshows
  obtain ⟨-, number, column, hstart, -, -, hexcerpt⟩ := excerpt_of_parseSource hparse hmem hlabel
  obtain rfl : number = 1 := by omega
  have hunbroken : UnbrokenLines "x = 1\r\ny = = 2\r\n".toList (1 + 1) := by
    unfold UnbrokenLines
    decide +kernel
  exact ⟨result, diagnostic, label, hparse, hmem, hlabel, hnumber, (hexcerpt hunbroken _ hline).1⟩

/-- Behind a form feed in a comment the lines that are shown are not those of the text: the label on
the second line, which is a closer, shows the rest of the comment. -/
theorem exists_other_line :
    ∃ result diagnostic label, parseSource "# a\x0cb\n)" "t.sbl" = .ok result ∧
      diagnostic ∈ result.diagnostics ∧ label ∈ diagnostic.labels ∧ label.span.startLine = 2 ∧
      LineSource.ofTexts [("t.sbl", .ofString "# a\x0cb\n)")] label.span.file
        label.span.startLine = some ['b'] ∧
      newlineLine? "# a\x0cb\n)".toList 1 = some [')'] := by
  obtain ⟨result, diagnostic, label, hparse, hmem, hlabel, hnumber, hline⟩ :=
    exists_of_showsAt (show showsAt "# a\x0cb\n)" "t.sbl" 2 ['b'] = true by decide +kernel)
  exact ⟨result, diagnostic, label, hparse, hmem, hlabel, hnumber, hline, by decide +kernel⟩

end Diagnostic

end SableFrontend
