import SableFrontend.Proofs.Token.Tiling

/-!
The line breaks of a text. A line break is a lexeme of its own everywhere but inside a block comment
(`Lexeme.eq_lineBreak_of_mem`); it is a token or is passed over, depending on the innermost
delimiter that is open in front of it. `LexState.Breaks` carries this along a run: the delimiters in
front of an offset do not change any more once reading has come past it.
-/

namespace SableFrontend

/-! ### Line breaks within lexemes -/

namespace Lexeme

theorem break_not_mem_takeWhile {isMember : Char → Bool} (hbreak : isMember '\n' = false)
    (text : List Char) : '\n' ∉ text.takeWhile isMember := by
  intro hmem
  have hall := List.all_eq_true.1 List.all_takeWhile '\n' hmem
  rw [hbreak] at hall
  cases hall

theorem simpleEscape?_break : simpleEscape? '\n' = none := by decide

theorem scanCodePoint_eq_ok {before : Nat} {text : List Char} {denoted : Char} {length : Nat}
    (h : scanCodePoint before text = .ok (denoted, length)) : '\n' ∉ text.take length := by
  unfold scanCodePoint at h
  dsimp only at h
  split at h
  · cases h
  · next hshape =>
    split at h
    · cases h
      simp only [Bool.or_eq_true, bne_iff_ne, ne_eq, decide_eq_true_eq, not_or,
        Decidable.not_not] at hshape
      obtain ⟨⟨hbrace, -⟩, -⟩ := hshape
      rw [List.take_add, take_takeWhile_length, List.take_one, hbrace]
      simp only [List.mem_append, not_or]
      exact ⟨break_not_mem_takeWhile (by decide) text, by decide⟩
    · cases h

/-- No escape contains a line break. -/
theorem scanEscape_eq_ok {before : Nat} {rest : List Char} {denoted : Char} {length : Nat}
    (h : scanEscape before rest = .ok (denoted, length)) : '\n' ∉ rest.take length := by
  unfold scanEscape at h
  split at h
  · cases h
  · next c more =>
    split at h
    · cases h
    · next hbreak =>
      have hc : '\n' ≠ c := fun heq => hbreak (by simp [← heq])
      split at h
      · cases h
        simp [hc]
      · split at h
        · next hunicode =>
          cases hcode : scanCodePoint before (more.drop 1) with
          | error fault =>
            rw [hcode] at h
            cases h
          | ok found =>
            rw [hcode] at h
            cases h
            have hrest := scanCodePoint_eq_ok hcode
            have hbrace : more.take 1 = ['\x7b'] := by
              simp only [Bool.and_eq_true, beq_iff_eq] at hunicode
              rw [List.take_one, hunicode.2]
              rfl
            rw [show found.2 + 2 = (1 + found.2) + 1 by omega, List.take_succ_cons, List.take_add,
              hbrace]
            simp only [List.drop_one] at hrest ⊢
            simp [hc, hrest]
        · cases h

/-- No string literal contains one. -/
theorem scanTextFrom_eq_ok {read : Nat} {rest : List Char} {text : List Char} {whole : Nat}
    (h : scanTextFrom read rest = .ok (text, whole)) :
    read < whole ∧ '\n' ∉ rest.take (whole - read) := by
  fun_induction scanTextFrom read rest generalizing text whole with
  | case1 => cases h
  | case2 => cases h
  | case3 read c more hbreak hquote =>
    cases h
    have hc : '\n' ≠ c := fun heq => hbreak (by simp [← heq])
    simp [hc]
  | case4 read c more hbreak hquote hescape ih =>
    have hc : '\n' ≠ c := fun heq => hbreak (by simp [← heq])
    obtain ⟨⟨denoted, length⟩, hdenoted, h⟩ := exists_of_bind_eq_ok h
    obtain ⟨⟨inner, _⟩, hinner, h⟩ := exists_of_bind_eq_ok h
    cases h
    obtain ⟨hlt, hrest⟩ := ih _ hinner
    have hfirst := scanEscape_eq_ok hdenoted
    refine ⟨by omega, ?_⟩
    rw [show whole - read = (length + (whole - (read + 1 + length))) + 1 by omega,
      List.take_succ_cons, List.take_add]
    simp [hc, hfirst, hrest]
  | case5 read c more hbreak hquote hescape ih =>
    have hc : '\n' ≠ c := fun heq => hbreak (by simp [← heq])
    obtain ⟨⟨inner, _⟩, hinner, h⟩ := exists_of_bind_eq_ok h
    cases h
    obtain ⟨hlt, hrest⟩ := ih hinner
    refine ⟨by omega, ?_⟩
    rw [show whole - read = (whole - (read + 1)) + 1 by omega, List.take_succ_cons]
    simp [hc, hrest]

theorem scanText_eq_ok {rest : List Char} {scanned : ScannedLexeme}
    (h : scanText rest = .ok scanned) : '\n' ∉ rest.take scanned.extra := by
  obtain ⟨⟨text, whole⟩, hread, h⟩ := exists_of_bind_eq_ok h
  cases h
  exact (scanTextFrom_eq_ok hread).2

theorem closeCharacter_eq_ok {c : Char} {read : Nat} {rest : List Char} {scanned : ScannedLexeme}
    (h : closeCharacter c read rest = .ok scanned) :
    scanned.extra = read ∧ rest.head? = some '\'' := by
  unfold closeCharacter at h
  split at h
  · next hquote =>
    cases h
    exact ⟨rfl, beq_iff_eq.1 hquote⟩
  · cases h

theorem scanCharacter_eq_ok {rest : List Char} {scanned : ScannedLexeme}
    (h : scanCharacter rest = .ok scanned) : '\n' ∉ rest.take scanned.extra := by
  unfold scanCharacter at h
  split at h
  · cases h
  · next c more =>
    split at h
    · cases h
    · next hbreak =>
      have hc : '\n' ≠ c := fun heq => hbreak (by simp [← heq])
      split at h
      · cases h
      · split at h
        · obtain ⟨⟨denoted, length⟩, hescape, h⟩ := exists_of_bind_eq_ok h
          obtain ⟨hextra, hquote⟩ := closeCharacter_eq_ok h
          have hrest := scanEscape_eq_ok hescape
          rw [hextra, List.take_succ_cons, List.take_add, List.take_one, hquote]
          simp [hc, hrest]
        · obtain ⟨hextra, hquote⟩ := closeCharacter_eq_ok h
          rw [hextra, List.take_succ_cons, List.take_one, hquote]
          simp [hc]

end Lexeme

namespace Numeral

theorem IsGroup.break_not_mem {isDigit : Char → Bool} {group : List Char}
    (h : IsGroup isDigit group) (hbreak : isDigit '\n' = false) : '\n' ∉ group := by
  intro hmem
  rcases h.members _ hmem with hdigit | hscore
  · rw [hbreak] at hdigit
    cases hdigit
  · exact absurd hscore (by decide)

theorem IsFraction.break_not_mem {text : List Char} (h : IsFraction text) : '\n' ∉ text := by
  cases h with
  | point hgroup => simp [hgroup.break_not_mem (by decide)]

theorem IsExponent.break_not_mem {text : List Char} (h : IsExponent text) : '\n' ∉ text := by
  cases h with
  | plain hletter hgroup => rcases hletter with rfl | rfl <;> simp [hgroup.break_not_mem (by decide)]
  | signed hletter hsign hgroup =>
    rcases hletter with rfl | rfl <;> rcases hsign with rfl | rfl <;>
      simp [hgroup.break_not_mem (by decide)]

theorem Spells.break_not_mem {kind : LiteralKind} {text : List Char} (h : Spells kind text) :
    '\n' ∉ text := by
  cases h with
  | decimal hgroup => exact hgroup.break_not_mem (by decide)
  | @radix letter radix hletter group hgroup =>
    have hgroup := hgroup.break_not_mem (by cases radix <;> decide)
    have hne : '\n' ≠ letter := by
      rintro rfl
      rw [show Radix.ofLetter? '\n' = none by decide] at hletter
      cases hletter
    simp [hne, hgroup]
  | fraction hwhole hfraction =>
    simp [hwhole.break_not_mem (by decide), hfraction.break_not_mem]
  | exponent hwhole hexponent =>
    simp [hwhole.break_not_mem (by decide), hexponent.break_not_mem]
  | both hwhole hfraction hexponent =>
    simp [hwhole.break_not_mem (by decide), hfraction.break_not_mem, hexponent.break_not_mem]

theorem Spells.isQuoted_eq_false {kind : LiteralKind} {text : List Char} (h : Spells kind text) :
    (TokenKind.literal kind).isQuoted = false := by
  cases h <;> rfl

end Numeral

namespace Lexeme

theorem scanRun_break_not_mem {isMember : Char → Bool} {first : Char} {rest : List Char}
    {lexemeOf : List Char → Lexeme} (hbreak : isMember '\n' = false) (hfirst : first ≠ '\n') :
    '\n' ∉ first :: rest.take (scanRun isMember first rest lexemeOf).extra := by
  rw [scanRun, take_takeWhile_length]
  simp [Ne.symm hfirst, break_not_mem_takeWhile hbreak]

/-- A line break belongs to a lexeme only if it is one, or stands in a block comment. -/
theorem eq_lineBreak_of_mem {first : Char} {rest : List Char} {scanned : ScannedLexeme}
    (h : scan first rest = .ok scanned) (hmem : '\n' ∈ first :: rest.take scanned.extra) :
    scanned.lexeme = .lineBreak ∨ scanned.lexeme = .trivia .blockComment := by
  have hshows := scan_shows h
  unfold scan at h
  split at h
  · cases h
    exact Or.inl rfl
  · next hfirst =>
    have hfirst : first ≠ '\n' := by simpa using hfirst
    have hrest : '\n' ∈ rest.take scanned.extra :=
      (List.mem_cons.1 hmem).resolve_left (Ne.symm hfirst)
    split at h
    · cases h
      exact absurd hmem (scanRun_break_not_mem (by decide) hfirst)
    · split at h
      · unfold scanComment at h
        split at h
        · split at h
          · cases h
            exact Or.inr rfl
          · cases h
        · cases h
          rw [take_takeWhile_length] at hrest
          exact absurd hrest (break_not_mem_takeWhile (by decide) rest)
      · split at h
        · exact absurd hrest (scanText_eq_ok h)
        · split at h
          · exact absurd hrest (scanCharacter_eq_ok h)
          · split at h
            · next hdigit =>
              obtain ⟨shape, hread, heq⟩ := exists_of_bind_eq_ok h
              cases heq
              obtain ⟨_, _, -, -, hnumber⟩ := Numeral.read_spells (by simpa using hdigit) hread
              rcases hshows.2.2 shape.kind rfl with hquoted | hspells
              · rw [hnumber.isQuoted_eq_false] at hquoted
                cases hquoted
              · exact absurd hmem hspells.break_not_mem
            · split at h
              · cases h
                exact absurd hmem (scanRun_break_not_mem (by decide) hfirst)
              · split at h
                · cases h
                  exact absurd hmem (scanRun_break_not_mem (by decide) hfirst)
                · unfold scanMark at h
                  split at h
                  all_goals cases h
                  all_goals simp at hrest

end Lexeme

/-! ### What becomes of a line break -/

/-- The comments among the trivia. -/
def TriviaKind.isComment : TriviaKind → Bool
  | comment | blockComment => true
  | blank | newline => false

/-- The span takes up the character at an offset. -/
def Span.Holds (span : Span) (offset : Nat) : Prop :=
  span.start ≤ (offset : Int) ∧ (offset : Int) < span.stop

/-- The span takes up the character at an offset and no other. -/
def Span.IsAt (span : Span) (offset : Nat) : Prop :=
  span.start = (offset : Int) ∧ span.stop = (offset : Int) + 1

/-- The delimiters that the tokens in front of an offset leave open, the innermost first. -/
def openedBefore (tokens : List Token) (offset : Nat) : List Bracket :=
  openBrackets ((tokens.filter fun token => decide (token.span.start < (offset : Int))).map Token.kind)

/-- A line break stands in a comment, or it is a token or passed over: a token outside of all
delimiters and where the innermost one keeps line breaks. -/
def RecordsBreak (tokens : List Token) (trivia : List Trivia) (offset : Nat) : Prop :=
  (∃ comment ∈ trivia, comment.kind.isComment = true ∧ comment.span.Holds offset) ∨
    if (openedBefore tokens offset).head?.all Bracket.keepsNewlines then
      ∃ token ∈ tokens, token.kind = .newline ∧ token.span.IsAt offset
    else ∃ blank ∈ trivia, blank.kind = .newline ∧ blank.span.IsAt offset

/-- Tokens that start at an offset or behind it open nothing in front of it. -/
theorem openedBefore_append {tokens added : List Token} {offset : Nat}
    (hadded : ∀ token ∈ added, (offset : Int) ≤ token.span.start) :
    openedBefore (tokens ++ added) offset = openedBefore tokens offset := by
  have hnone : (added.filter fun token => decide (token.span.start < (offset : Int))) = [] := by
    rw [List.filter_eq_nil_iff]
    intro token hmem hlt
    have hle := hadded token hmem
    simp only [decide_eq_true_eq] at hlt
    omega
  rw [openedBefore, openedBefore, List.filter_append, hnone, List.append_nil]

theorem openedBefore_eq {tokens : List Token} {offset : Nat}
    (htokens : ∀ token ∈ tokens, token.span.start < (offset : Int)) :
    openedBefore tokens offset = openBrackets (tokens.map Token.kind) := by
  rw [openedBefore, List.filter_eq_self.2 fun token hmem => decide_eq_true (htokens token hmem)]

/-- What has become of a line break stays, whatever is read behind it. -/
theorem RecordsBreak.append {tokens added : List Token} {trivia more : List Trivia} {offset : Nat}
    (h : RecordsBreak tokens trivia offset)
    (hadded : ∀ token ∈ added, (offset : Int) ≤ token.span.start) :
    RecordsBreak (tokens ++ added) (trivia ++ more) offset := by
  rcases h with ⟨comment, hmem, hcomment⟩ | h
  · exact Or.inl ⟨comment, List.mem_append_left _ hmem, hcomment⟩
  · right
    rw [openedBefore_append hadded]
    split at h
    · next hkeeps =>
      obtain ⟨token, hmem, htoken⟩ := h
      rw [if_pos hkeeps]
      exact ⟨token, List.mem_append_left _ hmem, htoken⟩
    · next hkeeps =>
      obtain ⟨blank, hmem, hblank⟩ := h
      rw [if_neg hkeeps]
      exact ⟨blank, List.mem_append_left _ hmem, hblank⟩

namespace LexState

variable {file : String}

/-- The line breaks of the text in front of the place that reading has come to are accounted for. -/
structure Breaks (text : List Char) (state : LexState) (left : List Char) : Prop where
  left_eq : left = text.drop state.position.offset
  delimited : state.Delimited
  starts_lt : ∀ token ∈ state.tokens.toList, token.span.start < state.position.offset
  recorded : ∀ offset < state.position.offset, text[offset]? = some '\n' →
    RecordsBreak state.tokens.toList state.trivia.toList offset

/-- A turn adds to what has been found, at the span of its lexeme. -/
theorem Records.exists_added {state recorded : LexState} {lexeme : Lexeme} {span : Span}
    (h : state.Records lexeme span recorded) :
    ∃ added more, recorded.tokens.toList = state.tokens.toList ++ added ∧
      recorded.trivia.toList = state.trivia.toList ++ more ∧ ∀ token ∈ added, token.span = span := by
  rcases h.push_or_skip with ⟨token, htokens, hspan, htrivia⟩ | ⟨htokens, kind, htrivia⟩
  · exact ⟨[token], [], by simp [htokens], by simp [htrivia], by simp [hspan]⟩
  · exact ⟨[], [{ kind := kind, span := span }], by simp [htokens], by simp [htrivia], by simp⟩

/-- A line break that is read goes where the delimiters around it say. -/
theorem Records.recordsBreak {state recorded : LexState} {span : Span} {offset : Nat}
    (hrecords : state.Records .lineBreak span recorded) (hspan : span.IsAt offset)
    (hdelimited : state.Delimited)
    (hstarts : ∀ token ∈ state.tokens.toList, token.span.start < (offset : Int)) :
    RecordsBreak recorded.tokens.toList recorded.trivia.toList offset := by
  have hopened : openedBefore state.tokens.toList offset = state.brackets := by
    rw [openedBefore_eq hstarts, ← hdelimited.brackets_eq]
    rfl
  generalize hlexeme : Lexeme.lineBreak = lexeme at hrecords
  right
  cases hrecords with
  | skipped kind hskipped =>
    obtain ⟨rfl, hsignificant⟩ : kind = .newline ∧ state.newlineSignificant = false := by
      rcases hskipped with htrivia | ⟨-, hkind⟩
      · cases hlexeme.trans htrivia
      · exact hkind
    rw [newlineSignificant_eq] at hsignificant
    rw [skip, hopened, if_neg (by simp [hsignificant])]
    exact ⟨{ kind := .newline, span := span }, by simp, rfl, hspan⟩
  | newline _ hsignificant =>
    rw [newlineSignificant_eq] at hsignificant
    rw [push, Array.toList_push, openedBefore_append (by simp [hspan.1]), hopened,
      if_pos hsignificant]
    exact ⟨{ kind := .newline, value := "\n", span := span }, by simp, rfl, hspan⟩
  | token kind value htoken => cases hlexeme.trans htoken
  | opener bracket hopener => cases hlexeme.trans hopener
  | closer innermost outer _ hcloser => cases hlexeme.trans hcloser

theorem step_breaks {text : List Char} {state next : LexState} {first : Char} {rest : List Char}
    {extra : Nat} (hstep : state.step file first rest = .ok (next, extra))
    (h : Breaks text state (first :: rest)) : Breaks text next (rest.drop extra) := by
  have hnext := step_delimited hstep h.delimited
  obtain ⟨lexeme, recorded, hscan, hrecords, rfl⟩ := step_eq_ok hstep
  have hsplit : text.drop state.position.offset =
      (first :: rest.take extra) ++ rest.drop extra := by
    rw [← h.left_eq, List.cons_append, List.take_append_drop]
  have hstart : (state.spanOf file lexeme (first :: rest.take extra)).start =
      state.position.offset := spanOf_start ..
  have hstop : (state.spanOf file lexeme (first :: rest.take extra)).stop =
      state.position.offset + (first :: rest.take extra).length := spanOf_stop ..
  obtain ⟨added, more, htokens, htrivia, hadded⟩ := hrecords.exists_added
  refine ⟨?_, hnext, fun token hmem => ?_, fun offset hlt hbreak => ?_⟩
  · rw [Position.after_offset, ← List.drop_drop, hsplit, List.drop_left]
  · rw [htokens] at hmem
    rw [Position.after_offset, Int.natCast_add]
    rcases List.mem_append.1 hmem with hold | hnew
    · have hbefore := h.starts_lt token hold
      omega
    · rw [hadded token hnew, hstart, List.length_cons]
      omega
  rcases Nat.lt_or_ge offset state.position.offset with hbefore | hge
  · rw [htokens, htrivia]
    refine (h.recorded offset hbefore hbreak).append fun token hmem => ?_
    rw [hadded token hmem, hstart]
    omega
  -- the line break belongs to the lexeme that is read in this turn
  rw [Position.after_offset] at hlt
  have hchar : (first :: rest.take extra)[offset - state.position.offset]? = some '\n' := by
    have hdrop := congrArg (·[offset - state.position.offset]?) hsplit
    simp only [List.getElem?_drop] at hdrop
    rw [Nat.add_sub_cancel' hge, hbreak, List.getElem?_append_left (by omega)] at hdrop
    exact hdrop.symm
  rcases Lexeme.eq_lineBreak_of_mem hscan (List.mem_of_getElem? hchar) with hlexeme | hlexeme
  · have hlexeme : lexeme = .lineBreak := hlexeme
    subst hlexeme
    have hshown : first :: rest.take extra = ['\n'] := Lexeme.scan_shows hscan
    rw [hshown] at hlt hstart hstop
    obtain rfl : offset = state.position.offset := by
      rw [List.length_singleton] at hlt
      omega
    rw [hshown] at hrecords
    exact hrecords.recordsBreak ⟨hstart, hstop⟩ h.delimited h.starts_lt
  · have hlexeme : lexeme = .trivia .blockComment := hlexeme
    subst hlexeme
    generalize hkind : Lexeme.trivia .blockComment = lexeme at hrecords
    cases hrecords with
    | skipped kind hskipped =>
      obtain rfl : kind = .blockComment := by
        rcases hskipped with htrivia | ⟨hnewline, -⟩
        · exact (Lexeme.trivia.inj (hkind.trans htrivia)).symm
        · cases hkind.trans hnewline
      rw [← hkind] at *
      refine Or.inl ⟨_, Array.mem_toList_iff.2 Array.mem_push_self, rfl, ?_⟩
      rw [Span.Holds, hstart, hstop]
      omega
    | newline hnewline => cases hkind.trans hnewline
    | token kind value htoken => cases hkind.trans htoken
    | opener bracket hopener => cases hkind.trans hopener
    | closer innermost outer _ hcloser => cases hkind.trans hcloser

/-- Every line break in front of the place that reading has come to is accounted for, after every
sequence of turns from the start of a text. -/
theorem Turns.breaks {count : Nat} {last : LexState} {text left : List Char}
    (h : Turns file count initial text last left) : Breaks text last left :=
  h.invariant (fun _ _ _ _ _ hstep hstate => step_breaks hstep hstate) {
    left_eq := rfl
    delimited := delimited_initial
    starts_lt := fun _ hmem => absurd hmem List.not_mem_nil
    recorded := fun _ hlt => absurd hlt (Nat.not_lt_zero _) }

end LexState

end SableFrontend
