import SableFrontend.Proofs.Token.Places

/-!
Lines and columns, counted in line breaks. The line of an offset is the number of line breaks in front of
it, and its column counts from the place just behind the last of them. This is said here without following
a reader along the text (`Text.HasPlace`), and the places that reading comes to are shown to agree with it.
So do the ends of everything that is found in a text, and of the fault that ends the reading
(`LexRun.agrees_ofText`); only a line break ends by its line and column where its line still goes on.
-/

namespace SableFrontend

/-! ### Counting -/

namespace Text

/-- The line that an offset of a text is on starts here: the text begins, or a line break has just ended,
and from here to the offset there is none. -/
structure StartsLine (text : List Char) (offset start : Nat) : Prop where
  le : start ≤ offset
  behind_break : start = 0 ∨ text[start - 1]? = some '\n'
  unbroken : ∀ k, start ≤ k → k < offset → text[k]? ≠ some '\n'

/-- An offset of a text is on this line, counted from 1, and in this column of it. -/
structure HasPlace (text : List Char) (offset : Nat) (line column : Int) : Prop where
  line_eq : line = (text.take offset).count '\n' + 1
  column_eq : ∃ start, StartsLine text offset start ∧ column = offset - start + 1

theorem count_take_succ {text : List Char} {offset : Nat} (h : offset < text.length) :
    (text.take (offset + 1)).count '\n' =
      (text.take offset).count '\n' + if text[offset] = '\n' then 1 else 0 := by
  rw [List.take_succ_eq_append_getElem h, List.count_append, List.count_singleton]
  simp only [beq_iff_eq]

end Text

namespace Position

theorem inText_succ {text : List Char} {offset : Nat} (h : offset < text.length) :
    inText text (offset + 1) = (inText text offset).advance text[offset] := by
  rw [inText, List.take_succ_eq_append_getElem h, after_append, ← inText]
  rfl

/-- The place that reading comes to has the line and the column of its offset. -/
theorem hasPlace_inText {text : List Char} {offset : Nat} (h : offset ≤ text.length) :
    Text.HasPlace text offset (inText text offset).line (inText text offset).column := by
  induction offset with
  | zero => exact ⟨rfl, 0, ⟨Nat.le_refl 0, Or.inl rfl, nofun⟩, rfl⟩
  | succ offset ih =>
    obtain ⟨hline, start, hstart, hcolumn⟩ := ih (Nat.le_of_lt h)
    have hget : text[offset]? = some text[offset] := List.getElem?_eq_getElem h
    rw [inText_succ h]
    by_cases hbreak : text[offset] = '\n'
    · -- the next line starts just behind the break
      refine ⟨?_, offset + 1, ⟨Nat.le_refl _, Or.inr ?_, fun k hle hlt => ?_⟩, ?_⟩
      · rw [Text.count_take_succ h, if_pos hbreak, advance, if_pos hbreak]
        dsimp only
        omega
      · rw [Nat.add_sub_cancel, hget, hbreak]
      · exact absurd hlt (Nat.not_lt_of_le hle)
      · rw [advance, if_pos hbreak]
        dsimp only
        omega
    · refine ⟨?_, start, ⟨Nat.le_succ_of_le hstart.le, hstart.behind_break, fun k hle hlt => ?_⟩, ?_⟩
      · rw [Text.count_take_succ h, if_neg hbreak, advance, if_neg hbreak]
        exact hline
      · rcases Nat.lt_or_eq_of_le (Nat.le_of_lt_succ hlt) with hbefore | rfl
        · exact hstart.unbroken k hle hbefore
        · rw [hget]
          exact fun heq => hbreak (Option.some.inj heq)
      · rw [advance, if_neg hbreak]
        dsimp only
        omega

end Position

/-! ### Spans -/

/-- A span of a text whose lines and columns are those of its offsets, except that a line break ends by
them in the column behind its start. -/
structure Span.Agrees (text : List Char) (isBreak : Bool) (span : Span) : Prop where
  nonneg : 0 ≤ span.start
  le : span.start ≤ span.stop
  stop_le : span.stop ≤ text.length
  starts : Text.HasPlace text span.start.toNat span.startLine span.startColumn
  stops : isBreak = false → Text.HasPlace text span.stop.toNat span.endLine span.endColumn
  stays : isBreak = true → span.endLine = span.startLine ∧ span.endColumn = span.startColumn + 1

theorem Span.StartsAt.hasPlace {text : List Char} {span : Span} {offset : Nat}
    (h : span.StartsAt (.inText text offset)) (hle : offset ≤ text.length) :
    Text.HasPlace text offset span.startLine span.startColumn := by
  rw [h.2.1, h.2.2]
  exact Position.hasPlace_inText hle

theorem Span.StopsAt.hasPlace {text : List Char} {span : Span} {offset : Nat}
    (h : span.StopsAt (.inText text offset)) (hle : offset ≤ text.length) :
    Text.HasPlace text offset span.endLine span.endColumn := by
  rw [h.2.1, h.2.2]
  exact Position.hasPlace_inText hle

theorem Span.IsIn.agrees {text : List Char} {span : Span} (h : span.IsIn text) :
    span.Agrees text false := by
  have hstop := h.stop_le
  have hle := h.le
  exact {
    nonneg := h.nonneg
    le := h.le
    stop_le := h.stop_le
    starts := h.startsAt.hasPlace (by omega)
    stops := fun _ => h.stopsAt.hasPlace (by omega)
    stays := nofun }

/-! ### What is recorded as a line break -/

namespace Lexeme

/-- The lexeme is recorded as a line break wherever it stands. -/
def isBreak : Lexeme → Bool
  | lineBreak => true
  | trivia kind => kind == .newline
  | token kind _ => kind == .newline
  | opener _ | closer _ => false

theorem isBreak_wordKind (word : List Char) (value : String) :
    (token (wordKind word) value).isBreak = false := by
  unfold wordKind
  split
  · rfl
  · split <;> rfl

theorem isBreak_operatorKind (spelling value : String) :
    (token (operatorKind spelling) value).isBreak = false := by
  unfold operatorKind
  repeat' split
  all_goals rfl

theorem isBreak_punctuation? {c : Char} {kind : TokenKind} (h : punctuation? c = some kind)
    (value : String) : (token kind value).isBreak = false := by
  unfold punctuation? at h
  repeat' split at h
  all_goals cases h
  all_goals rfl

theorem isBreak_scanMark {first : Char} {scanned : ScannedLexeme} (h : scanMark first = .ok scanned) :
    scanned.lexeme.isBreak = false := by
  unfold scanMark at h
  split at h
  · cases h
    rfl
  · cases h
    rfl
  · next hmark =>
    cases h
    exact isBreak_punctuation? hmark _
  · cases h

theorem isBreak_closeCharacter {c : Char} {read : Nat} {rest : List Char} {scanned : ScannedLexeme}
    (h : closeCharacter c read rest = .ok scanned) : scanned.lexeme.isBreak = false := by
  unfold closeCharacter at h
  split at h <;> cases h
  rfl

/-- Nothing but a line break is recorded as one. -/
theorem eq_lineBreak_of_isBreak {first : Char} {rest : List Char} {scanned : ScannedLexeme}
    (h : scan first rest = .ok scanned) (hbreak : scanned.lexeme.isBreak = true) :
    scanned.lexeme = .lineBreak := by
  have hnone : scanned.lexeme = .lineBreak ∨ scanned.lexeme.isBreak = false := by
    unfold scan at h
    split at h
    · cases h
      exact Or.inl rfl
    right
    repeat' split at h
    · cases h
      rfl
    · unfold scanComment at h
      repeat' split at h
      all_goals cases h
      all_goals rfl
    · obtain ⟨_, -, h⟩ := exists_of_bind_eq_ok h
      cases h
      rfl
    · unfold scanCharacter at h
      repeat' split at h
      · cases h
      · cases h
      · cases h
      · obtain ⟨_, -, h⟩ := exists_of_bind_eq_ok h
        exact isBreak_closeCharacter h
      · exact isBreak_closeCharacter h
    · obtain ⟨_, -, h⟩ := exists_of_bind_eq_ok h
      cases h
      rfl
    · cases h
      exact isBreak_wordKind _ _
    · cases h
      exact isBreak_operatorKind _ _
    · exact isBreak_scanMark h
  refine hnone.resolve_right fun hno => ?_
  rw [hno] at hbreak
  cases hbreak

end Lexeme

/-! ### What is found in a text -/

namespace LexState

variable {file : String} {text left shown : List Char} {state next recorded last : LexState}

/-- Everything that has been found so far agrees with the text. -/
structure Found (text : List Char) (state : LexState) : Prop where
  tokens : ∀ token ∈ state.tokens, token.span.Agrees text (token.kind == .newline)
  trivia : ∀ trivia ∈ state.trivia, trivia.span.Agrees text (trivia.kind == .newline)

/-- The span of a lexeme agrees with the text, as that of a line break if it is one. -/
theorem agrees_spanOf (hstart : state.position = .inText text state.position.offset)
    (hstop : state.position.after shown = .inText text (state.position.after shown).offset)
    (hle : (state.position.after shown).offset ≤ text.length) (lexeme : Lexeme) :
    (state.spanOf file lexeme shown).Agrees text (decide (lexeme = .lineBreak)) := by
  have hforward : state.position.offset ≤ (state.position.after shown).offset := by simp
  have hbetween := (Span.isIn_between file hstart hstop hforward hle).agrees
  cases lexeme with
  | lineBreak =>
    exact {
      nonneg := hbetween.nonneg
      le := hbetween.le
      stop_le := hbetween.stop_le
      starts := hbetween.starts
      stops := nofun
      stays := fun _ => ⟨rfl, rfl⟩ }
  | _ => exact hbetween

theorem Records.found {lexeme : Lexeme} {span : Span} (hrecords : state.Records lexeme span recorded)
    (hbreak : lexeme.isBreak = true → lexeme = .lineBreak)
    (hspan : span.Agrees text (decide (lexeme = .lineBreak))) (h : Found text state) :
    Found text recorded := by
  have hsame : ∀ {kind : TokenKind} {value : String}, lexeme = .token kind value →
      (kind == .newline) = decide (lexeme = .lineBreak) := by
    rintro kind value rfl
    cases hkind : kind == TokenKind.newline with
    | false => rfl
    | true => exact nomatch hbreak hkind
  have hpush : ∀ {kind : TokenKind} {value : String},
      (kind == .newline) = decide (lexeme = .lineBreak) →
        ∀ token ∈ state.tokens.push { kind := kind, value := value, span := span },
          token.span.Agrees text (token.kind == .newline) := by
    intro kind value hkind token hmem
    rcases Array.mem_push.1 hmem with hold | rfl
    · exact h.tokens token hold
    · rw [hkind]
      exact hspan
  cases hrecords with
  | skipped kind hlexeme =>
    refine ⟨h.tokens, fun trivia hmem => ?_⟩
    rcases Array.mem_push.1 hmem with hold | rfl
    · exact h.trivia trivia hold
    · have hkind : (kind == .newline) = decide (lexeme = .lineBreak) := by
        rcases hlexeme with rfl | ⟨rfl, rfl, -⟩
        · cases hkind : kind == TriviaKind.newline with
          | false => rfl
          | true => exact nomatch hbreak hkind
        · rfl
      rw [hkind]
      exact hspan
  | newline hlexeme => exact ⟨hpush (by rw [hlexeme]; rfl), h.trivia⟩
  | token kind value hlexeme => exact ⟨hpush (hsame hlexeme), h.trivia⟩
  | opener bracket hlexeme => exact ⟨hpush (by rw [hlexeme]; rfl), h.trivia⟩
  | closer innermost outer _ hlexeme => exact ⟨hpush (by rw [hlexeme]; rfl), h.trivia⟩

theorem step_found {first : Char} {rest : List Char} {extra : Nat}
    (hstep : state.step file first rest = .ok (next, extra)) (hstands : Stands text state)
    (hstands' : Stands text next) (h : Found text state) : Found text next := by
  obtain ⟨lexeme, recorded, hscan, hrecords, rfl⟩ := step_eq_ok hstep
  have hspan : (state.spanOf file lexeme (first :: rest.take extra)).Agrees text _ :=
    agrees_spanOf hstands.position_eq hstands'.position_eq hstands'.offset_le lexeme
  obtain ⟨htokens, htrivia⟩ := hrecords.found (Lexeme.eq_lineBreak_of_isBreak hscan) hspan h
  exact ⟨htokens, htrivia⟩

/-- What has been read of a text agrees with it, after every sequence of turns from its start. -/
theorem Turns.found {count : Nat} (h : Turns file count initial text last left) :
    Found text last := by
  have hall : Reads text last left ∧ Stands text last ∧ Found text last := by
    refine h.invariant
      (motive := fun state left => Reads text state left ∧ Stands text state ∧ Found text state)
      (fun _ _ _ _ _ hstep ⟨hreads, hstands, hfound⟩ => ?_) ⟨?_, ?_, ?_, ?_⟩
    · have hstands' := step_stands hstep hreads.left_eq hstands
      exact ⟨step_reads hstep hreads, hstands', step_found hstep hstands hstands' hfound⟩
    · exact ⟨rfl, fun token hmem => absurd hmem (Array.not_mem_empty token)⟩
    · exact ⟨rfl, Nat.zero_le _, fun token hmem => absurd hmem (Array.not_mem_empty token)⟩
    · exact fun token hmem => absurd hmem (Array.not_mem_empty token)
    · exact fun trivia hmem => absurd hmem (Array.not_mem_empty trivia)
  exact hall.2.2

/-- The place behind some of the text that is left. -/
theorem Stands.after_take (h : Stands text state) (hleft : left = text.drop state.position.offset)
    (count : Nat) : state.position.after (left.take count) =
      .inText text (state.position.after (left.take count)).offset ∧
    (state.position.after (left.take count)).offset ≤ text.length := by
  have htake : left.take count =
      (text.drop state.position.offset).take (left.take count).length := by
    rw [← hleft, List.length_take]
    exact List.take_eq_take_min
  have hlength := congrArg List.length hleft
  rw [List.length_drop] at hlength
  constructor
  · rw [Position.after_offset, Position.inText, List.take_add, Position.after_append,
      ← Position.inText, ← h.position_eq, ← htake]
  · have hoffset := h.offset_le
    rw [Position.after_offset, List.length_take]
    omega

/-- The fault that ends the reading agrees with the text. -/
theorem step_error_agrees {first : Char} {rest : List Char} {error : LexError}
    (hstep : state.step file first rest = .error error) (hstands : Stands text state)
    (hleft : first :: rest = text.drop state.position.offset) : error.span.Agrees text false := by
  unfold step at hstep
  split at hstep
  · next scanned hscan =>
    dsimp only at hstep
    split at hstep
    · cases hstep
    · next found hrecord =>
      cases hstep
      have hshown : first :: rest.take scanned.extra = (first :: rest).take (scanned.extra + 1) := rfl
      obtain ⟨hstop, hle⟩ := hstands.after_take hleft (scanned.extra + 1)
      rw [← hshown] at hstop hle
      have hspan : (state.spanOf file scanned.lexeme (first :: rest.take scanned.extra)).Agrees text _ :=
        agrees_spanOf hstands.position_eq hstop hle scanned.lexeme
      rw [record_error_span hrecord]
      -- only a closer can be at fault
      cases hlexeme : scanned.lexeme with
      | lineBreak =>
        rw [hlexeme, record] at hrecord
        split at hrecord <;> cases hrecord
      | _ =>
        rw [hlexeme] at hspan
        exact hspan
  · next found hscan =>
    cases hstep
    dsimp only
    rw [← Position.after_append, ← List.take_add]
    obtain ⟨hstart, -⟩ := hstands.after_take hleft found.before
    obtain ⟨hstop, hle⟩ := hstands.after_take hleft (found.before + found.length)
    refine (Span.isIn_between file hstart hstop ?_ hle).agrees
    simp only [Position.after_offset, List.length_take]
    omega

end LexState

/-- The delimiters that are open are among the tokens. -/
theorem mem_of_mem_openTokens {tokens : List Token} {token : Token} (h : token ∈ openTokens tokens) :
    token ∈ tokens := by
  have hall : ∀ opened : List Token, token ∈ tokens.foldl Token.openAfter opened →
      token ∈ opened ∨ token ∈ tokens := by
    clear h
    induction tokens with
    | nil => exact fun opened h => Or.inl h
    | cons first rest ih =>
      intro opened h
      rcases ih (first.openAfter opened) h with hafter | hrest
      · unfold Token.openAfter at hafter
        split at hafter
        · exact (List.mem_cons.1 hafter).elim (fun heq => Or.inr (heq ▸ List.mem_cons_self)) Or.inl
        · exact Or.inl (List.mem_of_mem_tail hafter)
        · exact Or.inl hafter
      · exact Or.inr (List.mem_cons_of_mem _ hrest)
  exact (hall [] h).resolve_left List.not_mem_nil

/-- Lines and columns agree with offsets. For every token and everything that is passed over, up to the end
of the text or to the first fault, and for the fault: the start is on the line, and in the column, of its
offset, and so is the end, except that a line break ends on its line, one column behind its start. -/
theorem LexRun.agrees_ofText (text file : String) :
    (∀ token ∈ (ofText text file).tokens,
      token.span.Agrees text.toList (token.kind == .newline)) ∧
    (∀ trivia ∈ (ofText text file).trivia,
      trivia.span.Agrees text.toList (trivia.kind == .newline)) ∧
    ∀ error, (ofText text file).error? = some error → error.span.Agrees text.toList false := by
  obtain ⟨count, last, left, hturns, hends⟩ := ofText_ends text file
  have hstands := hturns.stands
  obtain ⟨htokens, htrivia⟩ := hturns.found
  have hend : (Token.endAt file last.position).span.Agrees text.toList false :=
    (Span.isIn_between file hstands.position_eq hstands.position_eq (Nat.le_refl _)
      hstands.offset_le).agrees
  generalize ofText text file = run at hends ⊢
  cases hends with
  | settled =>
    refine ⟨fun token hmem => ?_, htrivia, fun error herror => ?_⟩
    · rcases Array.mem_push.1 hmem with hold | rfl
      · exact htokens token hold
      · exact hend
    · cases herror
  | unclosed innermost outer hopened =>
    refine ⟨htokens, htrivia, fun error herror => ?_⟩
    cases herror
    -- the fault is where the innermost delimiter was opened
    have hopen := hturns.delimited.tokens_eq
    rw [hopened, List.map_cons] at hopen
    have hmem : innermost.token ∈ openTokens last.tokens.toList := by
      rw [← hopen]
      exact List.mem_cons_self
    exact htokens innermost.token (Array.mem_toList_iff.1 (mem_of_mem_openTokens hmem))
  | fault hstep =>
    refine ⟨htokens, htrivia, fun error herror => ?_⟩
    cases herror
    exact LexState.step_error_agrees hstep hstands hturns.reads.left_eq

/-- A line break that is passed over, and a string that does not end on the line behind it. -/
theorem LexRun.exists_agrees_ofText :
    (∃ trivia ∈ (ofText "(\n \"ab" "f").trivia, trivia.kind = .newline ∧
      trivia.span.Agrees "(\n \"ab".toList true) ∧
    ∃ error, (ofText "(\n \"ab" "f").error? = some error ∧ error.span.startLine = 2 ∧
      error.span.Agrees "(\n \"ab".toList false := by
  obtain ⟨-, htrivia, herror⟩ := LexRun.agrees_ofText "(\n \"ab" "f"
  have hbreak : ((ofText "(\n \"ab" "f").trivia[0]?).any (·.kind == .newline) = true := by
    decide +kernel
  have hfault : (ofText "(\n \"ab" "f").error?.any (·.span.startLine == 2) = true := by
    decide +kernel
  obtain ⟨trivia, hget, hkind⟩ := (Option.any_eq_true _ _).1 hbreak
  obtain ⟨error, hsome, hline⟩ := (Option.any_eq_true _ _).1 hfault
  refine ⟨⟨trivia, Array.mem_of_getElem? hget, beq_iff_eq.1 hkind, ?_⟩, error, hsome,
    beq_iff_eq.1 hline, herror error hsome⟩
  have hagrees := htrivia trivia (Array.mem_of_getElem? hget)
  rwa [hkind] at hagrees

end SableFrontend
