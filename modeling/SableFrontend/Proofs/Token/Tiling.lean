import SableFrontend.Proofs.Token.LexedStream

/-!
Nothing of a text is lost when it is read. The spans of the tokens and of what was passed over,
put in the order of their starts, follow one another without a gap and without an overlap: over the
whole text if it has no fault, and else up to some place in front of the fault.

While a text is read, what has been found stands in two lists, one for tokens and one for trivia.
The invariant `LexState.Tiled` says that the two can be merged into one list of spans that tiles
the text up to the place that reading has come to. Sorting finds that very list again, since no two
spans of a tiling start at the same place.
-/

namespace SableFrontend

/-! ### Tilings -/

namespace Span

/-- Spans that take up a range from left to right, without a gap and none of them empty. -/
def Tile : Int → List Span → Int → Prop
  | start, [], stop => start = stop
  | start, span :: rest, stop =>
    span.start = start ∧ span.start < span.stop ∧ Tile span.stop rest stop

/-- The first span ends before the second one starts. -/
def Precedes (first second : Span) : Prop := first.stop ≤ second.start

/-- The first span starts before the second one, or at the same place. -/
def startsBefore (first second : Span) : Bool := decide (first.start ≤ second.start)

theorem Tile.concat {start middle : Int} {spans : List Span} {span : Span}
    (h : Tile start spans middle) (hstart : span.start = middle)
    (hnonempty : span.start < span.stop) : Tile start (spans ++ [span]) span.stop := by
  induction spans generalizing start with
  | nil => exact ⟨hstart.trans (show start = middle from h).symm, hnonempty, rfl⟩
  | cons first rest ih =>
    obtain ⟨hfirst, hlt, hrest⟩ := h
    exact ⟨hfirst, hlt, ih hrest⟩

/-- Every span of a tiling lies behind the start of it and is not empty. -/
theorem Tile.start_le {start stop : Int} {spans : List Span} (h : Tile start spans stop) :
    ∀ span ∈ spans, start ≤ span.start ∧ span.start < span.stop := by
  induction spans generalizing start with
  | nil =>
    intro span hmem
    cases hmem
  | cons first rest ih =>
    obtain ⟨rfl, hlt, hrest⟩ := h
    intro span hmem
    rcases List.mem_cons.1 hmem with rfl | hmem
    · exact ⟨Int.le_refl _, hlt⟩
    · obtain ⟨hle, hspan⟩ := ih hrest span hmem
      exact ⟨Int.le_trans (Int.le_of_lt hlt) hle, hspan⟩

/-- The spans of a tiling stand in order. -/
theorem Tile.pairwise_precedes {start stop : Int} {spans : List Span}
    (h : Tile start spans stop) : spans.Pairwise Precedes := by
  induction spans generalizing start with
  | nil => exact .nil
  | cons first rest ih =>
    obtain ⟨-, -, hrest⟩ := h
    exact .cons (fun span hmem => (hrest.start_le span hmem).1) (ih hrest)

theorem Tile.pairwise_startsBefore {start stop : Int} {spans : List Span}
    (h : Tile start spans stop) : spans.Pairwise (fun a b => startsBefore a b = true) := by
  refine h.pairwise_precedes.imp_of_mem fun {first second} hfirst _ hprecedes => ?_
  have hlt := (h.start_le first hfirst).2
  simp only [Precedes] at hprecedes
  simp only [startsBefore, decide_eq_true_eq]
  omega

/-- Two spans of a tiling that start at the same place are the same. -/
theorem Tile.eq_of_start_eq {start stop : Int} {spans : List Span} (h : Tile start spans stop) :
    ∀ {first second : Span}, first ∈ spans → second ∈ spans → first.start = second.start →
      first = second := by
  induction spans generalizing start with
  | nil =>
    intro first second hfirst
    cases hfirst
  | cons head rest ih =>
    obtain ⟨rfl, hlt, hrest⟩ := h
    intro first second hfirst hsecond heq
    rcases List.mem_cons.1 hfirst with rfl | hfirstRest
    · rcases List.mem_cons.1 hsecond with rfl | hsecondRest
      · rfl
      · have hle := (hrest.start_le second hsecondRest).1
        omega
    · rcases List.mem_cons.1 hsecond with rfl | hsecondRest
      · have hle := (hrest.start_le first hfirstRest).1
        omega
      · exact ih hrest hfirstRest hsecondRest heq

/-- Sorting puts the spans of a tiling back in their order, however they were mixed up. -/
theorem Tile.mergeSort_eq {start stop : Int} {spans mixed : List Span} (h : Tile start spans stop)
    (hperm : spans.Perm mixed) : mixed.mergeSort startsBefore = spans := by
  have hsorted : (mixed.mergeSort startsBefore).Pairwise (fun a b => startsBefore a b = true) := by
    refine List.pairwise_mergeSort (fun a b c hab hbc => ?_) (fun a b => ?_) mixed
    · simp only [startsBefore, decide_eq_true_eq] at hab hbc ⊢
      exact Int.le_trans hab hbc
    · simp only [startsBefore, Bool.or_eq_true, decide_eq_true_eq]
      exact Int.le_total a.start b.start
  -- two sorted lists of the same spans are equal, since no two spans start at one place
  have hsame : (mixed.mergeSort startsBefore).Perm spans :=
    (List.mergeSort_perm mixed startsBefore).trans hperm.symm
  refine List.Perm.eq_of_pairwise (fun a b ha hb hab hba => ?_) hsorted h.pairwise_startsBefore
    hsame
  simp only [startsBefore, decide_eq_true_eq] at hab hba
  exact h.eq_of_start_eq (hsame.mem_iff.1 ha) hb (Int.le_antisymm hab hba)

end Span

/-! ### What a run has found -/

namespace LexRun

/-- The spans of the tokens, the end of the file left out. -/
def tokenSpans (run : LexRun) : List Span :=
  (run.tokens.toList.filter fun token => token.kind != .endOfFile).map Token.span

/-- The spans of what was passed over. -/
def triviaSpans (run : LexRun) : List Span := run.trivia.toList.map Trivia.span

/-- The spans of everything that was found, in the order of their starts. -/
def pieces (run : LexRun) : List Span :=
  (run.tokenSpans ++ run.triviaSpans).mergeSort Span.startsBefore

/-- What was found takes up the text up to a place, and both tokens and trivia stand in order. -/
structure Covers (run : LexRun) (upTo : Int) : Prop where
  tiles : Span.Tile 0 run.pieces upTo
  tokens_ordered : run.tokenSpans.Pairwise Span.Precedes
  trivia_ordered : run.triviaSpans.Pairwise Span.Precedes

/-- A tiling that both the tokens and the trivia are taken from, and nothing else, is found again
by sorting. -/
theorem covers_of_tile {run : LexRun} {spans : List Span} {upTo : Int}
    (htile : Span.Tile 0 spans upTo) (htokens : run.tokenSpans.Sublist spans)
    (htrivia : run.triviaSpans.Sublist spans)
    (hperm : spans.Perm (run.tokenSpans ++ run.triviaSpans)) : run.Covers upTo where
  tiles := by
    rw [pieces, htile.mergeSort_eq hperm]
    exact htile
  tokens_ordered := htile.pairwise_precedes.sublist htokens
  trivia_ordered := htile.pairwise_precedes.sublist htrivia

end LexRun

/-! ### The invariant -/

namespace LexState

variable {file : String}

/-- The spans found so far, tokens and trivia merged, tile the text up to where reading has come
to. -/
def Tiled (state : LexState) : Prop :=
  ∃ spans, Span.Tile 0 spans state.position.offset ∧
    (state.tokens.toList.map Token.span).Sublist spans ∧
    (state.trivia.toList.map Trivia.span).Sublist spans ∧
    spans.Perm (state.tokens.toList.map Token.span ++ state.trivia.toList.map Trivia.span)

theorem tiled_initial : initial.Tiled :=
  ⟨[], rfl, .slnil, .slnil, .nil⟩

/-- A lexeme is recorded either among the tokens or among the trivia. -/
theorem Records.spans_eq {state recorded : LexState} {lexeme : Lexeme} {span : Span}
    (h : state.Records lexeme span recorded) :
    (recorded.tokens.toList.map Token.span = state.tokens.toList.map Token.span ++ [span] ∧
        recorded.trivia = state.trivia) ∨
      (recorded.tokens = state.tokens ∧
        recorded.trivia.toList.map Trivia.span =
          state.trivia.toList.map Trivia.span ++ [span]) := by
  rcases h.push_or_skip with ⟨token, htokens, rfl, htrivia⟩ | ⟨htokens, kind, htrivia⟩
  · refine Or.inl ⟨?_, htrivia⟩
    rw [htokens, Array.toList_push, List.map_append, List.map_singleton]
  · refine Or.inr ⟨htokens, ?_⟩
    rw [htrivia, Array.toList_push, List.map_append, List.map_singleton]

theorem step_tiled {state next : LexState} {first : Char} {rest : List Char} {extra : Nat}
    (hstep : state.step file first rest = .ok (next, extra)) (h : state.Tiled) : next.Tiled := by
  obtain ⟨lexeme, recorded, -, hrecords, rfl⟩ := step_eq_ok hstep
  obtain ⟨spans, htile, htokens, htrivia, hperm⟩ := h
  -- of the lexeme only the ends of its span matter, and that it takes up at least one character
  generalize htext : first :: rest.take extra = text at *
  have hstart : (state.spanOf file lexeme text).start = state.position.offset :=
    spanOf_start state lexeme text
  have hstop : (state.spanOf file lexeme text).stop = state.position.offset + text.length :=
    spanOf_stop state lexeme text
  have hspans := hrecords.spans_eq
  generalize state.spanOf file lexeme text = span at *
  have hnonempty : span.start < span.stop := by
    rw [hstart, hstop, ← htext, List.length_cons]
    omega
  have hoffset : ((state.position.after text).offset : Int) = span.stop := by
    rw [hstop, Position.after_offset, Int.natCast_add]
  refine ⟨spans ++ [span], ?_, ?_⟩
  · rw [hoffset]
    exact htile.concat hstart hnonempty
  · rcases hspans with ⟨hmore, hsame⟩ | ⟨hsame, hmore⟩
    · rw [hmore, hsame]
      refine ⟨htokens.append_right [span], htrivia.trans (List.sublist_append_left ..), ?_⟩
      exact (hperm.append_right [span]).trans (by
        rw [List.append_assoc, List.append_assoc]
        exact List.perm_append_comm.append_left _)
    · rw [hmore, hsame]
      refine ⟨htokens.trans (List.sublist_append_left ..), htrivia.append_right [span], ?_⟩
      rw [← List.append_assoc]
      exact hperm.append_right [span]

/-- What has been found tiles the text that has been read, after every sequence of turns from the
start of a text. -/
theorem Turns.tiled {count : Nat} {last : LexState} {text left : List Char}
    (h : Turns file count initial text last left) : last.Tiled :=
  h.invariant (motive := fun state _ => state.Tiled)
    (fun _ _ _ _ _ hstep hstate => step_tiled hstep hstate) tiled_initial

/-- The tokens of a state are those of any run that adds nothing but the end of the file. -/
theorem tokenSpans_eq (file : String) {state : LexState} {run : LexRun} (h : state.Delimited)
    (htokens : run.tokens = state.tokens ∨ ∃ position,
      run.tokens = state.tokens.push (.endAt file position)) :
    run.tokenSpans = state.tokens.toList.map Token.span := by
  have hkeep : (state.tokens.toList.filter fun token => token.kind != .endOfFile) =
      state.tokens.toList := by
    rw [List.filter_eq_self]
    intro token hmem
    exact bne_iff_ne.2 (h.unended token (Array.mem_toList_iff.1 hmem))
  rcases htokens with htokens | ⟨position, htokens⟩
  · rw [LexRun.tokenSpans, htokens, hkeep]
  · rw [LexRun.tokenSpans, htokens, Array.toList_push, List.filter_append, hkeep,
      List.filter_cons_of_neg (by simp [Token.endAt]), List.filter_nil, List.append_nil]

theorem Tiled.covers (file : String) {state : LexState} {run : LexRun} (h : state.Tiled)
    (hdelimited : state.Delimited)
    (htokens : run.tokens = state.tokens ∨ ∃ position,
      run.tokens = state.tokens.push (.endAt file position))
    (htrivia : run.trivia = state.trivia) : run.Covers state.position.offset := by
  obtain ⟨spans, htile, htokenSpans, htriviaSpans, hperm⟩ := h
  have hspans := tokenSpans_eq file hdelimited htokens
  have hpassed : run.triviaSpans = state.trivia.toList.map Trivia.span := by
    rw [LexRun.triviaSpans, htrivia]
  rw [← hspans] at htokenSpans hperm
  rw [← hpassed] at htriviaSpans hperm
  exact LexRun.covers_of_tile htile htokenSpans htriviaSpans hperm

end LexState

/-! ### Whole texts -/

namespace LexRun

/-- The end of the file stands at a place, takes up nothing, and is the last token and the only one
of its kind. -/
def EndsAt (run : LexRun) (place : Int) : Prop :=
  ∃ before final, run.tokens.toList = before ++ [final] ∧ final.kind = .endOfFile ∧
    final.span.start = place ∧ final.span.stop = place ∧
    ∀ token ∈ before, token.kind ≠ .endOfFile

section

variable {file : String} {count : Nat} {last : LexState} {text left : List Char} {run : LexRun}

/-- A run stops at the end of the text, or where no lexeme can be read. -/
theorem Ends.left_eq (h : Ends file last left run) :
    left = [] ∨ ∃ first rest error, left = first :: rest ∧
      last.step file first rest = .error error := by
  cases h with
  | settled => exact Or.inl rfl
  | unclosed => exact Or.inl rfl
  | fault hstep => exact Or.inr ⟨_, _, _, rfl, hstep⟩

/-- What a run has found takes up the text up to the place where it stopped. -/
theorem Ends.covers (h : Ends file last left run)
    (hturns : LexState.Turns file count .initial text last left) :
    match run.error? with
      | none => run.Covers text.length ∧ run.EndsAt text.length
      | some error => ∃ upTo : Nat, upTo ≤ text.length ∧ run.Covers upTo ∧
          (upTo ≤ error.span.start ∨
            upTo = text.length ∧
              ∃ token ∈ openTokens run.tokens.toList, error.span = token.span) := by
  have htiled := hturns.tiled
  have hdelimited := hturns.delimited
  have hoffset : last.position.offset + left.length = text.length :=
    hturns.offset_add_length.trans (Nat.zero_add _)
  cases h with
  | settled hopened =>
    have hlength : last.position.offset = text.length := hoffset
    rw [← hlength]
    refine ⟨htiled.covers file hdelimited (Or.inr ⟨last.position, rfl⟩) rfl, last.tokens.toList,
      .endAt file last.position, Array.toList_push .., rfl, rfl, rfl, fun token hmem => ?_⟩
    exact hdelimited.unended token (Array.mem_toList_iff.1 hmem)
  | unclosed innermost outer hopened =>
    have hlength : last.position.offset = text.length := hoffset
    -- the fault is reported at the opener of the innermost delimiter that is open
    have hopen := hdelimited.tokens_eq
    rw [hopened, List.map_cons] at hopen
    refine ⟨last.position.offset, Nat.le_of_eq hlength,
      htiled.covers file hdelimited (Or.inl rfl) rfl, Or.inr ⟨hlength, innermost.token, ?_, rfl⟩⟩
    rw [LexState.stopAt, ← hopen]
    exact List.mem_cons_self
  | fault hstep =>
    refine ⟨last.position.offset, by omega, htiled.covers file hdelimited (Or.inl rfl) rfl,
      Or.inl ?_⟩
    exact LexState.step_error_start hstep

/-- The tokens of a run were read from the text. -/
theorem Ends.value_eq (h : Ends file last left run)
    (hturns : LexState.Turns file count .initial text last left) :
    ∀ token ∈ run.tokens,
      token.kind.isQuoted = true ∨ token.value.toList = token.span.slice text := by
  have hread := hturns.reads.tokens
  intro token hmem
  cases h with
  | settled =>
    rcases Array.mem_push.1 hmem with hold | rfl
    · exact (hread token hold).value_eq
    · exact Or.inr (by simp [Token.endAt, Span.slice, Span.between])
  | unclosed => exact (hread token hmem).value_eq
  | fault => exact (hread token hmem).value_eq

end

/-- Reading a text loses nothing of it. The loop makes at most one turn for each character. Without
a fault, tokens and trivia tile the whole text and the end of the file stands behind it; with one,
they tile a part in front of the fault, or all of the text if the fault is a delimiter that is never
closed. Every token other than a quoted literal is the text at its span, so that not even a numeral
of digits that cannot be read is recorded as an empty one. -/
theorem covers_ofText (text file : String) :
    (∃ count last left, LexState.Turns file count .initial text.toList last left ∧
      count ≤ text.length ∧
      (left = [] ∨ ∃ first rest error, left = first :: rest ∧
        last.step file first rest = .error error)) ∧
    (match (ofText text file).error? with
      | none => (ofText text file).Covers text.length ∧ (ofText text file).EndsAt text.length
      | some error => ∃ upTo : Nat, upTo ≤ text.length ∧ (ofText text file).Covers upTo ∧
          (upTo ≤ error.span.start ∨
            upTo = text.length ∧
              ∃ token ∈ openTokens (ofText text file).tokens.toList, error.span = token.span)) ∧
    ∀ token ∈ (ofText text file).tokens,
      token.kind.isQuoted = true ∨ token.value.toList = token.span.slice text.toList := by
  obtain ⟨count, last, left, hturns, hends⟩ := ofText_ends text file
  have hcount := hturns.count_add_length
  rw [String.length_toList] at hcount
  refine ⟨⟨count, last, left, hturns, by omega, hends.left_eq⟩, ?_, hends.value_eq hturns⟩
  have hcovers := hends.covers hturns
  rwa [String.length_toList] at hcovers

end LexRun

/-- The tokens of a text follow one another, and none of them is empty except for the end of the
file. -/
theorem TokenStream.precedes_of_ofText {text file : String} {stream : TokenStream}
    (h : Token.ofText text file = .ok stream.tokens) {position : Nat}
    (hsize : position + 1 < stream.size) :
    (stream.token position).span.start < (stream.token position).span.stop ∧
      ∀ before, before < position →
        (stream.token before).span.Precedes (stream.token position).span := by
  obtain ⟨count, last, hturns, -, htokens⟩ := Token.ofText_eq_ok h
  obtain ⟨spans, htile, hsublist, -⟩ := hturns.tiled
  have hlength : position < (last.tokens.toList.map Token.span).length := by
    rw [List.length_map, Array.length_toList]
    rw [TokenStream.size, htokens, Array.size_push] at hsize
    exact Nat.lt_of_succ_lt_succ hsize
  have hspan : ∀ {position} (hlt : position < (last.tokens.toList.map Token.span).length),
      (last.tokens.toList.map Token.span)[position] = (stream.token position).span := by
    intro position hlt
    have hposition : position < last.tokens.size := by
      rwa [List.length_map, Array.length_toList] at hlt
    rw [List.getElem_map, Array.getElem_toList, TokenStream.token, htokens,
      Array.getElem?_push_lt hposition, Option.getD_some]
  constructor
  · have hnonempty := (htile.start_le _ (hsublist.subset (List.getElem_mem hlength))).2
    rwa [hspan] at hnonempty
  · intro before hlt
    have hprecedes := List.pairwise_iff_getElem.1 (htile.pairwise_precedes.sublist hsublist)
      before position (Nat.lt_trans hlt hlength) hlength hlt
    rwa [hspan, hspan] at hprecedes

/-- Each token of a text ends behind the one in front of it, except for the end of the file. -/
theorem TokenStream.stop_lt_of_ofText {text file : String} {stream : TokenStream}
    (h : Token.ofText text file = .ok stream.tokens) {first second : Nat} (hlt : first < second)
    (hsize : second + 1 < stream.size) :
    (stream.token first).span.stop < (stream.token second).span.stop := by
  obtain ⟨hnonempty, hprecedes⟩ := TokenStream.precedes_of_ofText h hsize
  exact Int.lt_of_le_of_lt (hprecedes first hlt) hnonempty

end SableFrontend
