import SableFrontend.Proofs.Token.LexedStream
import SableFrontend.Proofs.Token.Lookahead

/-!
Texts with other blanks between their tokens. Blanks may come between two tokens that touched, and
where something was passed over between two tokens blanks take its place (`Spread`). Such a text has
the same tokens (`Token.ofText_spread`). Behind a token it goes on as before or with a gap, so it is
cut there as `Cut` says, and a token is read in the same way in front of a text that is cut. The
blanks of a gap are passed over in one turn.
-/

namespace SableFrontend

open Lexeme

/-- A text with the tokens of another text, the last of which is the end of the file, behind the token
that stands in front of them, if one does. There are blanks in front of each, and at least one blank
between two tokens that do not touch. -/
inductive Spread (text : List Char) : Option Token → List Token → List Char → Prop
  | last {before : Option Token} {token : Token} {gap : List Char}
      (hblank : gap.all isBlank = true) : Spread text before [token] gap
  | cons {before : Option Token} {token : Token} {rest : List Token} {gap other : List Char}
      (hblank : gap.all isBlank = true)
      (hgap : gap = [] → ∀ previous ∈ before, previous.touches token = true)
      (hrest : Spread text (some token) rest other) :
      Spread text before (token :: rest) (gap ++ (token.span.slice text ++ other))

/-- A token that is not the last one stands behind its gap, and the others behind it. -/
theorem Spread.exists_gap {text : List Char} {before : Option Token} {token : Token}
    {tokens : List Token} {other : List Char} (h : Spread text before (token :: tokens) other)
    (hne : tokens ≠ []) :
    ∃ gap more, other = gap ++ (token.span.slice text ++ more) ∧ gap.all isBlank = true ∧
      (gap = [] → ∀ previous ∈ before, previous.touches token = true) ∧
      Spread text (some token) tokens more := by
  cases h with
  | last => exact absurd rfl hne
  | cons hblank hgap hrest => exact ⟨_, _, rfl, hblank, hgap, hrest⟩

theorem Lexeme.isGap_of_blank {gap : List Char} (hblank : gap.all isBlank = true) :
    isGap gap = true := by
  cases gap with
  | nil => rfl
  | cons first rest =>
    rw [List.all_cons, Bool.and_eq_true] at hblank
    show isGapChar first = true
    rw [isGapChar, hblank.1]
    rfl

theorem Lexeme.isGap_append {gap : List Char} (hblank : gap.all isBlank = true) (hne : gap ≠ [])
    (more : List Char) : isGap (gap ++ more) = true := by
  cases gap with
  | nil => exact absurd rfl hne
  | cons first rest =>
    show isGap (first :: rest) = true
    exact isGap_of_blank hblank

namespace LexState

variable {file : String} {state last : LexState} {text left : List Char}

/-! ### Turns behind a gap -/

/-- A gap is passed over in one turn, and nothing but the place changes. -/
theorem exists_gapTurns (state : LexState) {gap : List Char} (hgap : gap.all isBlank = true)
    (more : List Char) (hmore : more.head?.any isBlank = false) :
    ∃ count mid, Turns file count state (gap ++ more) mid more ∧ mid.tokens = state.tokens ∧
      mid.brackets = state.brackets ∧ mid.position = state.position.after gap := by
  cases gap with
  | nil => exact ⟨0, state, .none state more, rfl, rfl, rfl⟩
  | cons first rest =>
    rw [List.all_cons, Bool.and_eq_true] at hgap
    obtain ⟨hfirst, hrest⟩ := hgap
    let passed : LexState :=
      { state.skip .blank (state.spanOf file (.trivia .blank) (first :: rest)) with
        position := state.position.after (first :: rest) }
    have hstep : state.step file first (rest ++ more) = .ok (passed, rest.length) := by
      unfold step
      rw [scan_blank hfirst hrest hmore]
      dsimp only
      rw [List.take_left]
      rfl
    have hdrop : (rest ++ more).drop rest.length = more := List.drop_left
    have hleft : Turns file 0 passed ((rest ++ more).drop rest.length) passed more := by
      rw [hdrop]
      exact .none passed more
    exact ⟨1, passed, .more hstep hleft, rfl, rfl, rfl⟩

/-- What one turn makes of the text it takes. Either it adds nothing and begins with a character of
gaps, or it adds a token, and the same token is read behind every gap, in front of every text that
is cut behind it. -/
inductive Turn (file : String) (state mid : LexState) (shown left : List Char) : Prop
  | nothing (hgap : isGap shown = true) (htokens : mid.tokens = state.tokens)
      (hbrackets : mid.brackets = state.brackets)
  | token (lexeme : Lexeme) (kind : TokenKind) (value : String) (hshows : lexeme.Shows shown)
      (htokens : mid.tokens = state.tokens.push
        { kind := kind, value := value, span := state.spanOf file lexeme shown })
      (hagain : ∀ {state' : LexState} {gap other : List Char}, state'.brackets = state.brackets →
        gap.all isBlank = true → Cut left other →
          ∃ (count : Nat) (start next : LexState),
            Turns file count state' (gap ++ (shown ++ other)) next other ∧
            start.position = state'.position.after gap ∧
            next.position = start.position.after shown ∧ next.brackets = mid.brackets ∧
            next.tokens = state'.tokens.push
              { kind := kind, value := value, span := start.spanOf file lexeme shown })

theorem step_turn {first : Char} {rest : List Char} {extra : Nat} {mid : LexState}
    (h : state.step file first rest = .ok (mid, extra)) :
    mid.position = state.position.after (first :: rest.take extra) ∧
      Turn file state mid (first :: rest.take extra) (rest.drop extra) := by
  obtain ⟨lexeme, added?, hscan, hposition, hadds, hnone, htrivia, halike⟩ := step_alike h
  refine ⟨hposition, ?_⟩
  cases hadds with
  | nothing htokens hopened =>
    refine .nothing ?_ htokens (congrArg (List.map OpenBracket.bracket) hopened)
    show isGapChar first = true
    rcases hnone rfl with rfl | ⟨kind, rfl⟩
    · obtain ⟨rfl, -⟩ := List.cons.inj (show first :: _ = ['\n'] from scan_shows hscan)
      rfl
    · exact isGapChar_of_isTrivia hscan rfl
  | token kind value htokens =>
    refine .token lexeme kind value (scan_shows hscan) htokens
      fun {state' gap other} hbrackets hblank hcut => ?_
    have hsolid : lexeme.isTrivia = false := by
      cases lexeme with
      | trivia kind => exact nomatch htrivia kind rfl
      | _ => rfl
    obtain ⟨shown, behind, rfl, hlength, hsame⟩ := scan_takes hscan hsolid
    replace hlength : shown.length = extra := hlength
    subst hlength
    rw [List.take_left] at *
    rw [List.drop_left] at *
    have hmore : (first :: (shown ++ other)).head?.any isBlank = false :=
      isBlank_eq_false hscan hsolid
    obtain ⟨count, start, hgap, htokens', hbrackets', hstart⟩ :=
      exists_gapTurns state' hblank _ hmore
    obtain ⟨next, hstep, hsameBrackets, hnext, hadds⟩ :=
      halike (hbrackets'.trans hbrackets) (hsame other hcut) List.take_left
    have hturn : Turns file 1 start (first :: (shown ++ other)) next other :=
      .more hstep (List.drop_left.symm ▸ .none next other)
    obtain ⟨count', hturns⟩ := hgap.trans hturn
    cases hadds with
    | token _ _ hpushed =>
      exact ⟨count', start, next, hturns, hstart, hnext, hsameBrackets, htokens' ▸ hpushed⟩

/-- What is read stands behind what has been read, and none of it starts further ahead. -/
theorem Turns.exists_added {count : Nat} (h : Turns file count state text last left) :
    ∃ added, last.tokens.toList = state.tokens.toList ++ added ∧
      ∀ token ∈ added ++ [.endAt file last.position],
        (state.position.offset : Int) ≤ token.span.start := by
  induction h with
  | none state =>
    refine ⟨[], (List.append_nil _).symm, fun token hmem => ?_⟩
    rw [List.mem_singleton.1 hmem]
    exact Int.le_refl _
  | @more _ extra state mid last first rest _ hstep _ ih =>
    obtain ⟨hposition, hturn⟩ := step_turn hstep
    obtain ⟨added, htokens, hstarts⟩ := ih
    have hforward : (state.position.offset : Int) ≤ mid.position.offset := by
      rw [hposition, Position.after_offset]
      omega
    cases hturn with
    | nothing _ hsame =>
      exact ⟨added, hsame ▸ htokens, fun token hmem => Int.le_trans hforward (hstarts token hmem)⟩
    | token lexeme kind value _ hsame =>
      rw [hsame, Array.toList_push, List.append_assoc] at htokens
      refine ⟨_, htokens, fun token hmem => ?_⟩
      rcases List.mem_cons.1 hmem with rfl | hmem
      · exact Int.le_of_eq (spanOf_start ..).symm
      · exact Int.le_trans hforward (hstarts token hmem)

/-! ### Behind a token -/

/-- Behind a token a spread text goes on with the same lexeme, or with a gap. -/
theorem Turns.cut {count : Nat} {source : List Char} (h : Turns file count state text last left)
    (hsource : text = source.drop state.position.offset) {added : List Token}
    (hadded : last.tokens.toList = state.tokens.toList ++ added) {previous : Token}
    (hstop : previous.span.stop = state.position.offset) {other : List Char}
    (hother : Spread source (some previous) (added ++ [.endAt file last.position]) other) :
    Cut text other := by
  induction h generalizing added previous other with
  | none state text =>
    obtain rfl : added = [] := List.self_eq_append_right.1 hadded
    cases hother with
    | last hblank => exact .gap (isGap_of_blank hblank)
    | cons _ _ hrest => cases hrest
  | @more count extra state mid last first rest left hstep hmore ih =>
    obtain ⟨hposition, hturn⟩ := step_turn hstep
    have hforward : (state.position.offset : Int) < mid.position.offset := by
      rw [hposition, Position.after_offset, List.length_cons]
      omega
    obtain ⟨added', hadded', hstarts⟩ := hmore.exists_added
    cases hturn with
    | nothing _ hsame =>
      -- something is passed over, so the next token starts further ahead
      rw [hsame] at hadded'
      obtain rfl : added = added' := List.append_cancel_left (hadded.symm.trans hadded')
      generalize added ++ [.endAt file last.position] = tokens at hother hstarts
      cases hother with
      | last hblank => exact .gap (isGap_of_blank hblank)
      | cons hblank hgap hrest =>
        refine .gap (isGap_append hblank (fun hnil => ?_) _)
        have htouches := beq_iff_eq.1 (hgap hnil previous rfl)
        have hstart := hstarts _ List.mem_cons_self
        omega
    | token lexeme kind value _ hsame =>
      have hcons := hadded'
      rw [hsame, Array.toList_push, List.append_assoc] at hcons
      obtain rfl : added = _ := List.append_cancel_left (hadded.symm.trans hcons)
      obtain ⟨gap, more, rfl, hblank, -, hrest⟩ := hother.exists_gap (by simp)
      have hsplit : source.drop state.position.offset =
          (first :: rest.take extra) ++ rest.drop extra := by
        rw [← hsource, List.cons_append, List.take_append_drop]
      have hmiddle : rest.drop extra = source.drop mid.position.offset := by
        rw [hposition, Position.after_offset, ← List.drop_drop, hsplit, List.drop_left]
      have hbehind : Cut (rest.drop extra) more := ih hmiddle hadded'
        (by rw [spanOf_stop, hposition, Position.after_offset]; omega) hrest
      rw [slice_spanOf state lexeme hsplit]
      cases gap with
      | nil =>
        rw [hsource, hsplit]
        exact hbehind.append _
      | cons c gap => exact .gap (isGap_append hblank nofun _)

/-- Reading a spread text gives the same tokens. -/
theorem Turns.spread {count : Nat} {source : List Char} (h : Turns file count state text last left)
    (hsource : text = source.drop state.position.offset) {added : List Token}
    (hadded : last.tokens.toList = state.tokens.toList ++ added) {before : Option Token}
    {other : List Char} (hother : Spread source before (added ++ [.endAt file last.position]) other)
    {state' : LexState} (hbrackets : state'.brackets = state.brackets) :
    ∃ count' last' added', Turns file count' state' other last' [] ∧
      last'.tokens.toList = state'.tokens.toList ++ added' ∧ last'.brackets = last.brackets ∧
      added'.map (fun token => (token.kind, token.value)) =
        added.map (fun token => (token.kind, token.value)) := by
  induction h generalizing added before other state' with
  | none state text =>
    obtain rfl : added = [] := List.self_eq_append_right.1 hadded
    cases hother with
    | @last _ _ gap hblank =>
      obtain ⟨count, last', hturns, htokens, hsame, -⟩ := exists_gapTurns state' hblank [] rfl
      rw [List.append_nil] at hturns
      exact ⟨count, last', [], hturns, by rw [htokens, List.append_nil], hsame.trans hbrackets, rfl⟩
    | cons _ _ hrest => cases hrest
  | @more count extra state mid last first rest left hstep hmore ih =>
    obtain ⟨hposition, hturn⟩ := step_turn hstep
    have hsplit : source.drop state.position.offset =
        (first :: rest.take extra) ++ rest.drop extra := by
      rw [← hsource, List.cons_append, List.take_append_drop]
    have hmiddle : rest.drop extra = source.drop mid.position.offset := by
      rw [hposition, Position.after_offset, ← List.drop_drop, hsplit, List.drop_left]
    cases hturn with
    | nothing _ hsame hsameBrackets =>
      exact ih hmiddle (hsame ▸ hadded) hother (hbrackets.trans hsameBrackets.symm)
    | token lexeme kind value _ hsame hagain =>
      obtain ⟨added', hadded', -⟩ := hmore.exists_added
      have hcons := hadded'
      rw [hsame, Array.toList_push, List.append_assoc] at hcons
      obtain rfl : added = _ := List.append_cancel_left (hadded.symm.trans hcons)
      obtain ⟨gap, more, rfl, hblank, -, hrest⟩ := hother.exists_gap (by simp)
      have hbehind : Cut (rest.drop extra) more := hmore.cut hmiddle hadded'
        (by rw [spanOf_stop, hposition, Position.after_offset]; omega) hrest
      obtain ⟨count₁, start, next, hturns, -, -, hnext, hpushed⟩ := hagain hbrackets hblank hbehind
      obtain ⟨count₂, last', added₂, hturns₂, hadded₂, hlast, hwords⟩ :=
        ih hmiddle hadded' hrest hnext
      obtain ⟨count', hall⟩ := hturns.trans hturns₂
      rw [slice_spanOf state lexeme hsplit]
      let token : Token :=
        { kind := kind, value := value, span := start.spanOf file lexeme (first :: rest.take extra) }
      refine ⟨count', last', token :: added₂, hall, ?_, hlast, congrArg (_ :: ·) hwords⟩
      rw [hadded₂, hpushed, Array.toList_push, List.append_assoc]
      rfl

end LexState

/-! ### Whole texts -/

/-- A spread text has the same tokens, but for their places. -/
theorem Token.ofText_spread {source other file : String} {tokens : Array Token}
    (h : Token.ofText source file = .ok tokens)
    (hother : Spread source.toList none tokens.toList other.toList) :
    ∃ tokens', Token.ofText other file = .ok tokens' ∧
      tokens'.map (fun token => (token.kind, token.value)) =
        tokens.map (fun token => (token.kind, token.value)) := by
  obtain ⟨count, last, hturns, hopened, rfl⟩ := Token.ofText_eq_ok h
  rw [Array.toList_push] at hother
  obtain ⟨count', last', added, hturns', hadded, hbrackets, hwords⟩ :=
    hturns.spread rfl (List.nil_append _).symm hother rfl
  have hclosed : last'.opened = [] := by
    unfold LexState.brackets at hbrackets
    rw [hopened] at hbrackets
    exact List.map_eq_nil_iff.1 hbrackets
  refine ⟨last'.tokens.push (.endAt file last'.position), ?_, ?_⟩
  · rw [Token.ofText, LexRun.ofText, LexState.run_of_turns hturns' hclosed]
    rfl
  · refine Array.ext' ?_
    rw [Array.toList_map, Array.toList_map, Array.toList_push, Array.toList_push, List.map_append,
      List.map_append, hadded, List.map_append, hwords]
    rfl

/-- Blanks are put around an operator, and a blank takes the place of a comment. -/
theorem exists_ofText_spread :
    ∃ tokens tokens', Token.ofText "a+b#c" "f" = .ok tokens ∧
      Spread "a+b#c".toList none tokens.toList "\ta + b ".toList ∧
      Token.ofText "\ta + b " "f" = .ok tokens' ∧
      tokens'.map (fun token => (token.kind, token.value)) =
        tokens.map (fun token => (token.kind, token.value)) := by
  have hslices : ((Token.ofText "a+b#c" "f").toOption.map fun tokens =>
      tokens.toList.map fun token => token.span.slice "a+b#c".toList) =
        some [['a'], ['+'], ['b'], []] := by decide +kernel
  cases h : Token.ofText "a+b#c" "f" with
  | error error =>
    rw [h] at hslices
    cases hslices
  | ok tokens =>
    rw [h] at hslices
    replace hslices : tokens.toList.map (fun token => token.span.slice "a+b#c".toList) = _ :=
      Option.some.inj hslices
    obtain ⟨left, tokens₁, htokens, hleft, hslices⟩ := List.map_eq_cons_iff.1 hslices
    obtain ⟨operator, tokens₂, rfl, hoperator, hslices⟩ := List.map_eq_cons_iff.1 hslices
    obtain ⟨right, tokens₃, rfl, hright, hslices⟩ := List.map_eq_cons_iff.1 hslices
    obtain ⟨last, tokens₄, rfl, -, hslices⟩ := List.map_eq_cons_iff.1 hslices
    obtain rfl := List.map_eq_nil_iff.1 hslices
    have hother : Spread "a+b#c".toList none tokens.toList "\ta + b ".toList := by
      have htext : "\ta + b ".toList = ['\t'] ++ (left.span.slice "a+b#c".toList ++
          ([' '] ++ (operator.span.slice "a+b#c".toList ++
            ([' '] ++ (right.span.slice "a+b#c".toList ++ [' ']))))) := by
        rw [hleft, hoperator, hright]
        decide +kernel
      rw [htokens, htext]
      exact .cons rfl nofun (.cons rfl nofun (.cons rfl nofun (.last rfl)))
    obtain ⟨tokens', hsame⟩ := Token.ofText_spread h hother
    exact ⟨tokens, tokens', rfl, hother, hsame⟩

end SableFrontend
