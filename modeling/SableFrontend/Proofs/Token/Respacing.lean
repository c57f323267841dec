import SableFrontend.Proofs.Token.Spreading
import SableFrontend.Proofs.Tree.Relocation

/-!
Texts that differ in what stands between their tokens. Where something was passed over in front of
a token there are blanks, and where nothing was there is nothing (`Respaced`). Reading such a text
gives the same tokens at other places (`Token.ofText_respaced`). It is a spread text, in which no gap
is added either, and `Token.Paired` says what the places therefore have in common: two neighbours
touch in one text if they touch in the other.
-/

namespace SableFrontend

open Lexeme

/-! ### Gaps between tokens -/

/-- A text with the given tokens of another text, from a place in that text on: in front of each
token stand blanks, at least one of them exactly where something stood in front of it. -/
inductive Respaced (text : List Char) : Int → List Token → List Char → Prop
  | nil (place : Int) : Respaced text place [] []
  | cons {place : Int} {token : Token} {rest : List Token} {gap other : List Char}
      (hblank : gap.all isBlank = true) (hgap : gap = [] ↔ token.span.start = place)
      (hrest : Respaced text token.span.stop rest other) :
      Respaced text place (token :: rest) (gap ++ (token.span.slice text ++ other))

/-- Whether gaps can stand in front of the given tokens, from a place on. -/
def Token.takeGaps (place : Int) : List Token → List (List Char) → Bool
  | [], [] => true
  | first :: rest, gap :: gaps =>
    gap.all isBlank && gap.isEmpty == (first.span.start == place) &&
      takeGaps first.span.stop rest gaps
  | _, _ => false

/-- The tokens of a text, each behind a gap. -/
def Token.respace (text : List Char) : List Token → List (List Char) → List Char
  | first :: rest, gap :: gaps => gap ++ (first.span.slice text ++ respace text rest gaps)
  | _, _ => []

theorem respaced_respace {text : List Char} {place : Int} {tokens : List Token}
    {gaps : List (List Char)} (h : Token.takeGaps place tokens gaps = true) :
    Respaced text place tokens (Token.respace text tokens gaps) := by
  induction tokens generalizing place gaps with
  | nil =>
    cases gaps with
    | nil => exact .nil place
    | cons => cases h
  | cons token rest ih =>
    cases gaps with
    | nil => cases h
    | cons gap gaps =>
      simp only [Token.takeGaps, Bool.and_eq_true, beq_iff_eq] at h
      obtain ⟨⟨hblank, hgap⟩, hrest⟩ := h
      refine .cons hblank ?_ (ih hrest)
      rw [← List.isEmpty_iff, hgap, beq_iff_eq]

theorem LexState.slice_endAt (text : List Char) (file : String) (position : Position) :
    (Token.endAt file position).span.slice text = [] := by
  show List.take (Int.toNat (position.offset - position.offset)) _ = []
  rw [Int.sub_self]
  rfl

/-- No gap is lost behind a token that ends at the place. -/
theorem Respaced.spread {text : List Char} {place : Int} {tokens : List Token} {other : List Char} {file : String}
    {position : Position} (h : Respaced text place (tokens ++ [.endAt file position]) other)
    {previous : Token} (hstop : previous.span.stop = place) :
    Spread text (some previous) (tokens ++ [.endAt file position]) other := by
  induction tokens generalizing place previous other with
  | nil =>
    cases h with
    | @cons _ _ _ gap _ hblank _ hrest =>
      cases hrest
      rw [LexState.slice_endAt, List.append_nil]
      rw [List.append_nil]
      exact .last hblank
  | cons token tokens ih =>
    cases h with
    | cons hblank hgap hrest =>
      refine .cons hblank (fun hnil before hbefore => ?_) (ih hrest rfl)
      cases hbefore
      exact beq_iff_eq.2 (hstop.trans (hgap.1 hnil).symm)

/-! ### The same tokens at other places -/

/-- Two lists of tokens that go on from two places: the same lexemes, with a gap in front of a token
in one text exactly where there is one in the other, up to the ends of both. -/
inductive Token.Paired (file : String) : Position → List Token → Position → List Token → Prop
  | last {place place' : Position} {gap gap' : List Char} (hgap : gap = [] ↔ gap' = []) :
      Paired file place [.endAt file (place.after gap)] place' [.endAt file (place'.after gap')]
  | cons {place place' : Position} {gap gap' : List Char} {state state' : LexState}
      {lexeme : Lexeme} {shown : List Char} {kind : TokenKind} {value : String}
      {tokens tokens' : List Token} (hgap : gap = [] ↔ gap' = [])
      (hstart : state.position = place.after gap) (hstart' : state'.position = place'.after gap')
      (hshows : lexeme.Shows shown) (hne : shown ≠ [])
      (hrest : Paired file (state.position.after shown) tokens (state'.position.after shown)
        tokens') :
      Paired file place
        ({ kind := kind, value := value, span := state.spanOf file lexeme shown } :: tokens) place'
        ({ kind := kind, value := value, span := state'.spanOf file lexeme shown } :: tokens')

namespace LexState

variable {file : String} {state last : LexState} {text left : List Char}

/-- Reading the tokens of a text behind other gaps gives the same tokens. -/
theorem Turns.respaced {count : Nat} {source : List Char}
    (h : Turns file count state text last left)
    (hsource : text = source.drop state.position.offset) {added : List Token}
    (hadded : last.tokens.toList = state.tokens.toList ++ added) {place : Position}
    {passed : List Char} (hplace : state.position = place.after passed) {other : List Char}
    (hother : Respaced source place.offset (added ++ [.endAt file last.position]) other)
    {state' : LexState} (hbrackets : state'.brackets = state.brackets) :
    ∃ count' last' added', Turns file count' state' other last' [] ∧
      last'.tokens.toList = state'.tokens.toList ++ added' ∧ last'.brackets = last.brackets ∧
      Token.Paired file place (added ++ [.endAt file last.position]) state'.position
        (added' ++ [.endAt file last'.position]) := by
  -- a token starts where the last one ended if nothing was passed over in between
  have htouches : ∀ {state : LexState} {place : Position} {passed : List Char},
      state.position = place.after passed →
        (passed = [] ↔ (state.position.offset : Int) = place.offset) := by
    intro state place passed hplace
    rw [hplace, Position.after_offset, ← List.length_eq_zero_iff]
    omega
  induction h generalizing added place passed other state' with
  | none state text =>
    obtain rfl : added = [] := List.self_eq_append_right.1 hadded
    cases hother with
    | @cons _ _ _ gap _ hblank hgap hrest =>
      cases hrest
      obtain ⟨count, last', hturns, htokens, hsame, hposition⟩ :=
        exists_gapTurns state' hblank [] rfl
      rw [slice_endAt, List.append_nil]
      refine ⟨count, last', [], hturns, by rw [htokens, List.append_nil], hsame.trans hbrackets, ?_⟩
      rw [hposition]
      have hpaired : Token.Paired file place [.endAt file (place.after passed)] state'.position
          [.endAt file (state'.position.after gap)] := .last ((htouches hplace).trans hgap.symm)
      rwa [← hplace] at hpaired
  | @more count extra state mid last first rest left hstep hmore ih =>
    obtain ⟨hposition, hturn⟩ := step_turn hstep
    have hsplit : source.drop state.position.offset =
        (first :: rest.take extra) ++ rest.drop extra := by
      rw [← hsource, List.cons_append, List.take_append_drop]
    have hmiddle : rest.drop extra = source.drop mid.position.offset := by
      rw [hposition, Position.after_offset, ← List.drop_drop, hsplit, List.drop_left]
    cases hturn with
    | nothing _ hsame hsameBrackets =>
      have hplace' : mid.position = place.after (passed ++ first :: rest.take extra) := by
        rw [hposition, hplace, Position.after_append]
      exact ih hmiddle (hsame ▸ hadded) hplace' hother (hbrackets.trans hsameBrackets.symm)
    | token lexeme kind value hshows hsame hagain =>
      obtain ⟨added', hadded', -⟩ := hmore.exists_added
      have hcons := hadded'
      rw [hsame, Array.toList_push, List.append_assoc] at hcons
      obtain rfl : added = _ := List.append_cancel_left (hadded.symm.trans hcons)
      cases hother with
      | @cons _ _ _ gap other hblank hgap hrest =>
        have hstop : (state.spanOf file lexeme (first :: rest.take extra)).stop =
            mid.position.offset := by
          rw [spanOf_stop, hposition, Position.after_offset]
          omega
        replace hrest : Respaced source mid.position.offset
          (added' ++ [.endAt file last.position]) other := hstop ▸ hrest
        let before : Token :=
          { kind := kind, value := value, span := state.spanOf file lexeme (first :: rest.take extra) }
        have hspread : Spread source (some before) _ other := hrest.spread hstop
        have hbehind := hmore.cut hmiddle hadded' hstop hspread
        obtain ⟨count₁, start, next, hturns₁, hstart, hnext, hnextBrackets, hpushed⟩ :=
          hagain hbrackets hblank hbehind
        obtain ⟨count₂, last', added₂, hturns₂, hadded₂, hlastBrackets, hpaired⟩ :=
          ih hmiddle hadded' (Position.after_nil _).symm hrest hnextBrackets
        obtain ⟨count', hall⟩ := hturns₁.trans hturns₂
        rw [slice_spanOf state lexeme hsplit]
        let token : Token :=
          { kind := kind, value := value, span := start.spanOf file lexeme (first :: rest.take extra) }
        refine ⟨count', last', token :: added₂, hall, ?_, hlastBrackets, ?_⟩
        · rw [hadded₂, hpushed, Array.toList_push, List.append_assoc]
          rfl
        · rw [hposition, hnext] at hpaired
          exact .cons ((htouches hplace).trans ((spanOf_start ..).symm ▸ hgap.symm)) hplace
            hstart hshows nofun hpaired

end LexState

namespace Token.Paired

variable {file : String} {place place' : Position} {tokens tokens' : List Token}

/-- The same tokens, but for their places. -/
theorem map_eq (h : Paired file place tokens place' tokens') :
    tokens'.map (fun token => (token.kind, token.value)) =
      tokens.map (fun token => (token.kind, token.value)) := by
  induction h with
  | last => rfl
  | cons _ _ _ _ _ _ ih => exact congrArg (_ :: ·) ih

/-- No token starts in front of the place. -/
theorem start_ge (h : Paired file place tokens place' tokens') :
    ∀ token ∈ tokens, (place.offset : Int) ≤ token.span.start ∧
      token.span.start ≤ token.span.stop := by
  induction h with
  | last =>
    intro token hmem
    rw [List.mem_singleton.1 hmem]
    show (_ : Int) ≤ ((Position.after _ _).offset : Int) ∧ _
    rw [Position.after_offset]
    exact ⟨by omega, Int.le_refl _⟩
  | cons hgap hstart hstart' hshows hne hrest ih =>
    intro token hmem
    rcases List.mem_cons.1 hmem with rfl | hmem
    · rw [LexState.spanOf_start, LexState.spanOf_stop, hstart, Position.after_offset]
      omega
    · obtain ⟨hle, hspan⟩ := ih token hmem
      rw [Position.after_offset, hstart, Position.after_offset] at hle
      exact ⟨by omega, hspan⟩

/-- Whether a token touches the first of the others is the same in both texts. -/
theorem touches_eq {left left' next next' : Token}
    (h : Paired file place (next :: tokens) place' (next' :: tokens'))
    (hleft : left.span.stop = place.offset) (hleft' : left'.span.stop = place'.offset) :
    left'.touches next' = left.touches next := by
  have hgap : ∀ {gap gap' : List Char}, (gap = [] ↔ gap' = []) →
      next.span.start = (place.after gap).offset → next'.span.start = (place'.after gap').offset →
        left'.touches next' = left.touches next := by
    intro gap gap' hgap hstart hstart'
    rw [touches, touches, Span.touches, Span.touches, hleft, hleft', hstart, hstart',
      Position.after_offset, Position.after_offset, Bool.eq_iff_iff, beq_iff_eq, beq_iff_eq]
    rw [← List.length_eq_zero_iff, ← List.length_eq_zero_iff] at hgap
    omega
  cases h with
  | last hsame => exact hgap hsame rfl rfl
  | cons hsame hstart hstart' =>
    exact hgap hsame ((LexState.spanOf_start ..).trans (by rw [hstart]))
      ((LexState.spanOf_start ..).trans (by rw [hstart']))

/-- Which neighbours touch is the same in both texts. -/
theorem zipWith_touches_eq (h : Paired file place tokens place' tokens') :
    List.zipWith touches tokens' tokens'.tail = List.zipWith touches tokens tokens.tail := by
  induction h with
  | last => rfl
  | @cons _ _ _ _ state state' lexeme shown kind value tokens tokens' _ _ _ _ _ hrest ih =>
    have hstop : ∀ state : LexState, ((state.spanOf file lexeme shown).stop : Int) =
        (state.position.after shown).offset := fun state => by
      rw [LexState.spanOf_stop, Position.after_offset, Int.natCast_add]
    cases tokens with
    | nil => cases hrest
    | cons next rest =>
      cases tokens' with
      | nil => cases hrest
      | cons next' rest' =>
        exact List.cons_eq_cons.2 ⟨hrest.touches_eq (hstop state) (hstop state'), ih⟩

/-- A token that stops where the tokens go on is the end of the file there. -/
theorem last_eq {r : Relocation} (h : Paired file place tokens place' tokens')
    (hmoved : tokens' = tokens.map (Token.relocate r)) {token : Token} (hmem : token ∈ tokens)
    (hstop : token.span.stop = place.offset) :
    token.span.last = ⟨place.line, place.column, place.offset⟩ ∧
      r.onStop token.span.last = ⟨place'.line, place'.column, place'.offset⟩ := by
  cases h with
  | @last _ _ gap gap' hgap =>
    obtain rfl := List.mem_singleton.1 hmem
    replace hstop : ((place.after gap).offset : Int) = place.offset := hstop
    rw [Position.after_offset] at hstop
    obtain rfl : gap = [] := List.length_eq_zero_iff.1 (by omega)
    obtain rfl := hgap.1 rfl
    refine ⟨rfl, ?_⟩
    have hspan := congrArg Token.span (List.cons.inj hmoved).1
    exact (congrArg Span.last hspan).symm
  | cons hgap hstart hstart' hshows hne hrest =>
    exfalso
    rw [← List.length_pos_iff] at hne
    rcases List.mem_cons.1 hmem with rfl | hmem
    · rw [LexState.spanOf_stop, hstart, Position.after_offset] at hstop
      omega
    · obtain ⟨hle, hspan⟩ := hrest.start_ge token hmem
      rw [Position.after_offset, hstart, Position.after_offset] at hle
      omega

/-- The tokens of one text are those of the other, moved. -/
theorem exists_relocation (h : Paired file place tokens place' tokens') :
    ∃ r : Relocation, tokens' = tokens.map (Token.relocate r) := by
  classical
  induction h with
  | @last place place' gap gap' =>
    exact ⟨⟨fun _ => (Token.endAt file (place'.after gap')).span.first,
      fun _ => (Token.endAt file (place'.after gap')).span.last⟩, rfl⟩
  | @cons place place' gap gap' state state' lexeme shown kind value tokens tokens' hgap hstart
      hstart' hshows hne hrest ih =>
    obtain ⟨r, hmoved⟩ := ih
    let span := state.spanOf file lexeme shown
    let span' := state'.spanOf file lexeme shown
    -- the first token is moved to its place, and the others as before
    let update : Relocation := {
      onStart := fun first => if first = span.first then span'.first else r.onStart first
      onStop := fun last => if last = span.last then span'.last else r.onStop last }
    have hstop : span.stop = (state.position.after shown).offset := by
      rw [LexState.spanOf_stop, Position.after_offset, Int.natCast_add]
    have hupdate : ∀ token ∈ tokens, token.relocate update = token.relocate r := by
      intro token hmem
      have hfirst : token.span.first ≠ span.first := fun heq => by
        have hle := (hrest.start_ge token hmem).1
        have hsame : token.span.start = span.start := congrArg SpanStart.offset heq
        rw [hsame, LexState.spanOf_start, Position.after_offset] at hle
        rw [← List.length_pos_iff] at hne
        omega
      have hlast : update.onStop token.span.last = r.onStop token.span.last := by
        show (if token.span.last = span.last then span'.last else r.onStop token.span.last) = _
        split
        · next heq =>
          have hsame : token.span.stop = span.stop := congrArg SpanStop.offset heq
          obtain ⟨hleft, hright⟩ := hrest.last_eq hmoved hmem (hsame.trans hstop)
          rw [hright]
          have hline := heq.symm.trans hleft
          cases lexeme with
          | lineBreak =>
            -- a line break keeps its span on the line that it ends
            obtain rfl : shown = ['\n'] := hshows
            have hbreak : (state.position.line : Int) = (state.position.line + 1 : Nat) :=
              congrArg SpanStop.line hline
            omega
          | _ => rfl
        · rfl
      have hstart : update.onStart token.span.first = r.onStart token.span.first := if_neg hfirst
      unfold relocate Span.relocate
      rw [hstart, hlast]
    refine ⟨update, List.cons_eq_cons.2 ⟨?_, ?_⟩⟩
    · have hfirst : update.onStart span.first = span'.first := if_pos rfl
      have hlast : update.onStop span.last = span'.last := if_pos rfl
      show _ = { kind := kind, value := value, span := span.relocate update : Token }
      unfold Span.relocate
      rw [hfirst, hlast]
      rfl
    · rw [hmoved]
      exact List.map_congr_left fun token hmem => (hupdate token hmem).symm

end Token.Paired

/-- A text with other gaps between the tokens of a text has the same tokens. -/
theorem Token.ofText_respaced {source other file : String} {tokens : Array Token}
    (h : Token.ofText source file = .ok tokens)
    (hother : Respaced source.toList 0 tokens.toList other.toList) :
    ∃ tokens', Token.ofText other file = .ok tokens' ∧
      Token.Paired file .origin tokens.toList .origin tokens'.toList := by
  obtain ⟨count, last, hturns, hopened, rfl⟩ := Token.ofText_eq_ok h
  rw [Array.toList_push] at hother
  obtain ⟨count', last', added, hturns', hadded, hbrackets, hpaired⟩ :=
    hturns.respaced rfl (List.nil_append _).symm (Position.after_nil _).symm hother rfl
  have hclosed : last'.opened = [] := by
    unfold LexState.brackets at hbrackets
    rw [hopened] at hbrackets
    exact List.map_eq_nil_iff.1 hbrackets
  refine ⟨last'.tokens.push (.endAt file last'.position), ?_, ?_⟩
  · rw [Token.ofText, LexRun.ofText, LexState.run_of_turns hturns' hclosed]
    rfl
  · rw [Array.toList_push, Array.toList_push, hadded]
    exact hpaired

end SableFrontend
