import SableFrontend.Proofs.Token.Tiling

/-!
Where the tokens of a text stand. The lines and columns of a token are those of its offsets, with
one exception: the span of a line break stays on the line that the break ends. Tokens follow one
another, and only the end of the file takes up nothing.
-/

namespace SableFrontend

/-! ### Places -/

namespace Position

/-- The place in a text behind so many of its characters. -/
def inText (text : List Char) (offset : Nat) : Position := origin.after (text.take offset)

/-- A place stands in front of another one, or at it, as lines and columns tell. -/
def Leads (first second : Position) : Prop :=
  first.line < second.line ∨ first.line = second.line ∧ first.column ≤ second.column

theorem offset_inText {text : List Char} {offset : Nat} (h : offset ≤ text.length) :
    (inText text offset).offset = offset := by
  rw [inText, after_offset, List.length_take_of_le h]
  exact Nat.zero_add _

theorem Leads.trans {first second third : Position} (h : first.Leads second)
    (h' : second.Leads third) : first.Leads third := by
  unfold Leads at *
  omega

/-- Reading goes forward. -/
theorem leads_after (place : Position) (text : List Char) : place.Leads (place.after text) := by
  induction text generalizing place with
  | nil => exact Or.inr ⟨rfl, Nat.le_refl _⟩
  | cons c rest ih =>
    have hadvance : place.Leads (place.advance c) := by
      unfold advance
      split
      · exact Or.inl (Nat.lt_succ_self _)
      · exact Or.inr ⟨rfl, Nat.le_succ _⟩
    exact hadvance.trans (ih _)

/-- Lines and columns count from 1. -/
theorem one_le_after {place : Position} (h : 1 ≤ place.line ∧ 1 ≤ place.column) (text : List Char) :
    1 ≤ (place.after text).line ∧ 1 ≤ (place.after text).column := by
  induction text generalizing place with
  | nil => exact h
  | cons c rest ih =>
    apply ih
    unfold advance
    split <;> simp [h]

theorem one_le_inText (text : List Char) (offset : Nat) :
    1 ≤ (inText text offset).line ∧ 1 ≤ (inText text offset).column :=
  one_le_after (by decide) _

/-- Places of a text are in order if their offsets are. -/
theorem leads_inText (text : List Char) {offset offset' : Nat} (hle : offset ≤ offset') :
    (inText text offset).Leads (inText text offset') := by
  obtain ⟨count, rfl⟩ := Nat.exists_eq_add_of_le hle
  rw [inText, inText, List.take_add, after_append]
  exact leads_after _ _

end Position

/-! ### Spans -/

namespace Span

/-- A span starts at a place. -/
def StartsAt (span : Span) (place : Position) : Prop :=
  span.start = place.offset ∧ span.startLine = place.line ∧ span.startColumn = place.column

/-- A span ends at a place. -/
def StopsAt (span : Span) (place : Position) : Prop :=
  span.stop = place.offset ∧ span.endLine = place.line ∧ span.endColumn = place.column

/-- A span of a text. Its lines and columns are those of its offsets. -/
structure IsIn (span : Span) (text : List Char) : Prop where
  nonneg : 0 ≤ span.start
  le : span.start ≤ span.stop
  stop_le : span.stop ≤ text.length
  startsAt : span.StartsAt (.inText text span.start.toNat)
  stopsAt : span.StopsAt (.inText text span.stop.toNat)

end Span

/-- A span between two places of a text. -/
theorem Span.isIn_between (file : String) {text : List Char} {first last : Position}
    (hfirst : first = .inText text first.offset) (hlast : last = .inText text last.offset)
    (hle : first.offset ≤ last.offset) (hlength : last.offset ≤ text.length) :
    (Span.between file first last).IsIn text where
  nonneg := Int.natCast_nonneg _
  le := Int.ofNat_le.2 hle
  stop_le := Int.ofNat_le.2 hlength
  startsAt := by simp [Span.between, Span.StartsAt, ← hfirst]
  stopsAt := by simp [Span.between, Span.StopsAt, ← hlast]

/-- A token stands in a text. If it is a line break, its span may stay on its line. -/
structure Token.StandsIn (token : Token) (text : List Char) : Prop where
  nonneg : 0 ≤ token.span.start
  le : token.span.start ≤ token.span.stop
  stop_le : token.span.stop ≤ text.length
  startsAt : token.span.StartsAt (.inText text token.span.start.toNat)
  stopsAt : token.span.StopsAt (.inText text token.span.stop.toNat) ∨
    token.kind = .newline ∧ token.span.endLine = token.span.startLine ∧
      token.span.endColumn = token.span.startColumn + 1

theorem Token.standsIn_of_isIn {text : List Char} {token : Token} (h : token.span.IsIn text) :
    token.StandsIn text :=
  ⟨h.nonneg, h.le, h.stop_le, h.startsAt, Or.inl h.stopsAt⟩

/-! ### Tokens as they are read -/

namespace LexState

variable {file : String} {text left shown : List Char} {state next recorded last : LexState}

/-- Reading has come to a place of a text, and the tokens so far stand in it. -/
structure Stands (text : List Char) (state : LexState) : Prop where
  position_eq : state.position = .inText text state.position.offset
  offset_le : state.position.offset ≤ text.length
  tokens : ∀ token ∈ state.tokens, token.StandsIn text

/-- The span of a lexeme of a text. -/
theorem standsIn_spanOf (hstart : state.position = .inText text state.position.offset)
    (hstop : state.position.after shown = .inText text (state.position.after shown).offset)
    (hle : (state.position.after shown).offset ≤ text.length) {lexeme : Lexeme} {kind : TokenKind}
    (hkind : lexeme = .lineBreak → kind = .newline) (value : String) :
    Token.StandsIn { kind := kind, value := value, span := state.spanOf file lexeme shown } text := by
  have hforward : state.position.offset ≤ (state.position.after shown).offset := by simp
  have hbetween := Span.isIn_between file hstart hstop hforward hle
  cases lexeme with
  | lineBreak =>
    exact {
      nonneg := hbetween.nonneg
      le := hbetween.le
      stop_le := hbetween.stop_le
      startsAt := hbetween.startsAt
      stopsAt := Or.inr ⟨hkind rfl, rfl, rfl⟩ }
  | _ => exact Token.standsIn_of_isIn hbetween

theorem Records.standsIn {lexeme : Lexeme}
    (hrecords : state.Records lexeme (state.spanOf file lexeme shown) recorded)
    (hspan : ∀ kind value, (lexeme = .lineBreak → kind = .newline) → Token.StandsIn
      { kind := kind, value := value, span := state.spanOf file lexeme shown } text)
    (h : ∀ token ∈ state.tokens, token.StandsIn text) :
    ∀ token ∈ recorded.tokens, token.StandsIn text := by
  intro token hmem
  cases hrecords with
  | skipped => exact h token hmem
  | newline =>
    rcases Array.mem_push.1 hmem with hold | rfl
    · exact h token hold
    · exact hspan _ _ fun _ => rfl
  | token kind value hlexeme =>
    rcases Array.mem_push.1 hmem with hold | rfl
    · exact h token hold
    · exact hspan _ _ fun hbreak => by simp [hlexeme] at hbreak
  | opener bracket hlexeme =>
    rcases Array.mem_push.1 hmem with hold | rfl
    · exact h token hold
    · exact hspan _ _ fun hbreak => by simp [hlexeme] at hbreak
  | closer innermost outer _ hlexeme =>
    rcases Array.mem_push.1 hmem with hold | rfl
    · exact h token hold
    · exact hspan _ _ fun hbreak => by simp [hlexeme] at hbreak

theorem step_stands {first : Char} {rest : List Char} {extra : Nat}
    (hstep : state.step file first rest = .ok (next, extra))
    (hleft : first :: rest = text.drop state.position.offset)
    (h : Stands text state) : Stands text next := by
  obtain ⟨lexeme, recorded, -, hrecords, rfl⟩ := step_eq_ok hstep
  generalize hshown : first :: rest.take extra = shown at hrecords
  have htaken : shown = (text.drop state.position.offset).take shown.length := by
    rw [← hleft, ← hshown]
    simp
  have hstop : state.position.after shown = .inText text (state.position.after shown).offset := by
    rw [Position.after_offset, Position.inText, List.take_add, Position.after_append,
      ← Position.inText, ← h.position_eq, ← htaken]
  have hle : (state.position.after shown).offset ≤ text.length := by
    have hlength := congrArg List.length htaken
    have hfirst := congrArg List.length hleft
    simp at hlength hfirst ⊢
    omega
  exact {
    position_eq := hstop
    offset_le := hle
    tokens := hrecords.standsIn (fun _ value hkind =>
      standsIn_spanOf h.position_eq hstop hle hkind value) h.tokens }

theorem Turns.stands {count : Nat} (h : Turns file count initial text last left) :
    Stands text last := by
  have hboth : Reads text last left ∧ Stands text last := by
    refine h.invariant (motive := fun state left => Reads text state left ∧ Stands text state)
      (fun _ _ _ _ _ hstep ⟨hreads, hstands⟩ =>
        ⟨step_reads hstep hreads, step_stands hstep hreads.left_eq hstands⟩) ⟨?_, ?_⟩
    · exact ⟨rfl, fun token hmem => absurd hmem (Array.not_mem_empty token)⟩
    · exact ⟨rfl, Nat.zero_le _, fun token hmem => absurd hmem (Array.not_mem_empty token)⟩
  exact hboth.2

end LexState

/-! ### Tokens of a stream -/

namespace TokenStream

variable {text file : String} {stream : TokenStream} {position : Nat}

/-- Every token of a text stands in it. -/
theorem standsIn_of_ofText (h : Token.ofText text file = .ok stream.tokens)
    (hlt : position < stream.size) : (stream.token position).StandsIn text.toList := by
  obtain ⟨count, last, hturns, -, htokens⟩ := Token.ofText_eq_ok h
  have hstands := hturns.stands
  have hmem : stream.token position ∈ stream.tokens := by
    rw [token, Array.getElem?_eq_getElem hlt]
    exact Array.getElem_mem hlt
  rw [htokens] at hmem
  rcases Array.mem_push.1 hmem with hold | hend
  · exact hstands.tokens _ hold
  · rw [hend]
    exact Token.standsIn_of_isIn
      (Span.isIn_between file hstands.position_eq hstands.position_eq (Nat.le_refl _)
        hstands.offset_le)

/-- Tokens of a text do not overlap. -/
theorem stop_le_start_of_ofText (h : Token.ofText text file = .ok stream.tokens)
    {before : Nat} (hbefore : before < position) (hlt : position < stream.size) :
    (stream.token before).span.stop ≤ (stream.token position).span.start := by
  by_cases hsize : position + 1 < stream.size
  · exact (precedes_of_ofText h hsize).2 before hbefore
  · -- the end of the file stands behind the whole text
    obtain ⟨count, last, hturns, -, htokens⟩ := Token.ofText_eq_ok h
    have hend : stream.token position = .endAt file last.position := by
      have hposition : position = last.tokens.size := by
        simp only [size, htokens, Array.size_push] at hsize hlt
        omega
      simp [token, htokens, hposition]
    have hoffset := hturns.offset_add_length
    have hstop := (standsIn_of_ofText h (Nat.lt_trans hbefore hlt)).stop_le
    rw [hend]
    simp [Token.endAt, Span.between, LexState.initial, Position.origin] at hoffset ⊢
    omega

/-- Tokens of a text start in order. -/
theorem start_le_of_ofText (h : Token.ofText text file = .ok stream.tokens) {before : Nat}
    (hle : before ≤ position) (hlt : position < stream.size) :
    (stream.token before).span.start ≤ (stream.token position).span.start := by
  rcases Nat.eq_or_lt_of_le hle with rfl | hbefore
  · exact Int.le_refl _
  · exact Int.le_trans (standsIn_of_ofText h (Nat.lt_trans hbefore hlt)).le
      (stop_le_start_of_ofText h hbefore hlt)

/-- Tokens of a text end in order. -/
theorem stop_le_of_ofText (h : Token.ofText text file = .ok stream.tokens) {before : Nat}
    (hle : before ≤ position) (hlt : position < stream.size) :
    (stream.token before).span.stop ≤ (stream.token position).span.stop := by
  rcases Nat.eq_or_lt_of_le hle with rfl | hbefore
  · exact Int.le_refl _
  · exact Int.le_trans (stop_le_start_of_ofText h hbefore hlt) (standsIn_of_ofText h hlt).le

end TokenStream

end SableFrontend
