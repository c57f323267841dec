import SableFrontend.Proofs.Parallel.Layout

/-!
What messages call a source does not matter for how it is read. Under another name a text has the
same tokens at the same places (`Token.ofText_named`), and what parsing it gives differs by nothing
but the name in its spans (`parseSource_named`).
-/

namespace SableFrontend

variable {file name text : String}

/-- The same place in a source of another name. -/
def Relocation.named (name : String) : Relocation where
  onStart first := { first with file := name }
  onStop last := last

/-- The same progress in a source of another name. -/
def LexState.named (name : String) (state : LexState) : LexState where
  position := state.position
  opened := state.opened.map fun found =>
    { found with span := found.span.relocate (.named name) }
  tokens := state.tokens.map (Token.relocate (.named name))
  trivia := state.trivia.map fun passed =>
    { passed with span := passed.span.relocate (.named name) }

namespace LexState

variable {state next last : LexState}

theorem push_named (kind : TokenKind) (value : String) (span : Span) :
    (state.push kind value span).named name =
      (state.named name).push kind value (span.relocate (.named name)) := by
  simp [push, named, Token.relocate]

theorem skip_named (kind : TriviaKind) (span : Span) :
    (state.skip kind span).named name =
      (state.named name).skip kind (span.relocate (.named name)) := by
  simp [skip, named]

theorem newlineSignificant_named :
    (state.named name).newlineSignificant = state.newlineSignificant := by
  cases h : state.opened <;> simp [newlineSignificant, named, h]

theorem spanOf_named (file : String) (lexeme : Lexeme) (shown : List Char) :
    (state.named name).spanOf name lexeme shown =
      (state.spanOf file lexeme shown).relocate (.named name) := by
  cases lexeme <;> rfl

theorem record_named {lexeme : Lexeme} {span : Span} (h : state.record lexeme span = .ok next) :
    (state.named name).record lexeme (span.relocate (.named name)) = .ok (next.named name) := by
  cases lexeme with
  | lineBreak =>
    rw [record] at h ⊢
    rw [newlineSignificant_named]
    split at h
    · next hsignificant => cases h; rw [if_pos hsignificant, push_named]
    · next hsignificant => cases h; rw [if_neg hsignificant, skip_named]
  | trivia kind => cases h; rw [record, skip_named]
  | token kind value => cases h; rw [record, push_named]
  | opener bracket =>
    cases h
    rw [record]
    simp [push, named, Token.relocate]
  | closer bracket =>
    rw [record] at h ⊢
    split at h
    · cases h
    · next innermost outer hopened =>
      split at h
      · next hsame =>
        cases h
        simp [named, push, hopened, hsame, Token.relocate]
      · cases h

theorem step_named {first : Char} {rest : List Char} {extra : Nat}
    (h : state.step file first rest = .ok (next, extra)) :
    (state.named name).step name first rest = .ok (next.named name, extra) := by
  rw [step] at h ⊢
  split at h
  · next scanned hscan =>
    dsimp only at h ⊢
    split at h
    · next recorded hrecord =>
      cases h
      rw [spanOf_named file, record_named hrecord]
      rfl
    · cases h
  · cases h

theorem Turns.named {count : Nat} {text left : List Char}
    (h : Turns file count state text last left) :
    Turns name count (state.named name) text (last.named name) left := by
  induction h with
  | none state text => exact .none _ text
  | more hstep _ ih => exact .more (step_named hstep) ih

end LexState

/-- Under another name a text has the same tokens. -/
theorem Token.ofText_named {tokens : Array Token} (h : Token.ofText text file = .ok tokens) :
    Token.ofText text name = .ok (tokens.map (Token.relocate (.named name))) := by
  obtain ⟨count, last, hturns, hopened, rfl⟩ := Token.ofText_eq_ok h
  have hnamed : LexState.Turns name count (LexState.initial.named name) text.toList
      (last.named name) [] := hturns.named
  have hclosed : (last.named name).opened = [] := by
    rw [LexState.named, hopened]
    rfl
  have hrun := LexState.run_of_turns hnamed hclosed
  have hinitial : LexState.initial.named name = LexState.initial := by
    simp [LexState.named, LexState.initial]
  rw [hinitial] at hrun
  rw [Token.ofText, LexRun.ofText, hrun, Array.map_push]
  rfl

/-- Parsing a text under another name gives the same, but for the name in its spans. -/
theorem parseSource_named {tokens : Array Token} (h : Token.ofText text file = .ok tokens) :
    ParseResult.Moved (.named name) (parseSource text file) (parseSource text name) := by
  refine parseSource_of_relocated h (Token.ofText_named h) Array.toList_map ?_
  rw [Array.toList_map, ← List.map_tail, List.zipWith_map]
  rfl

end SableFrontend
