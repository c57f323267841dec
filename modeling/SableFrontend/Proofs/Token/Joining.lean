import SableFrontend.Proofs.Token.LexedStream
import SableFrontend.Proofs.Token.Lookahead
import SableFrontend.Proofs.Tree.Relocation

/-!
Texts that are read one behind the other. A line break in between ends every lexeme, and nothing is
open behind the first text if it can be read, so its tokens stay what they are (`Turns.append`). The
second text is read as it would be read alone, some lines further down (`Turns.shifted`).
-/

namespace SableFrontend

/-! ### Further down -/

/-- So many lines and characters further on. Columns stay. -/
def Relocation.shift (lines offset : Nat) : Relocation where
  onStart first := { first with line := first.line + lines, offset := first.offset + offset }
  onStop last := { last with line := last.line + lines, offset := last.offset + offset }

/-- The same place, so many lines and characters further on. -/
def Position.shift (position : Position) (lines offset : Nat) : Position where
  offset := position.offset + offset
  line := position.line + lines
  column := position.column

theorem Position.shift_after (position : Position) (lines offset : Nat) (text : List Char) :
    (position.shift lines offset).after text = (position.after text).shift lines offset := by
  induction text generalizing position with
  | nil => rfl
  | cons c rest ih =>
    have hadvance : (position.shift lines offset).advance c =
        (position.advance c).shift lines offset := by
      unfold advance shift
      split <;> simp only [Position.mk.injEq, and_true] <;> omega
    rw [after_cons, after_cons, hadvance, ih]

/-- A line break is the only character that leads to another line. -/
theorem Position.after_line (position : Position) (text : List Char) :
    (position.after text).line = position.line + text.count '\n' := by
  induction text generalizing position with
  | nil => rfl
  | cons c rest ih =>
    rw [after_cons, ih, List.count_cons]
    unfold advance
    split
    · next heq =>
      subst heq
      simp only [beq_self_eq_true, if_true]
      omega
    · next hne =>
      have hother : (c == '\n') = false := by simpa using hne
      simp [hother]

theorem Span.between_shift (file : String) (first last : Position) (lines offset : Nat) :
    between file (first.shift lines offset) (last.shift lines offset) =
      (between file first last).relocate (.shift lines offset) := by
  unfold between Position.shift relocate ofEnds Relocation.shift Span.first Span.last
  simp

namespace LexState

variable {file : String} {state other next last : LexState} {first : Char} {rest left : List Char}
  {extra lines offset : Nat}

theorem spanOf_shift (hposition : other.position = state.position.shift lines offset)
    (lexeme : Lexeme) (text : List Char) :
    other.spanOf file lexeme text =
      (state.spanOf file lexeme text).relocate (.shift lines offset) := by
  unfold spanOf
  rw [hposition, Position.shift_after, Span.between_shift]
  cases lexeme <;> rfl

/-! ### In front of a line break -/

/-- One turn in front of a line break is the same as at the end of the text. -/
theorem step_append (h : state.step file first rest = .ok (next, extra)) {more : List Char}
    (hmore : more.head? = some '\n') :
    state.step file first (rest ++ more) = .ok (next, extra) ∧ extra ≤ rest.length := by
  have hstep := h
  obtain ⟨lexeme, _, hscan, -, -⟩ := step_eq_ok h
  obtain ⟨hscan', hle⟩ := Lexeme.scan_append hscan hmore
  rw [step, hscan] at hstep
  rw [step, hscan']
  dsimp only at hstep hle ⊢
  rw [List.take_append_of_le_length hle]
  exact ⟨hstep, hle⟩

theorem Turns.append {count : Nat} {text : List Char} (h : Turns file count state text last left)
    {more : List Char} (hmore : more.head? = some '\n') :
    Turns file count state (text ++ more) last (left ++ more) := by
  induction h with
  | none state text => exact .none state _
  | @more _ extra _ _ _ _ rest _ hstep _ ih =>
    obtain ⟨hstep', hle⟩ := step_append hstep hmore
    have hdrop : (rest ++ more).drop extra = rest.drop extra ++ more :=
      List.drop_append_of_le_length hle
    exact .more hstep' (hdrop ▸ ih)

/-- Reading comes to the place behind the characters that it has taken. -/
theorem Turns.position_after {count : Nat} {text : List Char}
    (h : Turns file count state text last left) :
    last.position.after left = state.position.after text := by
  induction h with
  | none => rfl
  | more hstep _ ih =>
    obtain ⟨_, _, -, -, rfl⟩ := step_eq_ok hstep
    rw [ih, ← Position.after_append, List.cons_append, List.take_append_drop]

/-! ### Behind a line break -/

/-- Reading has come as far as elsewhere, but so many lines and characters further on, and behind
some other tokens. -/
structure Shifted (before : List Token) (lines offset : Nat) (state other : LexState) : Prop where
  position_eq : other.position = state.position.shift lines offset
  brackets_eq : other.brackets = state.brackets
  tokens_eq : other.tokens.toList =
    before ++ state.tokens.toList.map (Token.relocate (.shift lines offset))

theorem Shifted.step {before : List Token} (h : Shifted before lines offset state other)
    (hstep : state.step file first rest = .ok (next, extra)) :
    ∃ next', other.step file first rest = .ok (next', extra) ∧
      Shifted before lines offset next next' := by
  obtain ⟨lexeme, added, hscan, hposition, hadds, -, -, halike⟩ := step_alike hstep
  obtain ⟨next', hstep', hbrackets, hposition', hadds'⟩ := halike h.brackets_eq hscan rfl
  refine ⟨next', hstep', ?_, hbrackets, ?_⟩
  · rw [hposition', hposition, h.position_eq]
    exact Position.shift_after ..
  · cases hadds with
    | nothing htokens =>
      cases hadds' with
      | nothing htokens' => rw [htokens, htokens', h.tokens_eq]
    | token kind value htokens =>
      cases hadds' with
      | token _ _ htokens' =>
        rw [htokens, htokens', Array.toList_push, Array.toList_push, h.tokens_eq, List.map_append,
          List.append_assoc, spanOf_shift h.position_eq]
        rfl

theorem Turns.shifted {count : Nat} {text : List Char} {before : List Token}
    (h : Turns file count state text last left) (hshifted : Shifted before lines offset state other) :
    ∃ last', Turns file count other text last' left ∧ Shifted before lines offset last last' := by
  induction h generalizing other with
  | none => exact ⟨other, .none other _, hshifted⟩
  | more hstep _ ih =>
    obtain ⟨next', hstep', hnext⟩ := hshifted.step hstep
    obtain ⟨last', hrest, hlast⟩ := ih hnext
    exact ⟨last', .more hstep' hrest, hlast⟩

end LexState

/-- The tokens of two texts with a line break between them. -/
theorem Token.ofText_join {first second file : String} {tokens tokens' : Array Token}
    (h : Token.ofText first file = .ok tokens) (h' : Token.ofText second file = .ok tokens') :
    ∃ joined span, Token.ofText (first ++ "\n" ++ second) file = .ok joined ∧
      joined.toList = tokens.toList.dropLast ++
        { kind := .newline, value := "\n", span := span } ::
          tokens'.toList.map (Token.relocate
            (.shift (first.toList.count '\n' + 1) (first.length + 1))) := by
  obtain ⟨count, last, hturns, hopened, rfl⟩ := Token.ofText_eq_ok h
  obtain ⟨count', last', hturns', hopened', rfl⟩ := Token.ofText_eq_ok h'
  -- the first text, and the line break behind it
  have hbefore : LexState.Turns file count .initial (first.toList ++ '\n' :: second.toList) last
      ([] ++ '\n' :: second.toList) := hturns.append rfl
  rw [List.nil_append] at hbefore
  have hsignificant : last.newlineSignificant = true := by
    rw [LexState.newlineSignificant, hopened]
  let span := last.spanOf file .lineBreak ['\n']
  let middle : LexState :=
    { last.push .newline "\n" span with position := last.position.after ['\n'] }
  have hstep : last.step file '\n' second.toList = .ok (middle, 0) := by
    unfold LexState.step
    rw [show Lexeme.scan '\n' second.toList = .ok { lexeme := .lineBreak, extra := 0 } from rfl]
    dsimp only
    rw [LexState.record, if_pos hsignificant]
    rfl
  -- the second text, so many lines further down
  have hposition : last.position = Position.origin.after first.toList := hturns.position_after
  have hplace : middle.position =
      Position.origin.shift (first.toList.count '\n' + 1) (first.length + 1) := by
    have hoffset := Position.after_offset .origin first.toList
    have hline := Position.after_line .origin first.toList
    rw [← hposition] at hoffset hline
    show last.position.advance '\n' = _
    rw [Position.advance, if_pos rfl, hoffset, hline, String.length_toList]
    unfold Position.shift Position.origin
    simp only [Position.mk.injEq, and_true]
    omega
  have hshifted : LexState.Shifted (last.tokens.toList ++
      [{ kind := .newline, value := "\n", span := span }]) (first.toList.count '\n' + 1)
      (first.length + 1) .initial middle :=
    ⟨hplace, congrArg (List.map OpenBracket.bracket) hopened, by simp [middle, LexState.push, LexState.initial]⟩
  obtain ⟨final, hafter, hfinal⟩ := hturns'.shifted hshifted
  have hclosed : final.opened = [] := by
    have hbrackets := hfinal.brackets_eq
    unfold LexState.brackets at hbrackets
    rw [hopened'] at hbrackets
    exact List.map_eq_nil_iff.1 hbrackets
  obtain ⟨_, hall⟩ := hbefore.trans (.more hstep hafter)
  have hrun := LexState.run_of_turns hall hclosed
  refine ⟨final.tokens.push (.endAt file final.position), span, ?_, ?_⟩
  · rw [Token.ofText, LexRun.ofText, String.toList_append, String.toList_append, List.append_assoc]
    show (LexState.run file .initial (first.toList ++ '\n' :: second.toList)).toExcept = _
    rw [hrun]
    rfl
  · rw [Array.toList_push, Array.toList_push, Array.toList_push, hfinal.tokens_eq,
      List.dropLast_concat, List.map_append, hfinal.position_eq]
    simp only [List.append_assoc, List.cons_append, List.map_cons, List.map_nil]
    rw [Token.endAt, Span.between_shift]
    rfl

end SableFrontend
