import SableFrontend.Token.Lexing

/-!
The turns of the loop that reads a text as tokens. `Turns` follows the loop one lexeme at a time;
`exists_turns` says that every run is such a sequence of turns, followed either by the end of the
text or by a lexeme that cannot be read, and `Turns.count_add_length` that there are no more turns
than characters. What holds after a run is proved as an invariant of one turn
(`Turns.invariant`), and what one turn can do is said once, by `step_eq_ok` and `record_eq_ok`.
-/

namespace SableFrontend

/-- The token that an open delimiter was read as. -/
def OpenBracket.token (opened : OpenBracket) : Token :=
  { kind := .opener opened.bracket, value := opened.bracket.openText, span := opened.span }

namespace LexState

variable {file : String}

/-! ### What one turn can do -/

/-- Recording a lexeme adds one token or one stretch of trivia, at the span of the lexeme. An
opener is put on the stack, and a closer takes the delimiter that it fits off the stack. -/
inductive Records (state : LexState) (lexeme : Lexeme) (span : Span) : LexState → Prop
  | skipped (kind : TriviaKind) (hlexeme : lexeme = .trivia kind ∨
        lexeme = .lineBreak ∧ kind = .newline ∧ state.newlineSignificant = false) :
      Records state lexeme span (state.skip kind span)
  | newline (hlexeme : lexeme = .lineBreak) (hsignificant : state.newlineSignificant = true) :
      Records state lexeme span (state.push .newline "\n" span)
  | token (kind : TokenKind) (value : String) (hlexeme : lexeme = .token kind value) :
      Records state lexeme span (state.push kind value span)
  | opener (bracket : Bracket) (hlexeme : lexeme = .opener bracket) :
      Records state lexeme span
        { state.push (.opener bracket) bracket.openText span with
          opened := { bracket := bracket, span := span } :: state.opened }
  | closer (innermost : OpenBracket) (outer : List OpenBracket)
      (hopened : state.opened = innermost :: outer)
      (hlexeme : lexeme = .closer innermost.bracket) :
      Records state lexeme span
        { state.push (.closer innermost.bracket) innermost.bracket.closeText span with
          opened := outer }

theorem record_eq_ok {state next : LexState} {lexeme : Lexeme} {span : Span}
    (h : state.record lexeme span = .ok next) : state.Records lexeme span next := by
  unfold record at h
  cases lexeme with
  | lineBreak =>
    dsimp only at h
    split at h
    · next hsignificant =>
      cases h
      exact .newline rfl hsignificant
    · next hblank =>
      cases h
      exact .skipped _ (Or.inr ⟨rfl, rfl, Bool.eq_false_iff.2 hblank⟩)
  | trivia kind =>
    cases h
    exact .skipped kind (Or.inl rfl)
  | token kind value =>
    cases h
    exact .token kind value rfl
  | opener bracket =>
    cases h
    exact .opener bracket rfl
  | closer bracket =>
    dsimp only at h
    split at h
    · cases h
    · next innermost outer hopened =>
      split at h
      · next heq =>
        cases h
        subst heq
        exact .closer innermost outer hopened rfl
      · cases h

/-- A turn adds either one token or one stretch of trivia, at the span of its lexeme. -/
theorem Records.push_or_skip {state recorded : LexState} {lexeme : Lexeme} {span : Span}
    (h : state.Records lexeme span recorded) :
    (∃ token, recorded.tokens = state.tokens.push token ∧ token.span = span ∧
        recorded.trivia = state.trivia) ∨
      (recorded.tokens = state.tokens ∧
        ∃ kind, recorded.trivia = state.trivia.push { kind := kind, span := span }) := by
  cases h with
  | skipped kind => exact Or.inr ⟨rfl, kind, rfl⟩
  | newline | token | opener | closer => exact Or.inl ⟨_, rfl, rfl, rfl⟩

theorem record_error_span {state : LexState} {lexeme : Lexeme} {span : Span} {error : LexError}
    (h : state.record lexeme span = .error error) : error.span = span := by
  unfold record at h
  cases lexeme with
  | lineBreak =>
    dsimp only at h
    split at h <;> cases h
  | trivia kind => cases h
  | token kind value => cases h
  | opener bracket => cases h
  | closer bracket =>
    dsimp only at h
    split at h
    · cases h
      rfl
    · split at h
      · cases h
      · cases h
        rfl

/-- The kinds of the delimiters that are open. -/
def brackets (state : LexState) : List Bracket := state.opened.map OpenBracket.bracket

theorem newlineSignificant_eq (state : LexState) :
    state.newlineSignificant = state.brackets.head?.all Bracket.keepsNewlines := by
  unfold newlineSignificant brackets
  cases state.opened <;> rfl

/-- What is recorded of a lexeme: nothing, or a token at its span. -/
inductive Adds (state : LexState) (span : Span) (next : LexState) : Option (TokenKind × String) → Prop
  | nothing (htokens : next.tokens = state.tokens) (hopened : next.opened = state.opened) :
      Adds state span next none
  | token (kind : TokenKind) (value : String)
      (htokens : next.tokens = state.tokens.push { kind := kind, value := value, span := span }) :
      Adds state span next (some (kind, value))

/-- What is recorded depends only on the kinds of the delimiters that are open. -/
theorem record_alike {state next : LexState} {lexeme : Lexeme} {span : Span}
    (h : state.record lexeme span = .ok next) :
    ∃ added, Adds state span next added ∧
      (added = none → lexeme = .lineBreak ∨ ∃ kind, lexeme = .trivia kind) ∧
      (∀ kind, lexeme = .trivia kind → added = none) ∧
      ∀ {other : LexState} (span' : Span), other.brackets = state.brackets →
        ∃ next', other.record lexeme span' = .ok next' ∧ next'.brackets = next.brackets ∧
          Adds other span' next' added := by
  unfold record at h
  cases lexeme with
  | lineBreak =>
    dsimp only at h
    split at h
    · next hsignificant =>
      cases h
      refine ⟨_, .token _ _ rfl, nofun, nofun, fun span' hbrackets => ?_⟩
      rw [newlineSignificant_eq, ← hbrackets, ← newlineSignificant_eq] at hsignificant
      exact ⟨_, if_pos hsignificant, hbrackets, .token _ _ rfl⟩
    · next hsignificant =>
      cases h
      refine ⟨_, .nothing rfl rfl, fun _ => Or.inl rfl, nofun, fun span' hbrackets => ?_⟩
      rw [newlineSignificant_eq, ← hbrackets, ← newlineSignificant_eq] at hsignificant
      exact ⟨_, if_neg hsignificant, hbrackets, .nothing rfl rfl⟩
  | trivia kind =>
    cases h
    exact ⟨_, .nothing rfl rfl, fun _ => Or.inr ⟨kind, rfl⟩, fun _ _ => rfl, fun _ hbrackets =>
      ⟨_, rfl, hbrackets, .nothing rfl rfl⟩⟩
  | token kind value =>
    cases h
    exact ⟨_, .token _ _ rfl, nofun, nofun, fun _ hbrackets => ⟨_, rfl, hbrackets, .token _ _ rfl⟩⟩
  | opener bracket =>
    cases h
    exact ⟨_, .token _ _ rfl, nofun, nofun, fun _ hbrackets =>
      ⟨_, rfl, congrArg (bracket :: ·) hbrackets, .token _ _ rfl⟩⟩
  | closer bracket =>
    dsimp only at h
    cases hopened : state.opened with
    | nil =>
      rw [hopened] at h
      cases h
    | cons innermost outer =>
      rw [hopened] at h
      dsimp only at h
      split at h
      · next hfits =>
        cases h
        refine ⟨_, .token _ _ rfl, nofun, nofun, fun {other} span' hbrackets => ?_⟩
        unfold brackets at hbrackets
        rw [hopened] at hbrackets
        cases hopened' : other.opened with
        | nil =>
          rw [hopened'] at hbrackets
          cases hbrackets
        | cons innermost' outer' =>
          rw [hopened'] at hbrackets
          obtain ⟨hsame, houter⟩ := List.cons.inj hbrackets
          unfold record
          dsimp only
          rw [hopened']
          exact ⟨_, if_pos (hsame.trans hfits), houter, .token _ _ rfl⟩
      · cases h

/-- One turn reads one lexeme, records it and goes on behind it. -/
theorem step_eq_ok {state next : LexState} {first : Char} {rest : List Char} {extra : Nat}
    (h : state.step file first rest = .ok (next, extra)) :
    ∃ lexeme recorded,
      Lexeme.scan first rest = .ok { lexeme := lexeme, extra := extra } ∧
      state.Records lexeme (state.spanOf file lexeme (first :: rest.take extra)) recorded ∧
      next = { recorded with position := state.position.after (first :: rest.take extra) } := by
  unfold step at h
  split at h
  · next scanned hscan =>
    dsimp only at h
    split at h
    · next recorded hrecord =>
      cases h
      exact ⟨scanned.lexeme, recorded, hscan, record_eq_ok hrecord, rfl⟩
    · cases h
  · cases h

/-- One turn does the same wherever the same lexeme is read and delimiters of the same kinds are
open. -/
theorem step_alike {state next : LexState} {first : Char} {rest : List Char} {extra : Nat}
    (h : state.step file first rest = .ok (next, extra)) :
    ∃ lexeme added, Lexeme.scan first rest = .ok { lexeme := lexeme, extra := extra } ∧
      next.position = state.position.after (first :: rest.take extra) ∧
      Adds state (state.spanOf file lexeme (first :: rest.take extra)) next added ∧
      (added = none → lexeme = .lineBreak ∨ ∃ kind, lexeme = .trivia kind) ∧
      (∀ kind, lexeme = .trivia kind → added = none) ∧
      ∀ {other : LexState} {text : List Char}, other.brackets = state.brackets →
        Lexeme.scan first text = .ok { lexeme := lexeme, extra := extra } →
        text.take extra = rest.take extra →
        ∃ next', other.step file first text = .ok (next', extra) ∧
          next'.brackets = next.brackets ∧
          next'.position = other.position.after (first :: rest.take extra) ∧
          Adds other (other.spanOf file lexeme (first :: rest.take extra)) next' added := by
  have hmoved : ∀ {state next : LexState} {span : Span} {added : Option (TokenKind × String)}
      (position : Position), Adds state span next added →
        Adds state span { next with position := position } added := by
    intro state next span added position hadds
    cases hadds with
    | nothing htokens hopened => exact .nothing htokens hopened
    | token kind value htokens => exact .token kind value htokens
  unfold step at h
  split at h
  · next scanned hscan =>
    dsimp only at h
    split at h
    · next recorded hrecord =>
      cases h
      obtain ⟨added, hadds, hnone, htrivia, halike⟩ := record_alike hrecord
      refine ⟨scanned.lexeme, added, hscan, rfl, hmoved _ hadds, hnone, htrivia,
        fun hbrackets hscan' htake => ?_⟩
      obtain ⟨next', hrecord', hbrackets', hadds'⟩ := halike _ hbrackets
      unfold step
      rw [hscan']
      dsimp only
      rw [htake, hrecord']
      exact ⟨_, rfl, hbrackets', rfl, hmoved _ hadds'⟩
    · cases h
  · cases h

/-- The span of a lexeme starts where reading has come to and ends behind the lexeme. -/
theorem spanOf_start (state : LexState) (lexeme : Lexeme) (text : List Char) :
    (state.spanOf file lexeme text).start = state.position.offset := by
  cases lexeme <;> rfl

theorem spanOf_stop (state : LexState) (lexeme : Lexeme) (text : List Char) :
    (state.spanOf file lexeme text).stop = state.position.offset + text.length := by
  have hstop : ∀ lexeme, (state.spanOf file lexeme text).stop =
      ((state.position.after text).offset : Int) := by
    intro lexeme
    cases lexeme <;> rfl
  rw [hstop, Position.after_offset, Int.natCast_add]

/-- A fault is found at or after the place that reading has come to. -/
theorem step_error_start {state : LexState} {first : Char} {rest : List Char} {error : LexError}
    (h : state.step file first rest = .error error) :
    (state.position.offset : Int) ≤ error.span.start := by
  unfold step at h
  split at h
  · next scanned hscan =>
    dsimp only at h
    split at h
    · cases h
    · next found hrecord =>
      cases h
      refine Int.le_of_eq ?_
      rw [record_error_span hrecord, spanOf_start]
  · next found hscan =>
    cases h
    simp only [Span.between, Position.after_offset]
    omega

/-! ### Sequences of turns -/

/-- The loop has made `count` turns between two states, each with the text still to be read. -/
inductive Turns (file : String) : Nat → LexState → List Char → LexState → List Char → Prop
  | none (state : LexState) (text : List Char) : Turns file 0 state text state text
  | more {count extra : Nat} {state mid last : LexState} {first : Char} {rest left : List Char}
      (hstep : state.step file first rest = .ok (mid, extra))
      (hmore : Turns file count mid (rest.drop extra) last left) :
      Turns file (count + 1) state (first :: rest) last left

/-- Every run makes some turns and then stops: at the end of the text, or at a lexeme that cannot
be read. -/
theorem exists_turns (file : String) (state : LexState) (text : List Char) :
    ∃ count last left, Turns file count state text last left ∧
      ((left = [] ∧ state.run file text = last.finish file) ∨
        ∃ first rest error, left = first :: rest ∧ last.step file first rest = .error error ∧
          state.run file text = last.stopAt error) := by
  fun_induction run file state text with
  | case1 state => exact ⟨0, state, [], .none state [], Or.inl ⟨rfl, rfl⟩⟩
  | case2 state first rest mid extra hstep ih =>
    obtain ⟨count, last, left, hturns, hend⟩ := ih
    exact ⟨count + 1, last, left, .more hstep hturns, hend⟩
  | case3 state first rest error hstep =>
    exact ⟨0, state, first :: rest, .none state _, Or.inr ⟨first, rest, error, rfl, hstep, rfl⟩⟩

theorem Turns.trans {count count' : Nat} {state last next : LexState} {text left more : List Char}
    (h : Turns file count state text last left) (h' : Turns file count' last left next more) :
    ∃ count, Turns file count state text next more := by
  induction h with
  | none => exact ⟨_, h'⟩
  | more hstep _ ih =>
    obtain ⟨count, hrest⟩ := ih h'
    exact ⟨count + 1, .more hstep hrest⟩

/-- Each turn takes at least one character. -/
theorem Turns.count_add_length {count : Nat} {state last : LexState} {text left : List Char}
    (h : Turns file count state text last left) : count + left.length ≤ text.length := by
  induction h with
  | none => simp
  | more hstep hmore ih =>
    simp only [List.length_drop, List.length_cons] at ih ⊢
    omega

/-- What every turn keeps, a run keeps. -/
theorem Turns.invariant {motive : LexState → List Char → Prop}
    (hkeeps : ∀ state first rest next extra, state.step file first rest = .ok (next, extra) →
      motive state (first :: rest) → motive next (rest.drop extra))
    {count : Nat} {state last : LexState} {text left : List Char}
    (h : Turns file count state text last left) (hstart : motive state text) :
    motive last left := by
  induction h with
  | none => exact hstart
  | more hstep hmore ih => exact ih (hkeeps _ _ _ _ _ hstep hstart)

/-- Reading has come to the place behind what it has taken of the text. -/
theorem Turns.offset_add_length {count : Nat} {state last : LexState} {text left : List Char}
    (h : Turns file count state text last left) :
    last.position.offset + left.length = state.position.offset + text.length := by
  induction h with
  | none => rfl
  | more hstep hmore ih =>
    obtain ⟨lexeme, recorded, -, -, rfl⟩ := step_eq_ok hstep
    rw [ih]
    simp only [Position.after_offset, List.length_cons, List.length_take, List.length_drop]
    omega

end LexState

/-! ### Whole runs -/

/-- The token that ends a source. -/
def Token.endAt (file : String) (position : Position) : Token :=
  { kind := .endOfFile, value := "", span := Span.between file position position }

/-- A text that has been read up to its end, where nothing is open. -/
theorem LexState.run_of_turns {file : String} {count : Nat} {state last : LexState}
    {text : List Char} (h : LexState.Turns file count state text last [])
    (hopened : last.opened = []) :
    state.run file text = {
      tokens := last.tokens.push (.endAt file last.position)
      trivia := last.trivia
      error? := none } := by
  generalize hleft : ([] : List Char) = left at h
  induction h with
  | none =>
    subst hleft
    rw [run, finish, hopened]
    rfl
  | more hstep _ ih =>
    rw [run, hstep]
    exact ih hopened hleft

/-- How a run over a whole text ends: with the end of the file where nothing is open, at the end of
the text where something is, or in front of a lexeme that cannot be read. -/
inductive LexRun.Ends (file : String) (last : LexState) : List Char → LexRun → Prop
  | settled (hopened : last.opened = []) :
      Ends file last [] {
        tokens := last.tokens.push (.endAt file last.position)
        trivia := last.trivia
        error? := none }
  | unclosed (innermost : OpenBracket) (outer : List OpenBracket)
      (hopened : last.opened = innermost :: outer) :
      Ends file last []
        (last.stopAt { fault := .unclosed innermost.bracket, span := innermost.span })
  | fault {first : Char} {rest : List Char} {error : LexError}
      (hstep : last.step file first rest = .error error) :
      Ends file last (first :: rest) (last.stopAt error)

theorem LexRun.ofText_ends (text file : String) :
    ∃ count last left, LexState.Turns file count .initial text.toList last left ∧
      LexRun.Ends file last left (LexRun.ofText text file) := by
  obtain ⟨count, last, left, hturns, hend⟩ :=
    LexState.exists_turns file .initial text.toList
  refine ⟨count, last, left, hturns, ?_⟩
  rcases hend with ⟨rfl, hrun⟩ | ⟨first, rest, error, rfl, hstep, hrun⟩
  · rw [LexRun.ofText, hrun]
    cases hopened : last.opened with
    | nil =>
      rw [LexState.finish, hopened]
      exact .settled hopened
    | cons innermost outer =>
      rw [LexState.finish, hopened]
      exact .unclosed innermost outer hopened
  · rw [LexRun.ofText, hrun]
    exact .fault hstep

/-- The tokens of a text without a fault are those that were read, and the end of the file. -/
theorem Token.ofText_eq_ok {text file : String} {tokens : Array Token}
    (h : Token.ofText text file = .ok tokens) :
    ∃ count last, LexState.Turns file count .initial text.toList last [] ∧ last.opened = [] ∧
      tokens = last.tokens.push (.endAt file last.position) := by
  obtain ⟨count, last, left, hturns, hends⟩ := LexRun.ofText_ends text file
  unfold Token.ofText LexRun.toExcept at h
  generalize LexRun.ofText text file = run at hends h
  cases hends with
  | settled hopened =>
    cases h
    exact ⟨count, last, hturns, hopened, rfl⟩
  | unclosed => cases h
  | fault => cases h

/-- A text that is read as one token has no other. -/
theorem Token.ofText_of_scan (file : String) {first : Char} {rest : List Char} {kind : TokenKind}
    {value : String}
    (h : Lexeme.scan first rest = .ok { lexeme := .token kind value, extra := rest.length }) :
    ∃ span stop, Token.ofText (String.ofList (first :: rest)) file =
      .ok #[{ kind := kind, value := value, span := span }, .endAt file stop] := by
  obtain ⟨next, hstep, hopened, span, htokens⟩ : ∃ next : LexState,
      LexState.initial.step file first rest = .ok (next, rest.length) ∧ next.opened = [] ∧
        ∃ span : Span, next.tokens = #[{ kind := kind, value := value, span := span }] := by
    simp only [LexState.step, h]
    exact ⟨_, rfl, rfl, _, rfl⟩
  have hturns : LexState.Turns file 1 .initial (first :: rest) next [] := by
    refine .more hstep ?_
    rw [List.drop_length]
    exact .none next []
  refine ⟨span, next.position, ?_⟩
  rw [Token.ofText, LexRun.ofText, String.toList_ofList, LexState.run_of_turns hturns hopened, htokens]
  rfl

end SableFrontend
