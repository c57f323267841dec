import SableFrontend.Proofs.Grammar.Entry
import SableFrontend.Proofs.Grammar.Level
import SableFrontend.Proofs.Sentences.Calculus

/-!
Attempts. What an attempt reports is muted, so that what is known of reading without a word does not
speak of it. Patterns are `Steady`: what they answer without a word they answer whatever has been
reported, and also where nothing is (`steady_patternAt`). So an attempt at a pattern that is accepted
succeeds (`Consumes.patternThenColon`), and one at round brackets without a colon behind them is given
up, whatever they hold (`consumes_patternThenColon_of_group`).
-/

namespace SableFrontend

open SableFrontend.Parser

namespace TokenStream

variable {stream : TokenStream} {α β : Type} {parser second : Parser α} {next : α → Parser β}
  {answer : α} {start middle stop : Nat}

/-! ### Steady parsers -/

/-- How a parser may end that is not muted: what it answers without a word it consumes, and if it fails
it has said something. -/
def Ends (stream : TokenStream) (parser : Parser α) (start : ParserState) :
    Except Abort α × ParserState → Prop
  | (.ok answer, final) => final.log.muted = 0 ∧ start.log.count ≤ final.log.count ∧
      (final.log.count = start.log.count →
        stream.Consumes parser start.position answer final.position)
  | (.error abort, final) => abort = .failed → final.log.muted = 0 ∧ start.log.count < final.log.count

/-- What a parser answers without a word does not depend on what has been reported before. -/
def Steady (stream : TokenStream) (parser : Parser α) : Prop :=
  ∀ state, state.log.muted = 0 → stream.Ends parser state (parser stream state)

namespace Steady

/-- A parser that neither fails nor reports anything. -/
theorem of_consumes (h : ∀ start, ∃ answer stop, stream.Consumes parser start answer stop) :
    stream.Steady parser := by
  rintro ⟨position, log, history⟩ hmuted
  obtain ⟨answer, stop, hconsumes⟩ := h position
  obtain ⟨history', hrun⟩ := hconsumes log history
  rw [hrun]
  exact ⟨hmuted, Nat.le_refl _, fun _ => hconsumes⟩

theorem pure : stream.Steady (Pure.pure answer : Parser α) :=
  .of_consumes fun _ => ⟨_, _, .pure⟩

theorem throw {abort : Abort} (h : abort ≠ .failed) :
    stream.Steady (MonadExcept.throw abort : Parser α) :=
  fun _ _ habort => absurd habort h

theorem bind (h : stream.Steady parser) (hnext : ∀ answer, stream.Steady (next answer)) :
    stream.Steady (parser >>= next) := by
  intro state hmuted
  have hends := h state hmuted
  rw [Setting.bind_apply]
  cases hrun : parser stream state with
  | mk result middle =>
    rw [hrun] at hends
    cases result with
    | error => exact hends
    | ok answer =>
      obtain ⟨hmuted', hle, hconsumes⟩ := hends
      have hends' := hnext answer middle hmuted'
      show stream.Ends _ state (next answer stream middle)
      cases hrun' : next answer stream middle with
      | mk result final =>
        rw [hrun'] at hends'
        cases result with
        | error => exact fun habort => ⟨(hends' habort).1, Nat.lt_of_le_of_lt hle (hends' habort).2⟩
        | ok answer' =>
          obtain ⟨hmuted'', hle', hconsumes'⟩ := hends'
          refine ⟨hmuted'', Nat.le_trans hle hle', fun hquiet => ?_⟩
          obtain ⟨hquiet, hquiet'⟩ := quiet_parts hle hle' hquiet
          exact (hconsumes hquiet).bind (hconsumes' hquiet')

theorem ite {c : Prop} [Decidable c] (h : stream.Steady parser) (h' : stream.Steady second) :
    stream.Steady (if c then parser else second) := by
  split
  · exact h
  · exact h'

theorem report {diagnostic : Diagnostic} : stream.Steady (Parser.report diagnostic) := by
  intro state hmuted
  have hcount : (state.log.report diagnostic).count = state.log.count + 1 := by
    rw [Log.report, if_pos hmuted, Log.count, Array.size_push]
    rfl
  refine ⟨(Log.report_muted ..).trans hmuted, hcount ▸ Nat.le_succ _, fun hquiet => ?_⟩
  exact absurd (hcount.symm.trans hquiet) (Nat.succ_ne_self _)

/-- What is reported before a parser fails is enough. -/
theorem report_failed {diagnostic : Diagnostic} : stream.Steady (do
    Parser.report diagnostic
    MonadExcept.throw .failed : Parser α) := by
  intro state hmuted _
  refine ⟨(Log.report_muted ..).trans hmuted, ?_⟩
  show state.log.count < (state.log.report diagnostic).count
  rw [Log.report, if_pos hmuted, Log.count, Log.count, Array.size_push]
  exact Nat.lt_succ_self _

theorem current : stream.Steady Parser.current := .of_consumes fun _ => ⟨_, _, .current⟩

theorem peek {offset : Nat} : stream.Steady (Parser.peek offset) := .of_consumes fun _ => ⟨_, _, .peek⟩

theorem isAt {kind : TokenKind} : stream.Steady (Parser.isAt kind) :=
  .of_consumes fun _ => ⟨_, _, .isAt⟩

theorem spanFrom {first : Span} : stream.Steady (Parser.spanFrom first) :=
  .of_consumes fun _ => ⟨_, _, .spanFrom⟩

theorem note {event : ParserEvent} : stream.Steady (Parser.note event) :=
  .of_consumes fun _ => ⟨_, _, .note⟩

theorem skipWhile {isMember : TokenKind → Bool} : stream.Steady (Parser.skipWhile isMember) :=
  .of_consumes fun _ => ⟨_, _, fun _ history => ⟨history, rfl⟩⟩

theorem advance : stream.Steady Parser.advance := by
  refine .of_consumes fun start => ?_
  rcases Nat.lt_or_ge (start + 1) stream.size with hlt | hge
  · exact ⟨stream.token start, start + 1, fun _ history => ⟨history, advance_apply hlt⟩⟩
  · refine ⟨stream.token start, start, fun log history => ⟨history, ?_⟩⟩
    show (if start + 1 < stream.size then do
        moveTo (start + 1)
        return stream.token start
      else return stream.token start : Parser Token) stream _ = _
    rw [if_neg (Nat.not_lt.2 hge)]
    rfl

theorem unexpected {expected : List String} {context : String} :
    stream.Steady (Parser.unexpected expected context : Parser α) :=
  current.bind fun _ => report_failed

theorem expect {kind : TokenKind} {context : String} : stream.Steady (Parser.expect kind context) :=
  isAt.bind fun _ => advance.ite unexpected

theorem literalOf {token : Token} : stream.Steady (Parser.literalOf token) := by
  unfold Parser.literalOf
  split
  · exact pure
  · exact throw Abort.noConfusion

/-! ### Loops -/

theorem read {next : TokenStream → Parser α} (h : stream.Steady (next stream)) :
    stream.Steady (MonadReader.read >>= next) := h

/-- Of the state a parser may look at the position. -/
theorem get {next : ParserState → Parser β}
    (hnext : ∀ position log history log' history',
      next { position := position, log := log, history := history } =
        next { position := position, log := log', history := history' })
    (h : ∀ state, stream.Steady (next state)) : stream.Steady (MonadState.get >>= next) := by
  intro state hmuted
  have hends := h state state hmuted
  show stream.Ends _ state (next state stream state)
  cases hrun : next state stream state with
  | mk result final =>
    rw [hrun] at hends
    cases result with
    | error => exact hends
    | ok answer =>
      obtain ⟨hmuted', hle, hconsumes⟩ := hends
      exact ⟨hmuted', hle, fun hquiet => .get fun log history =>
        hnext _ state.log state.history log history ▸ hconsumes hquiet⟩

theorem repeatWhile {test : Parser Bool} {step : α → Parser α} (htest : stream.Steady test)
    (hstep : ∀ value, stream.Steady (step value)) {first : α} :
    stream.Steady (Parser.repeatWhile test step first) := by
  have hloop : ∀ count value, stream.Steady (repeatWhile.iterate test step count value) := by
    intro count
    induction count with
    | zero => exact fun _ => throw Abort.noConfusion
    | succ count ih => exact fun value => htest.bind fun _ => ((hstep value).bind ih).ite pure
  exact read (hloop _ _)

theorem collectWhile {test : Parser Bool} (htest : stream.Steady test) (h : stream.Steady parser) :
    stream.Steady (Parser.collectWhile test parser) :=
  (repeatWhile htest fun _ => h.bind fun _ => pure).bind fun _ => pure

/-- What is recovered from has been reported. -/
theorem recover (h : stream.Steady parser) : stream.Steady (Parser.recover parser) := by
  intro state hmuted
  have hends := h state hmuted
  unfold Parser.recover
  show stream.Ends _ state (tryCatch (some <$> parser) _ stream state)
  rw [Setting.tryCatch_apply, Setting.map_apply]
  cases hrun : parser stream state with
  | mk result final =>
    rw [hrun] at hends
    cases result with
    | ok answer => exact ⟨hends.1, hends.2.1, fun hquiet => (hends.2.2 hquiet).recover⟩
    | error abort =>
      cases abort with
      | failed =>
        obtain ⟨hmuted', hlt⟩ := hends rfl
        exact ⟨hmuted', Nat.le_of_lt hlt, fun hquiet => absurd hquiet (Nat.ne_of_gt hlt)⟩
      | tooDeep | overlongInteger | endless => exact hends

/-- Items that are steady are read steadily. -/
theorem items (h : stream.Steady parser) {closer : TokenKind} {commas : Bool} {what : String} :
    stream.Steady (Parser.items parser closer commas what) := by
  have hsynchronize : ∀ within, stream.Steady (synchronize within) :=
    fun _ => .of_consumes fun _ => ⟨_, _, fun _ _ => ⟨_, rfl⟩⟩
  have hread : ∀ within items, stream.Steady (readItem parser within what items) := by
    intro within items
    refine h.recover.bind fun value => ?_
    cases value with
    | none => exact (hsynchronize within).bind fun _ => pure
    | some value =>
      have hend : stream.Steady (endItem within what) := current.bind fun _ => pure.ite unexpected
      exact hend.recover.bind fun _ => ((hsynchronize within).bind fun _ => pure).ite pure
  have hnext : ∀ within items, stream.Steady (nextItem parser within what items) :=
    fun within items => get (fun _ _ _ _ _ => rfl) fun _ => (hread within items).bind fun _ =>
      skipWhile.bind fun _ => get (fun _ _ _ _ _ => rfl) fun _ => note.bind fun _ => pure
  have hstarts : ∀ within, stream.Steady (startsItem within) :=
    fun _ => isAt.bind fun _ => isAt.bind fun _ => pure
  have henclose : stream.Steady (enclose closer commas) :=
    get (fun _ _ _ _ _ => rfl) fun _ => (of_consumes fun _ => ⟨_, _, .currentDepth⟩).bind fun _ => pure
  exact henclose.bind fun within => note.bind fun _ => skipWhile.bind fun _ =>
    (repeatWhile (hstarts within) (hnext within)).bind fun _ =>
      get (fun _ _ _ _ _ => rfl) fun _ => note.bind fun _ => pure

end Steady

/-! ### Patterns are steady -/

theorem steady_startsPatternAtom : stream.Steady startsPatternAtom := by
  refine .bind .current fun token => ?_
  split
  all_goals first | exact .pure | exact .bind .peek fun _ => .pure

section

variable {inner : Parser Pattern} (hinner : stream.Steady inner)
include hinner

theorem steady_roundPattern : stream.Steady (roundPattern inner) := by
  refine .bind .advance fun _ => .bind .isAt fun _ => .ite ?_ (hinner.bind fun _ => ?_)
  · exact .bind .advance fun _ => .bind .spanFrom fun _ => .pure
  · refine .bind .isAt fun _ => .ite (.bind .expect fun _ => .pure) ?_
    refine .bind (.collectWhile .isAt (.bind .advance fun _ => hinner)) fun _ => ?_
    exact .bind .expect fun _ => .bind .spanFrom fun _ => .pure

theorem steady_curlyPattern : stream.Steady (curlyPattern inner) := by
  refine .bind .advance fun _ => .bind .skipWhile fun _ => .bind .isAt fun _ => .ite ?_
    (hinner.bind fun _ => .bind .skipWhile fun _ => ?_)
  · exact .bind .advance fun _ => .bind .spanFrom fun _ => .pure
  · refine .bind (.collectWhile .isAt (.bind .advance fun _ => .bind .skipWhile fun _ =>
      hinner.bind fun _ => .bind .skipWhile fun _ => .pure)) fun _ => .bind .isAt fun _ => .ite ?_ ?_
    · refine .bind .advance fun _ => .bind .skipWhile fun _ => hinner.bind fun _ => ?_
      exact .bind .skipWhile fun _ => .bind .expect fun _ => .bind .spanFrom fun _ => .pure
    · exact .bind .expect fun _ => .bind .spanFrom fun _ => .pure

theorem steady_recordPatternItem : stream.Steady (recordPatternItem inner) := by
  have hpositional : stream.Steady (do return (.inr (← inner) : FieldPattern ⊕ Pattern)) :=
    hinner.bind fun _ => .pure
  refine .bind .current fun _ => .ite ?_ hpositional
  refine .bind .peek fun _ => .ite ?_ (.ite (.bind .advance fun _ => .pure) hpositional)
  refine .bind .advance fun _ => .bind .advance fun _ => .bind .skipWhile fun _ => ?_
  exact hinner.bind fun _ => .bind .spanFrom fun _ => .pure

theorem steady_recordPattern {constructor : Token} : stream.Steady (recordPattern inner constructor) := by
  refine .bind .advance fun _ => .bind (steady_recordPatternItem hinner).items fun _ => ?_
  refine .bind .expect fun _ => .bind .spanFrom fun _ => ?_
  dsimp only
  split
  · exact .pure
  · exact .pure
  · exact .bind .report fun _ => .pure

theorem steady_patternAtom : stream.Steady (patternAtom inner) := by
  refine .bind .current fun token => ?_
  split
  · exact .bind .advance fun _ => .ite .pure .pure
  · exact .bind .advance fun _ => .bind .literalOf fun _ => .pure
  · exact .bind .advance fun _ => .bind .current fun _ => .ite (steady_recordPattern hinner) .pure
  · exact steady_roundPattern hinner
  · exact steady_curlyPattern hinner
  · have hnegative : stream.Steady (negativeLiteral token) :=
      .bind .current fun _ => .ite (.bind .unexpected fun _ => .bind .advance fun _ =>
        .bind .literalOf fun _ => .pure) (.bind .advance fun _ => .bind .literalOf fun _ => .pure)
    exact .ite (.bind .advance fun _ => hnegative) .unexpected

theorem steady_pattern : stream.Steady (pattern inner) := by
  have hatom := steady_patternAtom hinner
  refine .bind .current fun _ => .bind (.bind .peek fun _ => .bind .current fun _ => .pure) fun _ =>
    .ite (.bind .advance fun _ => ?_) hatom
  exact .bind (.collectWhile steady_startsPatternAtom hatom) fun _ => .bind .spanFrom fun _ => .pure

end

/-- Patterns are steady, however deep they may nest. -/
theorem steady_patternAt (budget : Nat) : stream.Steady (patternAt budget) := by
  induction budget with
  | zero => exact .throw Abort.noConfusion
  | succ budget ih => exact steady_pattern ih

/-! ### Attempts -/

/-- What is read without a word by itself is read alike under any log. -/
theorem Steady.consumes {set : Setting} {log : Log} (h : set.stream.Steady parser)
    (hreads : set.Reads log parser start answer stop) (hmuted : log.muted = 0) :
    set.stream.Consumes parser start answer stop := by
  have hends := h { position := start, log := log, history := [] } hmuted
  have hread := hreads []
  unfold Setting.Runs at hread
  cases hrun : parser set.stream { position := start, log := log, history := [] } with
  | mk result final =>
    rw [hrun] at hends hread
    cases result with
    | error => exact hread.elim
    | ok value =>
      obtain ⟨rfl, rfl, hlog⟩ := hread
      exact hends.2.2 (by rw [hlog])

/-- An attempt that succeeds or answers in the negative leaves nothing behind. -/
theorem Consumes.speculate {attempt : Parser Bool} {verdict : Bool}
    (h : stream.Consumes attempt start verdict stop) :
    stream.Consumes (Parser.speculate attempt) start verdict start := by
  intro log history
  obtain ⟨history', hrun⟩ := h log.mute history
  refine ⟨history', ?_⟩
  show tryCatch (attempt >>= fun _ => _) _ stream
    { position := start, log := log.mute, history := history } = _
  rw [Setting.tryCatch_apply, Setting.bind_apply, hrun]
  rfl

/-- Nor does one that fails, or does not succeed. -/
theorem consumes_speculate_false {attempt : Parser Bool}
    (h : ∀ log history, (attempt stream { position := start, log := log, history := history }).1 = .ok false ∨
      (attempt stream { position := start, log := log, history := history }).1 = .error .failed) :
    stream.Consumes (Parser.speculate attempt) start false start := by
  intro log history
  have hresult := h log.mute history
  unfold Parser.speculate
  cases hrun : attempt stream { position := start, log := log.mute, history := history } with
  | mk result final =>
    rw [hrun] at hresult
    refine ⟨final.history, ?_⟩
    show tryCatch (attempt >>= fun _ => _) _ stream
      { position := start, log := log.mute, history := history } = _
    rw [Setting.tryCatch_apply, Setting.bind_apply, hrun]
    rcases hresult with rfl | rfl <;> rfl

/-- A pattern with a colon behind it is seen. -/
theorem Consumes.patternThenColon {inner : Nested} {value : Pattern}
    (h : stream.Consumes inner.pattern start value stop) (hcolon : stream.kind stop = .colon) :
    stream.Consumes (Parser.patternThenColon inner) start true start :=
  (h.bind (.isAt_eq (beq_iff_eq.2 hcolon))).speculate

end TokenStream

namespace Setting

/-- Where patterns do not nest too deep, and no number is too long, parsers may only fail. -/
def onlyFailing {stream : TokenStream} (balanced : stream.Balanced)
    (hshort : ∀ token ∈ stream.tokens, ∀ digits, Literal.ofToken token ≠ .error digits) : Setting where
  stream := stream
  balanced := balanced
  admits _ := True
  allows abort := abort = .failed
  grammatical _ := trivial
  failed := rfl
  overlong hmem hdigits := absurd hdigits (hshort _ hmem _)

end Setting

namespace TokenStream

variable {stream : TokenStream} {start close : Nat}

/-- Round brackets without a colon behind them are no pattern with a colon behind it, whatever stands in
them. -/
theorem consumes_patternThenColon_of_group (balanced : stream.Balanced)
    (hshort : ∀ token ∈ stream.tokens, ∀ digits, Literal.ofToken token ≠ .error digits) {budget : Nat}
    (hnesting : ∀ k, (stream.opened k).length < (stream.opened start).length + budget)
    (hopen : stream.kind start = .opener .round) (hlevel : stream.Level (start + 1) close)
    (hclose : stream.kind close = .closer .round) (hcolon : stream.kind (close + 1) ≠ .colon)
    {rules : (rule : ExprRule) → Parser rule.Answer} :
    stream.Consumes (patternThenColon (.ofRules budget rules)) start false start := by
  have hlt := Nat.lt_of_succ_lt (succ_lt_size_of_kind hopen TokenKind.noConfusion)
  refine consumes_speculate_false fun log history => ?_
  generalize hstate : ParserState.mk start log history = state
  have hposition : state.position = start := by rw [← hstate]
  have hproceeds : (Setting.onlyFailing balanced hshort).Proceeds true (patternAt budget) state :=
    Setting.obeysAt_patternAt hnesting state (hposition ▸ hlt) (hposition ▸ rfl)
  have hends : (Entry.expression.setting balanced).Answers (patternAt budget) state fun _ final =>
      stream.EndsGroup (start + 1) final.position := by
    rw [← hposition]
    exact Setting.endsGroup_patternAt Abort.Arises.tooDeep budget (by rw [hposition]; exact hopen)
  show ((patternAt budget >>= fun _ => isAt .colon) stream state).1 = .ok false ∨
    ((patternAt budget >>= fun _ => isAt .colon) stream state).1 = .error .failed
  rw [Setting.bind_apply]
  cases hrun : patternAt budget stream state with
  | mk result final =>
    cases result with
    | ok value =>
      have hlast := (hends.returns hrun).unique balanced ⟨close, rfl, hlevel, .round, hclose⟩
      refine Or.inl (congrArg Except.ok (beq_eq_false_iff_ne.2 ?_))
      rw [show (stream.token final.position).kind = stream.kind (close + 1) from hlast ▸ rfl]
      exact hcolon
    | error abort =>
      unfold Setting.Proceeds Setting.Runs at hproceeds
      rw [show (Setting.onlyFailing balanced hshort).stream = stream from rfl, hrun] at hproceeds
      exact Or.inr (congrArg Except.error hproceeds.allowed)

end TokenStream

end SableFrontend
