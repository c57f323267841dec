import SableFrontend.Proofs.Grammar.Loops

/-!
Reading patterns without a word. What has been reported, and whether anything may be, has no say in how a
pattern is read, and while reporting is muted nothing is added to the log (`ignoresLog_patternAt`). So a
pattern is read during an attempt as it is read otherwise.
-/

namespace SableFrontend

open Setting

set_option synthInstance.maxSize 4096

variable {α β : Type}

/-- Two parsers do the same from states at one place, whatever the log, and the first one adds nothing to
a muted log. -/
class Parser.IgnoresLog (parser other : Parser α) : Prop where
  alike : ∀ stream state state', state'.position = state.position →
    (other stream state').1 = (parser stream state).1 ∧
      (other stream state').2.position = (parser stream state).2.position
  keeps : ∀ stream state, state.log.muted ≠ 0 → (parser stream state).2.log = state.log

namespace Parser.IgnoresLog

/-! ### Steps -/

instance pure {answer : α} : (Pure.pure answer : Parser α).IgnoresLog (Pure.pure answer) :=
  ⟨fun _ _ _ h => ⟨rfl, h⟩, fun _ _ _ => rfl⟩

instance throw {abort : Abort} : (MonadExcept.throw abort : Parser α).IgnoresLog (MonadExcept.throw abort) :=
  ⟨fun _ _ _ h => ⟨rfl, h⟩, fun _ _ _ => rfl⟩

instance bind {parser other : Parser α} {next next' : α → Parser β} [h : parser.IgnoresLog other]
    [hnext : ∀ answer, (next answer).IgnoresLog (next' answer)] :
    (parser >>= next).IgnoresLog (other >>= next') := by
  refine ⟨fun stream state state' hplace => ?_, fun stream state hmuted => ?_⟩
  · obtain ⟨hresult, hposition⟩ := h.alike stream state state' hplace
    rw [bind_apply, bind_apply]
    cases hrun : parser stream state with
    | mk result middle =>
      cases hrun' : other stream state' with
      | mk result' middle' =>
        rw [hrun, hrun'] at hresult hposition
        dsimp only at hresult hposition
        subst hresult
        cases result' with
        | error => exact ⟨rfl, hposition⟩
        | ok answer => exact (hnext answer).alike stream middle middle' hposition
  · have hkept := h.keeps stream state hmuted
    rw [bind_apply]
    cases hrun : parser stream state with
    | mk result middle =>
      rw [hrun] at hkept
      dsimp only at hkept
      cases result with
      | error => exact hkept
      | ok answer => exact ((hnext answer).keeps stream middle (hkept ▸ hmuted)).trans hkept

theorem after {parser : Parser α} {next next' : α → Parser β} [h : parser.IgnoresLog parser]
    (hnext : ∀ answer, (next answer).IgnoresLog (next' answer)) :
    (parser >>= next).IgnoresLog (parser >>= next') :=
  bind

instance map {parser other : Parser α} {function : α → β} [parser.IgnoresLog other] :
    (function <$> parser).IgnoresLog (function <$> other) := by
  rw [map_eq_pure_bind, map_eq_pure_bind]
  infer_instance

instance ite {c : Prop} [Decidable c] {first first' second second' : Parser α}
    [hpos : first.IgnoresLog first'] [hneg : second.IgnoresLog second'] :
    (if c then first else second : Parser α).IgnoresLog (if c then first' else second') := by
  split
  · exact hpos
  · exact hneg

/-- Of a state only the position may be looked at. -/
theorem get {next next' : ParserState → Parser α}
    (h : ∀ state state', state'.position = state.position → (next state).IgnoresLog (next' state')) :
    (MonadState.get >>= next).IgnoresLog (MonadState.get >>= next') :=
  ⟨fun stream state state' hplace => (h state state' hplace).alike stream state state' hplace,
    fun stream state => (h state state rfl).keeps stream state⟩

theorem tryCatch {parser other : Parser α} {handler handler' : Abort → Parser α}
    (h : parser.IgnoresLog other) (hhandler : ∀ abort, (handler abort).IgnoresLog (handler' abort)) :
    (MonadExcept.tryCatch parser handler).IgnoresLog (MonadExcept.tryCatch other handler') := by
  refine ⟨fun stream state state' hplace => ?_, fun stream state hmuted => ?_⟩
  · obtain ⟨hresult, hposition⟩ := h.alike stream state state' hplace
    rw [tryCatch_apply, tryCatch_apply]
    cases hrun : parser stream state with
    | mk result middle =>
      cases hrun' : other stream state' with
      | mk result' middle' =>
        rw [hrun, hrun'] at hresult hposition
        dsimp only at hresult hposition
        subst hresult
        cases result' with
        | error abort => exact (hhandler abort).alike stream middle middle' hposition
        | ok => exact ⟨rfl, hposition⟩
  · have hkept := h.keeps stream state hmuted
    rw [tryCatch_apply]
    cases hrun : parser stream state with
    | mk result middle =>
      rw [hrun] at hkept
      dsimp only at hkept
      cases result with
      | error abort => exact ((hhandler abort).keeps stream middle (hkept ▸ hmuted)).trans hkept
      | ok => exact hkept

/-! ### Looking, moving and reporting -/

instance read : (MonadReader.read : Parser TokenStream).IgnoresLog MonadReader.read :=
  ⟨fun _ _ _ h => ⟨rfl, h⟩, fun _ _ _ => rfl⟩

instance moveTo {position : Nat} : (Parser.moveTo position).IgnoresLog (Parser.moveTo position) :=
  ⟨fun _ _ _ _ => ⟨rfl, rfl⟩, fun _ _ _ => rfl⟩

instance note {event event' : ParserEvent} : (Parser.note event).IgnoresLog (Parser.note event') :=
  ⟨fun _ _ _ h => ⟨rfl, h⟩, fun _ _ _ => rfl⟩

instance report {diagnostic : Diagnostic} :
    (Parser.report diagnostic).IgnoresLog (Parser.report diagnostic) :=
  ⟨fun _ _ _ h => ⟨rfl, h⟩, fun _ _ hmuted => if_neg hmuted⟩

/-- What can be seen from a position. -/
theorem look {function : TokenStream → Nat → α} :
    (do return function (← MonadReader.read) (← MonadState.get).position : Parser α).IgnoresLog
      (do return function (← MonadReader.read) (← MonadState.get).position) :=
  ⟨fun stream _ _ h => ⟨congrArg (fun position => Except.ok (function stream position)) h, h⟩, fun _ _ _ => rfl⟩

instance current : Parser.current.IgnoresLog Parser.current := look

instance peek {offset : Nat} : (Parser.peek offset).IgnoresLog (Parser.peek offset) :=
  @look _ fun stream position => stream.token (position + offset)

instance previous : Parser.previous.IgnoresLog Parser.previous :=
  @look _ fun stream position => stream.token (position - 1)

instance currentDepth : Parser.currentDepth.IgnoresLog Parser.currentDepth := look

instance isAt {kind : TokenKind} : (Parser.isAt kind).IgnoresLog (Parser.isAt kind) := by
  unfold Parser.isAt
  infer_instance

instance spanFrom {start : Span} : (Parser.spanFrom start).IgnoresLog (Parser.spanFrom start) := by
  unfold Parser.spanFrom
  infer_instance

instance advance : Parser.advance.IgnoresLog Parser.advance := by
  unfold Parser.advance
  refine after fun stream => get fun state state' hplace => ?_
  rw [hplace]
  infer_instance

instance skipWhile {isMember : TokenKind → Bool} :
    (Parser.skipWhile isMember).IgnoresLog (Parser.skipWhile isMember) := by
  unfold Parser.skipWhile
  refine after fun stream => get fun state state' hplace => ?_
  rw [hplace]
  infer_instance

instance unexpected {expected : List String} {context : String} :
    (Parser.unexpected expected context : Parser α).IgnoresLog (Parser.unexpected expected context) := by
  unfold Parser.unexpected
  infer_instance

instance expect {kind : TokenKind} {context : String} :
    (Parser.expect kind context).IgnoresLog (Parser.expect kind context) := by
  unfold Parser.expect
  infer_instance

/-! ### Loops and recovery -/

instance repeatWhile {test : Parser Bool} {step : α → Parser α} {start : α} [test.IgnoresLog test]
    [hstep : ∀ value, (step value).IgnoresLog (step value)] :
    (Parser.repeatWhile test step start).IgnoresLog (Parser.repeatWhile test step start) := by
  have hiterate : ∀ count value, (Parser.repeatWhile.iterate test step count value).IgnoresLog
      (Parser.repeatWhile.iterate test step count value) := by
    intro count
    induction count with
    | zero => exact fun _ => throw
    | succ count ih =>
      intro value
      unfold Parser.repeatWhile.iterate
      infer_instance
  unfold Parser.repeatWhile
  infer_instance

instance collectWhile {test : Parser Bool} {parser : Parser α} [test.IgnoresLog test]
    [parser.IgnoresLog parser] :
    (Parser.collectWhile test parser).IgnoresLog (Parser.collectWhile test parser) := by
  unfold Parser.collectWhile
  infer_instance

instance recover {parser : Parser α} [parser.IgnoresLog parser] :
    (Parser.recover parser).IgnoresLog (Parser.recover parser) := by
  unfold Parser.recover
  refine get fun _ _ _ => tryCatch inferInstance fun abort => ?_
  cases abort with
  | failed => exact get fun _ _ _ => inferInstance
  | _ => exact throw

instance synchronize {within : Enclosure} :
    (Parser.synchronize within).IgnoresLog (Parser.synchronize within) := by
  unfold Parser.synchronize
  refine get fun state state' hplace => ?_
  rw [hplace]
  infer_instance

instance items {item : Parser α} {closer : TokenKind} {commas : Bool} {what : String}
    [item.IgnoresLog item] :
    (Parser.items item closer commas what).IgnoresLog (Parser.items item closer commas what) := by
  have hend : ∀ within, (Parser.endItem within what).IgnoresLog (Parser.endItem within what) := by
    intro within
    unfold Parser.endItem
    infer_instance
  have hread : ∀ within answers, (Parser.readItem item within what answers).IgnoresLog
      (Parser.readItem item within what answers) := by
    intro within answers
    unfold Parser.readItem
    refine after fun found => ?_
    cases found <;> infer_instance
  have hnext : ∀ within answers, (Parser.nextItem item within what answers).IgnoresLog
      (Parser.nextItem item within what answers) := by
    intro within answers
    unfold Parser.nextItem Parser.skipSeparators
    have := hread within answers
    exact get fun _ _ _ => after fun _ => after fun _ => get fun _ _ _ => inferInstance
  have hstarts : ∀ within, (Parser.startsItem within).IgnoresLog (Parser.startsItem within) := by
    intro within
    unfold Parser.startsItem
    infer_instance
  unfold Parser.items Parser.enclose Parser.skipSeparators
  refine @bind _ _ _ _ _ _ (get fun state state' hplace => ?_) fun within => ?_
  · rw [hplace]
    infer_instance
  · exact after fun _ => after fun _ => after fun _ => get fun _ _ _ => inferInstance

end Parser.IgnoresLog

namespace Parser

/-! ### Patterns -/

instance ignoresLog_literalOf (token : Token) : (literalOf token).IgnoresLog (literalOf token) := by
  unfold literalOf
  split <;> infer_instance

instance ignoresLog_startsPatternAtom : startsPatternAtom.IgnoresLog startsPatternAtom := by
  unfold startsPatternAtom
  refine .after fun token => ?_
  split <;> infer_instance

instance ignoresLog_recordBracketFollows : recordBracketFollows.IgnoresLog recordBracketFollows := by
  unfold recordBracketFollows
  infer_instance

instance ignoresLog_negativeLiteral (sign : Token) :
    (negativeLiteral sign).IgnoresLog (negativeLiteral sign) := by
  unfold negativeLiteral
  dsimp only
  infer_instance

section

variable {inner : Parser Pattern} [inner.IgnoresLog inner]

instance ignoresLog_roundPattern : (roundPattern inner).IgnoresLog (roundPattern inner) := by
  unfold roundPattern
  dsimp only
  infer_instance

instance ignoresLog_curlyPattern : (curlyPattern inner).IgnoresLog (curlyPattern inner) := by
  unfold curlyPattern skipNewlines
  dsimp only
  infer_instance

instance ignoresLog_recordPatternItem :
    (recordPatternItem inner).IgnoresLog (recordPatternItem inner) := by
  unfold recordPatternItem skipNewlines
  dsimp only
  infer_instance

instance ignoresLog_recordPattern (constructor : Token) :
    (recordPattern inner constructor).IgnoresLog (recordPattern inner constructor) := by
  unfold recordPattern reportError
  dsimp only
  refine .after fun _ => .after fun _ => .after fun _ => .after fun _ => ?_
  split <;> infer_instance

instance ignoresLog_patternAtom : (patternAtom inner).IgnoresLog (patternAtom inner) := by
  unfold patternAtom
  refine .after fun token => ?_
  split <;> infer_instance

instance ignoresLog_pattern : (pattern inner).IgnoresLog (pattern inner) := by
  unfold pattern
  infer_instance

end

instance ignoresLog_patternAt (budget : Nat) : (patternAt budget).IgnoresLog (patternAt budget) := by
  induction budget with
  | zero => exact .throw
  | succ budget ih => exact ignoresLog_pattern

end Parser

end SableFrontend
