import SableFrontend.Grammar.Source
import SableFrontend.Proofs.Grammar.Reading

/-!
Parsers and the stretches of tokens that they read, in streams of any tokens. A parser `Consumes` a
stretch if it answers at its end without a word; this is how it is shown that what belongs to a grammar is
read. `Yields` says what holds whenever a parser answers; this is how it is shown that what is read belongs
to a grammar (`Recognizes`). Nothing is assumed of the delimiters in the stream.
-/

namespace SableFrontend

open Parser

theorem Token.isOperator_iff {token : Token} {spelling : String} :
    token.isOperator spelling = true ↔ token.kind = .operator ∧ token.value = spelling := by
  rw [Token.isOperator, Bool.and_eq_true, beq_iff_eq, beq_iff_eq]

namespace TokenStream

variable {stream : TokenStream} {α β : Type} {parser : Parser α} {next : α → Parser β} {answer : α}
  {answer' : β} {start middle stop : Nat}

theorem kind_ne_of_isOperator {spelling : String} (h : (stream.token start).isOperator spelling = true) :
    stream.kind start ≠ .endOfFile := by
  rw [show stream.kind start = .operator from (Token.isOperator_iff.1 h).1]
  exact TokenKind.noConfusion

/-! ### Consuming -/

/-- A parser reads an answer from one place to another, whatever has been reported before, and reports
nothing. -/
def Consumes (stream : TokenStream) (parser : Parser α) (start : Nat) (answer : α) (stop : Nat) : Prop :=
  ∀ log history, ∃ history', parser stream { position := start, log := log, history := history } =
    (.ok answer, { position := stop, log := log, history := history' })

namespace Consumes

/-- What is consumed is read. -/
theorem reads {set : Setting} {log : Log} (h : set.stream.Consumes parser start answer stop) :
    set.Reads log parser start answer stop := by
  intro history
  obtain ⟨history', hrun⟩ := h log history
  unfold Setting.Runs
  rw [hrun]
  exact ⟨rfl, rfl, rfl⟩

theorem pure : stream.Consumes (Pure.pure answer) start answer start := fun _ history => ⟨history, rfl⟩

theorem bind (h : stream.Consumes parser start answer middle)
    (hnext : stream.Consumes (next answer) middle answer' stop) :
    stream.Consumes (parser >>= next) start answer' stop := by
  intro log history
  obtain ⟨history', hrun⟩ := h log history
  obtain ⟨history'', hrun'⟩ := hnext log history'
  exact ⟨history'', by rw [Setting.bind_apply, hrun]; exact hrun'⟩

theorem map {function : α → β} (h : stream.Consumes parser start answer stop) :
    stream.Consumes (function <$> parser) start (function answer) stop := by
  intro log history
  obtain ⟨history', hrun⟩ := h log history
  exact ⟨history', by rw [Setting.map_apply, hrun]⟩

theorem ite_pos {c : Prop} [Decidable c] {first second : Parser α} (hc : c)
    (h : stream.Consumes first start answer stop) :
    stream.Consumes (if c then first else second) start answer stop := by
  rwa [if_pos hc]

theorem ite_neg {c : Prop} [Decidable c] {first second : Parser α} (hc : ¬c)
    (h : stream.Consumes second start answer stop) :
    stream.Consumes (if c then first else second) start answer stop := by
  rwa [if_neg hc]

theorem read {next : TokenStream → Parser α} (h : stream.Consumes (next stream) start answer stop) :
    stream.Consumes (MonadReader.read >>= next) start answer stop := h

theorem current : stream.Consumes Parser.current start (stream.token start) start :=
  fun _ history => ⟨history, rfl⟩

theorem peek {offset : Nat} :
    stream.Consumes (Parser.peek offset) start (stream.token (start + offset)) start :=
  fun _ history => ⟨history, rfl⟩

theorem isAt {kind : TokenKind} :
    stream.Consumes (Parser.isAt kind) start (stream.kind start == kind) start :=
  fun _ history => ⟨history, rfl⟩

theorem isAt_eq {kind : TokenKind} {verdict : Bool} (h : (stream.kind start == kind) = verdict) :
    stream.Consumes (Parser.isAt kind) start verdict start := h ▸ isAt

theorem isAtAny {isMember : TokenKind → Bool} :
    stream.Consumes (Parser.isAtAny isMember) start (isMember (stream.kind start)) start :=
  fun _ history => ⟨history, rfl⟩

theorem isAtAny_eq {isMember : TokenKind → Bool} {verdict : Bool}
    (h : isMember (stream.kind start) = verdict) :
    stream.Consumes (Parser.isAtAny isMember) start verdict start := h ▸ isAtAny

theorem isAtOperator {spelling : String} :
    stream.Consumes (Parser.isAtOperator spelling) start ((stream.token start).isOperator spelling) start :=
  fun _ history => ⟨history, rfl⟩

theorem spanFrom {first : Span} : stream.Consumes (Parser.spanFrom first) start
    (first.join (stream.token (start - 1)).span) start :=
  fun _ history => ⟨history, rfl⟩

theorem note {event : ParserEvent} : stream.Consumes (Parser.note event) start () start :=
  fun _ history => ⟨event :: history, rfl⟩

theorem advance (h : stream.kind start ≠ .endOfFile) :
    stream.Consumes Parser.advance start (stream.token start) (start + 1) := by
  exact fun _ history => ⟨history, advance_apply (succ_lt_size_of_kind rfl h)⟩

theorem expect {kind : TokenKind} {context : String} (h : stream.kind start = kind)
    (hend : kind ≠ .endOfFile) :
    stream.Consumes (Parser.expect kind context) start (stream.token start) (start + 1) :=
  isAt.bind (.ite_pos (beq_iff_eq.2 h) (.advance (h ▸ hend)))

theorem expectOperator {spelling context : String} (h : (stream.token start).isOperator spelling = true) :
    stream.Consumes (Parser.expectOperator spelling context) start (stream.token start) (start + 1) :=
  isAtOperator.bind (.ite_pos h (.advance (kind_ne_of_isOperator h)))

/-- Where nothing may be skipped the parser stays. -/
theorem skipWhile {isMember : TokenKind → Bool} (h : isMember (stream.kind start) = false) :
    stream.Consumes (Parser.skipWhile isMember) start () start := by
  intro log history
  refine ⟨history, ?_⟩
  show (Except.ok (), ParserState.mk (stream.skipWhile isMember start) log history) = _
  rw [skipWhile_eq_self h]

/-- A single token that may be skipped is skipped. -/
theorem skipWhile_succ {isMember : TokenKind → Bool} (h : isMember (stream.kind start) = true)
    (hstop : isMember (stream.kind (start + 1)) = false) (hend : stream.kind start ≠ .endOfFile) :
    stream.Consumes (Parser.skipWhile isMember) start () (start + 1) := by
  intro log history
  refine ⟨history, ?_⟩
  show (Except.ok (), ParserState.mk (stream.skipWhile isMember start) log history) = _
  rw [TokenStream.skipWhile, if_pos (Nat.lt_of_succ_lt (succ_lt_size_of_kind rfl hend)), if_pos h,
    skipWhile_eq_self hstop]

theorem currentDepth : stream.Consumes Parser.currentDepth start (stream.depth start) start :=
  fun _ history => ⟨history, rfl⟩

theorem iterate_done {test : Parser Bool} {step : α → Parser α} {count : Nat}
    (htest : stream.Consumes test start false start) :
    stream.Consumes (repeatWhile.iterate test step (count + 1) answer) start answer start :=
  htest.bind (.ite_neg Bool.false_ne_true .pure)

theorem iterate_step {test : Parser Bool} {step : α → Parser α} {count : Nat} {first last : α}
    (htest : stream.Consumes test start true start)
    (hstep : stream.Consumes (step first) start answer middle)
    (hrest : stream.Consumes (repeatWhile.iterate test step count answer) middle last stop) :
    stream.Consumes (repeatWhile.iterate test step (count + 1) first) start last stop :=
  htest.bind (.ite_pos rfl (hstep.bind hrest))

theorem get {next : ParserState → Parser β}
    (h : ∀ log history, stream.Consumes (next { position := start, log := log, history := history }) start
      answer' stop) : stream.Consumes (MonadState.get >>= next) start answer' stop :=
  fun log history => h log history log history

theorem recover (h : stream.Consumes parser start answer stop) :
    stream.Consumes (Parser.recover parser) start (some answer) stop := by
  refine get fun before history log history' => ?_
  obtain ⟨history'', hrun⟩ := h log history'
  exact ⟨history'', by rw [Setting.tryCatch_apply, Setting.map_apply, hrun]⟩

/-- What is consumed from a place on is one answer, up to one place. -/
theorem unique (h : stream.Consumes parser start answer stop) {other : α}
    (hother : stream.Consumes parser start other middle) : answer = other ∧ stop = middle := by
  obtain ⟨history, hrun⟩ := h .empty []
  obtain ⟨history', hrun'⟩ := hother .empty []
  rw [hrun] at hrun'
  injection hrun' with hanswer hstate
  injection hanswer with hanswer
  injection hstate with hstop
  exact ⟨hanswer, hstop⟩

end Consumes

/-! ### Recognizing -/

/-- What holds whenever a parser answers. -/
def Yields (stream : TokenStream) (parser : Parser α) (state : ParserState)
    (returns : α → ParserState → Prop) : Prop :=
  ∀ answer final, parser stream state = (.ok answer, final) → returns answer final

namespace Yields

variable {state : ParserState} {returns returns' : α → ParserState → Prop}
  {returns'' : β → ParserState → Prop}

theorem mono (h : stream.Yields parser state returns)
    (himplies : ∀ answer final, returns answer final → returns' answer final) :
    stream.Yields parser state returns' :=
  fun answer final hrun => himplies answer final (h answer final hrun)

theorem pure (h : returns answer state) : stream.Yields (Pure.pure answer) state returns := by
  intro answer' final hrun
  cases hrun
  exact h

theorem throw {abort : Abort} : stream.Yields (MonadExcept.throw abort : Parser α) state returns := by
  intro answer' final hrun
  cases hrun

theorem bind (h : stream.Yields parser state fun answer final =>
    stream.Yields (next answer) final returns'') :
    stream.Yields (parser >>= next) state returns'' := by
  intro answer final hrun
  rw [Setting.bind_apply] at hrun
  cases hparser : parser stream state with
  | mk result middle =>
    rw [hparser] at hrun
    cases result with
    | ok value => exact h value middle hparser answer final hrun
    | error => cases hrun

theorem map {function : α → β}
    (h : stream.Yields parser state fun answer final => returns'' (function answer) final) :
    stream.Yields (function <$> parser) state returns'' := by
  intro answer final hrun
  rw [Setting.map_apply] at hrun
  cases hparser : parser stream state with
  | mk result middle =>
    rw [hparser] at hrun
    cases result with
    | ok value =>
      cases hrun
      exact h value _ hparser
    | error => cases hrun

theorem ite {c : Prop} [Decidable c] {first second : Parser α}
    (h : c → stream.Yields first state returns) (h' : ¬c → stream.Yields second state returns) :
    stream.Yields (if c then first else second) state returns := by
  split
  · next hc => exact h hc
  · next hc => exact h' hc

theorem of_eq_ok (h : parser stream state = (.ok answer, state)) (hreturns : returns answer state) :
    stream.Yields parser state returns := by
  intro answer' final hrun
  rw [h] at hrun
  cases hrun
  exact hreturns

theorem current {returns : Token → ParserState → Prop} (h : returns (stream.token state.position) state) :
    stream.Yields Parser.current state returns := .of_eq_ok rfl h

theorem isAt {kind : TokenKind} {returns : Bool → ParserState → Prop}
    (h : returns (stream.kind state.position == kind) state) :
    stream.Yields (Parser.isAt kind) state returns := .of_eq_ok rfl h

theorem isAtAny {isMember : TokenKind → Bool} {returns : Bool → ParserState → Prop}
    (h : returns (isMember (stream.kind state.position)) state) :
    stream.Yields (Parser.isAtAny isMember) state returns := .of_eq_ok rfl h

theorem isAtOperator {spelling : String} {returns : Bool → ParserState → Prop}
    (h : returns ((stream.token state.position).isOperator spelling) state) :
    stream.Yields (Parser.isAtOperator spelling) state returns := .of_eq_ok rfl h

theorem spanFrom {first : Span} {returns : Span → ParserState → Prop}
    (h : returns (first.join (stream.token (state.position - 1)).span) state) :
    stream.Yields (Parser.spanFrom first) state returns := .of_eq_ok rfl h

theorem report {diagnostic : Diagnostic} {returns : Unit → ParserState → Prop}
    (h : returns () { state with log := state.log.report diagnostic }) :
    stream.Yields (Parser.report diagnostic) state returns := by
  intro answer final hrun
  cases hrun
  exact h

theorem unexpected {expected : List String} {context : String} :
    stream.Yields (Parser.unexpected expected context : Parser α) state returns :=
  .bind (.current (.bind (.report .throw)))

theorem advance {returns : Token → ParserState → Prop}
    (hkind : stream.kind state.position ≠ .endOfFile)
    (h : returns (stream.token state.position) { state with position := state.position + 1 }) :
    stream.Yields Parser.advance state returns := by
  intro answer final hrun
  rw [advance_apply (succ_lt_size_of_kind rfl hkind)] at hrun
  cases hrun
  exact h

theorem expect {kind : TokenKind} {context : String} {returns : Token → ParserState → Prop}
    (hend : kind ≠ .endOfFile)
    (h : stream.kind state.position = kind →
      returns (stream.token state.position) { state with position := state.position + 1 }) :
    stream.Yields (Parser.expect kind context) state returns :=
  .bind (.isAt (.ite (fun hat => .advance (fun heq => hend (heq ▸ beq_iff_eq.1 hat).symm)
    (h (beq_iff_eq.1 hat))) fun _ => .unexpected))

theorem expectOperator {spelling context : String} {returns : Token → ParserState → Prop}
    (h : (stream.token state.position).isOperator spelling = true →
      returns (stream.token state.position) { state with position := state.position + 1 }) :
    stream.Yields (Parser.expectOperator spelling context) state returns :=
  .bind (.isAtOperator (.ite (fun hat => .advance (kind_ne_of_isOperator hat) (h hat))
    fun _ => .unexpected))

/-- Where nothing may be skipped the parser stays. -/
theorem skipWhile {isMember : TokenKind → Bool} {returns : Unit → ParserState → Prop}
    (hnone : isMember (stream.kind state.position) = false) (h : returns () state) :
    stream.Yields (Parser.skipWhile isMember) state returns := by
  intro answer final hrun
  have hsame : Parser.skipWhile isMember stream state =
      (.ok (), { state with position := stream.skipWhile isMember state.position }) := rfl
  rw [hsame, skipWhile_eq_self hnone] at hrun
  cases hrun
  exact h

/-- What each step of a loop keeps holds at its end, where the test fails. -/
theorem repeatWhile {test : Parser Bool} {step : α → Parser α} {first : α}
    (invariant : α → ParserState → Prop) (hfirst : invariant first state)
    (htest : ∀ state, stream.Yields test state fun _ final => final = state)
    (hstep : ∀ value state, invariant value state → test stream state = (.ok true, state) →
      stream.Yields (step value) state invariant) :
    stream.Yields (Parser.repeatWhile test step first) state fun last final =>
      invariant last final ∧ test stream final = (.ok false, final) := by
  have hloop : ∀ count value state, invariant value state →
      stream.Yields (repeatWhile.iterate test step count value) state fun last final =>
        invariant last final ∧ test stream final = (.ok false, final) := by
    intro count
    induction count with
    | zero => exact fun _ _ _ => .throw
    | succ count ih =>
      intro value state hvalue
      refine .bind fun more final hrun => ?_
      obtain rfl := htest state more final hrun
      cases more with
      | true => exact .bind ((hstep value final hvalue hrun).mono fun next middle => ih next middle)
      | false => exact .pure ⟨hvalue, hrun⟩
  exact hloop _ first state hfirst

/-- What each answer that is collected keeps holds of all of them. -/
theorem collectWhile {test : Parser Bool} (invariant : List α → ParserState → Prop)
    (hfirst : invariant [] state) (htest : ∀ state, stream.Yields test state fun _ final => final = state)
    (hstep : ∀ answers state, invariant answers state → test stream state = (.ok true, state) →
      stream.Yields parser state fun answer final => invariant (answers ++ [answer]) final) :
    stream.Yields (Parser.collectWhile test parser) state fun answers final =>
      invariant answers final ∧ test stream final = (.ok false, final) := by
  refine .bind ((repeatWhile (fun reversed => invariant reversed.reverse) hfirst htest
    fun reversed state hreversed hrun => .bind ((hstep _ state hreversed hrun).mono
      fun answer final hanswer => .pure ?_)).mono fun _ _ hreversed => .pure hreversed)
  rwa [List.reverse_cons]

end Yields

/-- What is reported over two stretches is reported in one of them. -/
theorem quiet_parts {first second third : Nat} (h : first ≤ second) (h' : second ≤ third)
    (hquiet : third = first) : second = first ∧ third = second :=
  ⟨Nat.le_antisymm (hquiet ▸ h') h, Nat.le_antisymm (hquiet ▸ h) h'⟩

/-- What a parser answers, if it reports nothing, belongs to a language: the places where it begins and ends
do, with the answer. -/
def Recognizes (stream : TokenStream) (parser : Parser α) (language : Nat → Nat → α → Prop) : Prop :=
  ∀ state, state.log.muted = 0 → stream.Yields parser state fun answer final =>
    final.log.muted = 0 ∧ state.log.count ≤ final.log.count ∧
      (final.log.count = state.log.count → language state.position final.position answer)

/-- Going on from what has been recognized. -/
theorem Recognizes.yields {language : Nat → Nat → α → Prop} {state : ParserState}
    {returns : α → ParserState → Prop} (h : stream.Recognizes parser language)
    (hmuted : state.log.muted = 0)
    (hreturns : ∀ answer final, final.log.muted = 0 → state.log.count ≤ final.log.count →
      (final.log.count = state.log.count → language state.position final.position answer) →
      returns answer final) : stream.Yields parser state returns :=
  (h state hmuted).mono fun answer final ⟨hmuted, hle, hlanguage⟩ =>
    hreturns answer final hmuted hle hlanguage

/-! ### Lists -/

/-- One stretch or several, with commas between them. -/
inductive Listed (stream : TokenStream) (item : Nat → Nat → α → Prop) : Nat → Nat → List α → Prop
  | one {start stop : Nat} {answer : α} (h : item start stop answer) : Listed stream item start stop [answer]
  | more {start middle stop : Nat} {answer : α} {answers : List α} (h : item start middle answer)
      (hcomma : stream.kind middle = .comma) (hrest : Listed stream item (middle + 1) stop answers) :
      Listed stream item start stop (answer :: answers)

theorem Listed.mono {item item' : Nat → Nat → α → Prop} {answers : List α}
    (h : stream.Listed item start stop answers)
    (hitem : ∀ {start stop answer}, item start stop answer → item' start stop answer) :
    stream.Listed item' start stop answers := by
  induction h with
  | one hfirst => exact .one (hitem hfirst)
  | more hfirst hcomma _ ih => exact .more (hitem hfirst) hcomma ih

theorem Listed.concat {item : Nat → Nat → α → Prop} {answers : List α}
    (h : stream.Listed item start middle answers) (hcomma : stream.kind middle = .comma)
    (hlast : item (middle + 1) stop answer) : stream.Listed item start stop (answers ++ [answer]) := by
  induction h with
  | one hfirst => exact .more hfirst hcomma (.one hlast)
  | more hfirst hcomma' _ ih => exact .more hfirst hcomma' (ih hcomma hlast)

/-- What is collected behind commas makes a list with what stands in front of the first one. -/
theorem Yields.collectBehind (item : Nat → Nat → α → Prop) {state : ParserState}
    (hmuted : state.log.muted = 0)
    (hitem : ∀ state, state.log.muted = 0 → stream.kind state.position = .comma →
      stream.Yields parser state fun answer final =>
        final.log.muted = 0 ∧ state.log.count ≤ final.log.count ∧
          (final.log.count = state.log.count → item (state.position + 1) final.position answer)) :
    stream.Yields (Parser.collectWhile (Parser.isAt .comma) parser) state fun answers final =>
      final.log.muted = 0 ∧ state.log.count ≤ final.log.count ∧
        (stream.kind state.position = .comma → answers ≠ []) ∧
        (final.log.count = state.log.count → ∀ start first, item start state.position first →
          stream.Listed item start final.position (first :: answers)) := by
  have hkind : ∀ {final : ParserState} {verdict : Bool},
      Parser.isAt .comma stream final = (.ok verdict, final) →
      (stream.kind final.position == .comma) = verdict := fun hrun => by
    injection congrArg Prod.fst hrun
  let kept (answers : List α) (final : ParserState) : Prop :=
    final.log.muted = 0 ∧ state.log.count ≤ final.log.count ∧
      (answers = [] → final.position = state.position) ∧
      (final.log.count = state.log.count → ∀ start first, item start state.position first →
        stream.Listed item start final.position (first :: answers))
  refine (Yields.collectWhile kept ⟨hmuted, Nat.le_refl _, fun _ => rfl, fun _ _ _ h => .one h⟩
    (fun _ => .isAt rfl) fun answers middle ⟨hmuted, hle, _, hlisted⟩ hcomma => ?_).mono
    fun answers final ⟨⟨hmuted, hle, hempty, hlisted⟩, hdone⟩ =>
      ⟨hmuted, hle, fun hcomma hnil => ?_, hlisted⟩
  · replace hcomma := beq_iff_eq.1 (hkind hcomma)
    refine (hitem middle hmuted hcomma).mono fun answer final ⟨hmuted', hle', hanswer⟩ =>
      ⟨hmuted', Nat.le_trans hle hle', fun hnil => absurd hnil (by simp), fun hquiet start first hfirst => ?_⟩
    obtain ⟨hquiet₁, hquiet₂⟩ := quiet_parts hle hle' hquiet
    exact (hlisted hquiet₁ start first hfirst).concat hcomma (hanswer hquiet₂)
  · have hno := hkind hdone
    rw [hempty hnil, hcomma] at hno
    cases hno

/-- Any number of stretches, one behind the other. -/
inductive Repeated (item : Nat → Nat → α → Prop) : Nat → Nat → List α → Prop
  | none (start : Nat) : Repeated item start start []
  | more {start middle stop : Nat} {answer : α} {answers : List α} (h : item start middle answer)
      (hrest : Repeated item middle stop answers) : Repeated item start stop (answer :: answers)

namespace Repeated

variable {item : Nat → Nat → α → Prop} {answers : List α}

theorem concat (h : Repeated item start middle answers) (hlast : item middle stop answer) :
    Repeated item start stop (answers ++ [answer]) := by
  induction h with
  | none => exact .more hlast (.none _)
  | more hfirst _ ih => exact .more hfirst (ih hlast)

theorem mono {item' : Nat → Nat → α → Prop} (h : Repeated item start stop answers)
    (hitem : ∀ {start stop answer}, item start stop answer → item' start stop answer) :
    Repeated item' start stop answers := by
  induction h with
  | none => exact .none _
  | more hfirst _ ih => exact .more (hitem hfirst) ih

theorem le (h : Repeated item start stop answers)
    (hlt : ∀ {start stop answer}, item start stop answer → start < stop) : start ≤ stop := by
  induction h with
  | none => exact Nat.le_refl _
  | more hfirst _ ih => exact Nat.le_trans (Nat.le_of_lt (hlt hfirst)) ih

/-- What holds where each stretch begins, and behind the last one, holds where each ends. -/
theorem bordered {border : Nat → Prop} (h : Repeated item start stop answers)
    (hitem : ∀ {start stop answer}, item start stop answer → border start) (hstop : border stop) :
    border start ∧ Repeated (fun first last answer => item first last answer ∧ border last) start stop
      answers := by
  induction h with
  | none => exact ⟨hstop, .none _⟩
  | more hfirst _ ih => exact ⟨hitem hfirst, .more ⟨hfirst, (ih hstop).1⟩ (ih hstop).2⟩

/-- A loop takes a step over each of the stretches that are repeated, if the test holds just where a further
one begins. -/
theorem consumes_iterate {test : Parser Bool} {step : β → Parser β} {push : β → α → β}
    (h : Repeated item start stop answers)
    (hlt : ∀ {start stop answer}, item start stop answer → start < stop)
    (hitem : ∀ {start stop answer}, item start stop answer → stream.Consumes test start true start ∧
      ∀ value, stream.Consumes (step value) start (push value answer) stop)
    (hsize : stop < stream.size) (hdone : stream.Consumes test stop false stop) (first : β) :
    stream.Consumes (repeatWhile test step first) start (answers.foldl push first) stop := by
  have hloop : ∀ count first, stream.size ≤ count + start →
      stream.Consumes (repeatWhile.iterate test step count first) start (answers.foldl push first) stop := by
    induction h with
    | none =>
      intro count first hcount
      obtain ⟨count, rfl⟩ := Nat.exists_eq_succ_of_ne_zero (show count ≠ 0 by omega)
      exact .iterate_done hdone
    | more hfirst hrest ih =>
      intro count first hcount
      obtain ⟨htest, hstep⟩ := hitem hfirst
      have hle := hrest.le hlt
      have hfirst := hlt hfirst
      obtain ⟨count, rfl⟩ := Nat.exists_eq_succ_of_ne_zero (show count ≠ 0 by omega)
      exact .iterate_step htest (hstep first) (ih hsize hdone count _ (by omega))
  exact Consumes.read (hloop stream.size first (Nat.le_add_right ..))

/-- A loop collects what is repeated. -/
theorem consumes {test : Parser Bool} (h : Repeated item start stop answers)
    (hlt : ∀ {start stop answer}, item start stop answer → start < stop)
    (hitem : ∀ {start stop answer}, item start stop answer →
      stream.Consumes test start true start ∧ stream.Consumes parser start answer stop)
    (hsize : stop < stream.size) (hdone : stream.Consumes test stop false stop) :
    stream.Consumes (collectWhile test parser) start answers stop := by
  let step (answers : List α) : Parser (List α) := do return (← parser) :: answers
  let push (reversed : List α) (answer : α) : List α := answer :: reversed
  have hall := @consumes_iterate _ _ _ _ _ _ _ test step push h (fun h => hlt h)
    (fun h => ⟨(hitem h).1, fun _ => (hitem h).2.bind .pure⟩) hsize hdone []
  refine Consumes.bind hall ?_
  rw [List.foldl_flip_cons_eq_append', List.append_nil, List.reverse_reverse]
  exact .pure

end Repeated

namespace Listed

variable {item : Nat → Nat → α → Prop} {follows : TokenKind → Prop} {answers : List α}

theorem map {function : α → β} (h : stream.Listed item start stop answers) :
    stream.Listed (fun first last value => ∃ answer, item first last answer ∧ function answer = value) start
      stop (answers.map function) := by
  induction h with
  | one hfirst => exact .one ⟨_, hfirst, rfl⟩
  | more hfirst hcomma _ ih => exact .more ⟨_, hfirst, rfl⟩ hcomma ih

/-- A list is its first entry and, behind it, those behind a comma each. Behind each entry stands a comma,
or what stands behind the list. -/
theorem exists_repeated (h : stream.Listed item start stop answers) (hcomma : follows .comma)
    (hstop : follows (stream.kind stop)) :
    ∃ head more middle, answers = head :: more ∧ item start middle head ∧ follows (stream.kind middle) ∧
      (stream.kind middle = .comma ∨ middle = stop ∧ more = []) ∧
      Repeated (fun start stop answer => stream.kind start = .comma ∧ item (start + 1) stop answer ∧
        follows (stream.kind stop)) middle stop more := by
  induction h with
  | one hitem => exact ⟨_, [], _, rfl, hitem, hstop, Or.inr ⟨rfl, rfl⟩, .none _⟩
  | @more start middle stop answer answers hitem hkind _ ih =>
    obtain ⟨head, more, next, rfl, hhead, hfollows, -, hrest⟩ := ih hstop
    exact ⟨answer, head :: more, middle, rfl, hitem, hkind ▸ hcomma, Or.inl hkind,
      .more ⟨hkind, hhead, hfollows⟩ hrest⟩

/-- Behind the first entry of a list the others are collected, up to a token that is no comma. -/
theorem exists_consumes (h : stream.Listed item start stop answers)
    (hlt : ∀ {start stop answer}, item start stop answer → start < stop)
    (hbehind : ∀ {start stop answer}, stream.kind start = .comma → item (start + 1) stop answer →
      follows (stream.kind stop) → stream.Consumes parser start answer stop)
    (hsize : stop < stream.size) (hcomma : follows .comma) (hstop : follows (stream.kind stop))
    (hend : stream.kind stop ≠ .comma) :
    ∃ head more middle, answers = head :: more ∧ item start middle head ∧ follows (stream.kind middle) ∧
      (stream.kind middle = .comma ∨ middle = stop ∧ more = []) ∧
      stream.Consumes (collectWhile (Parser.isAt .comma) parser) middle more stop := by
  obtain ⟨head, more, middle, hanswers, hhead, hfollows, hplace, hrest⟩ :=
    h.exists_repeated hcomma hstop
  refine ⟨head, more, middle, hanswers, hhead, hfollows, hplace, hrest.consumes
    (fun ⟨_, hitem, _⟩ => Nat.lt_of_succ_lt (hlt hitem)) (fun ⟨hkind, hitem, hfollows⟩ =>
      ⟨.isAt_eq (beq_iff_eq.2 hkind), hbehind hkind hitem hfollows⟩)
    hsize (.isAt_eq (beq_eq_false_iff_ne.2 hend))⟩

/-- A list is its entries, each with the comma behind it. -/
theorem repeated (h : stream.Listed item start stop answers) :
    Repeated (fun first last answer => ∃ middle, item first middle answer ∧
      (stream.kind middle = .comma ∧ last = middle + 1 ∨ middle = stop ∧ last = stop)) start stop answers := by
  induction h with
  | one hitem => exact .more ⟨_, hitem, Or.inr ⟨rfl, rfl⟩⟩ (.none _)
  | more hitem hcomma _ ih => exact .more ⟨_, hitem, Or.inl ⟨hcomma, rfl⟩⟩ ih

/-- Items with commas between them are read up to the closer. -/
theorem consumes_items {closer : TokenKind} {what : String} (h : stream.Listed item start stop answers)
    (hlt : ∀ {start stop answer}, item start stop answer → start < stop)
    (hopens : ∀ {start stop answer}, item start stop answer → stream.kind start ≠ closer ∧
      stream.kind start ≠ .endOfFile ∧ (stream.kind start).separates true = false)
    (hitem : ∀ {start stop answer}, item start stop answer →
      stream.kind stop = .comma ∨ stream.kind stop = closer → stream.Consumes parser start answer stop)
    (hstop : stream.kind stop = closer) (hend : closer ≠ .endOfFile) (hcloser : closer.separates true = false) :
    stream.Consumes (items parser closer true what) start answers stop := by
  let within : Enclosure :=
    { first := start, level := stream.depth start, closer := closer, commas := true }
  have hsize := Nat.lt_of_succ_lt (succ_lt_size_of_kind hstop hend)
  have hstops : (stream.kind stop).separates true = false := by rw [hstop, hcloser]
  let border (position : Nat) : Prop := (stream.kind position).separates true = false
  obtain ⟨hstart, hrounds⟩ := @Repeated.bordered _ _ _ _ _ border h.repeated
    (fun ⟨_, hread, _⟩ => (hopens hread).2.2) hstops
  have hended : ∀ {position}, stream.kind position = .comma ∨ stream.kind position = closer →
      stream.Consumes (endItem within what) position () position := by
    refine fun {position} hplace => .bind .current (.ite_pos ?_ .pure)
    rw [Bool.or_eq_true, beq_iff_eq]
    exact hplace.elim (fun hcomma => Or.inr (by rw [show (stream.token position).kind = _ from hcomma]; rfl))
      fun hclose => Or.inl hclose
  let push (reversed : List α) (answer : α) : List α := answer :: reversed
  have hloop := @Repeated.consumes_iterate _ _ _ _ _ _ _ (startsItem within)
    (nextItem parser within what) push hrounds
    (fun ⟨⟨_, hread, hplace⟩, _⟩ => by have := hlt hread; omega)
    (fun {start last answer} ⟨⟨middle, hread, hplace⟩, hborder⟩ => by
      obtain ⟨hclose, hfile, -⟩ := hopens hread
      refine ⟨.bind .isAt (.bind .isAt (by rw [beq_eq_false_iff_ne.2 hclose, beq_eq_false_iff_ne.2 hfile]
                                           exact .pure)), fun value => ?_⟩
      have hbehind : stream.kind middle = .comma ∨ stream.kind middle = closer :=
        hplace.imp And.left fun ⟨heq, _⟩ => heq ▸ hstop
      have hskip : stream.Consumes (skipSeparators true) middle () last := by
        rcases hplace with ⟨hcomma, rfl⟩ | ⟨rfl, rfl⟩
        · exact .skipWhile_succ (by rw [hcomma]; rfl) hborder (by rw [hcomma]; exact TokenKind.noConfusion)
        · exact .skipWhile hstops
      refine .get fun _ _ => .bind ?_ (.bind hskip (.get fun _ _ => .bind .note .pure))
      exact .bind (hitem hread hbehind).recover (.bind (hended hbehind).recover (.ite_neg (by decide) .pure)))
    hsize (.bind .isAt (.bind .isAt (by rw [hstop, beq_self_eq_true]; exact .pure))) []
  have hdone : stream.Consumes (items parser closer true what) start
      (answers.foldl (fun reversed answer => answer :: reversed) []).reverse stop :=
    .bind (.get fun _ _ => .bind .currentDepth .pure) (.bind .note (.bind (.skipWhile hstart)
      (.bind hloop (.get fun _ _ => .bind .note .pure))))
  rwa [List.foldl_flip_cons_eq_append', List.append_nil, List.reverse_reverse] at hdone

end Listed

/-! ### Whole sources -/

theorem Consumes.boundNesting (h : stream.Consumes parser start answer stop) :
    stream.Consumes (boundNesting parser) start answer stop := by
  intro log history
  obtain ⟨history', hrun⟩ := h log history
  exact ⟨history', by rw [Parser.boundNesting, Setting.tryCatch_apply, hrun]⟩

theorem Yields.boundNesting {state : ParserState} {returns : α → ParserState → Prop}
    (h : stream.Yields parser state returns) : stream.Yields (boundNesting parser) state returns := by
  intro answer final hrun
  rw [Parser.boundNesting, Setting.tryCatch_apply] at hrun
  cases hparser : parser stream state with
  | mk result middle =>
    rw [hparser] at hrun
    cases result with
    | ok value => cases hrun; exact h _ _ hparser
    | error abort => cases abort <;> cases hrun

/-- Of a source without separators just the sentences of a language are answered without a word, by a parser
that recognizes the language and consumes what belongs to it. -/
theorem whole_iff {language : Nat → Nat → α → Prop}
    (hplain : ∀ position, (stream.kind position).isSeparator = false)
    (hparser : stream.Recognizes parser language)
    (hlanguage : ∀ {stop}, language 0 stop answer → stream.kind stop = .endOfFile →
      stream.Consumes parser 0 answer stop) :
    (∃ final, whole parser stream .initial = (.ok answer, final) ∧ final.log.diagnostics = #[]) ↔
      ∃ stop, language 0 stop answer ∧ stream.kind stop = .endOfFile := by
  have hskip : ∀ position, (stream.kind position).separates false = false := fun position => by
    rw [TokenKind.separates, hplain]; rfl
  constructor
  · rintro ⟨final, hrun, hquiet⟩
    have hyields : stream.Yields (whole parser) .initial fun answer final =>
        final.log.count = 0 → ∃ stop, language 0 stop answer ∧ stream.kind stop = .endOfFile := by
      refine .bind (.skipWhile (hskip 0) (.boundNesting (.bind (hparser.yields rfl
        fun value middle _ _ hvalue => .bind (.skipWhile (hskip _) (.bind (.isAt (.ite
          (fun _ => .bind .unexpected) fun hend => .pure fun hquiet => ?_))))))))
      rw [Bool.not_eq_true, Bool.not_eq_false', beq_iff_eq] at hend
      exact ⟨middle.position, hvalue hquiet, hend⟩
    exact hyields answer final hrun (by rw [Log.count, hquiet]; rfl)
  · rintro ⟨stop, h, hstop⟩
    have hinside : stream.Consumes (whole parser) 0 answer stop :=
      .bind (.skipWhile (hskip 0)) (.boundNesting ((hlanguage h hstop).bind (.bind (.skipWhile (hskip stop))
        (.bind (.isAt_eq (beq_iff_eq.2 hstop)) (.ite_neg Bool.false_ne_true .pure)))))
    obtain ⟨history, hrun⟩ := hinside .empty []
    exact ⟨_, hrun, rfl⟩

end TokenStream

/-- What is read without a word from the tokens of a text is what the text is parsed to. -/
theorem parseWhole_eq_ok {α : Type} {parser : Parser α} {text file : String} {tokens : Array Token}
    {stream : TokenStream} {value : α} {final : ParserState} (hlexes : Token.ofText text file = .ok tokens)
    (hstream : TokenStream.ofTokens? tokens = some stream)
    (hrun : whole parser stream .initial = (.ok value, final)) (hquiet : final.log.diagnostics = #[]) :
    parseWhole parser text file = .ok value := by
  unfold parseWhole
  rw [hlexes]
  dsimp only [runParser]
  rw [hstream]
  dsimp only
  rw [hrun]
  dsimp only
  rw [hquiet]
  rfl

end SableFrontend
