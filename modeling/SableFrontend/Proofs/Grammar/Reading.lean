import SableFrontend.Grammar.Source
import SableFrontend.Proofs.Grammar.Expr

/-!
What is read without a word. A parser reads an answer from one place to another if it gives that
answer there and has reported nothing on the way (`Setting.Reads`), or else leaves a log behind in which
something has been (`Setting.Leaves`). What is read one behind the other
is read together: in a sequence of steps (`Reads.bind`), and in a loop over items, each of which ends
in front of a separator or of what closes them all (`Reads.items`).
-/

namespace SableFrontend

open TokenStream SableFrontend.Parser

/-! ### Reports one behind the other -/

/-- Diagnostics are reported one after the other. -/
def ParserState.reportAll (state : ParserState) (diagnostics : List Diagnostic) : ParserState :=
  { state with log := diagnostics.foldl Log.report state.log }

@[simp] theorem ParserState.reportAll_nil (state : ParserState) : state.reportAll [] = state := rfl

theorem ParserState.reportAll_append (state : ParserState) (first second : List Diagnostic) :
    state.reportAll (first ++ second) = (state.reportAll first).reportAll second := by
  simp only [reportAll, List.foldl_append]

/-- What is reported is added behind what has been. -/
theorem ParserState.reportAll_log {state : ParserState} (h : state.log.muted = 0)
    (diagnostics : List Diagnostic) :
    (state.reportAll diagnostics).log.diagnostics.toList =
        state.log.diagnostics.toList ++ diagnostics ∧
      (state.reportAll diagnostics).log.muted = 0 := by
  induction diagnostics generalizing state with
  | nil => exact ⟨(List.append_nil _).symm, h⟩
  | cons diagnostic rest ih =>
    have hreport : (state.reportAll [diagnostic]).log.muted = 0 := by
      rw [← h]
      exact Log.report_muted ..
    obtain ⟨hlog, hmuted⟩ := ih hreport
    rw [← List.singleton_append, reportAll_append, hlog, ← List.append_assoc]
    refine ⟨congrArg (· ++ rest) ?_, hmuted⟩
    show (state.log.report diagnostic).diagnostics.toList = _
    rw [Log.report, if_pos h, Array.toList_push]

/-- A log is known by what has been reported. -/
theorem Log.eq_foldl_report {log later : Log} {diagnostics : List Diagnostic} (h : log.muted = 0)
    (hmuted : later.muted = 0)
    (hreports : later.diagnostics.toList = log.diagnostics.toList ++ diagnostics) :
    later = diagnostics.foldl Log.report log := by
  obtain ⟨hlog, hzero⟩ := @ParserState.reportAll_log { ParserState.initial with log := log } h
    diagnostics
  show Log.mk later.diagnostics later.muted = Log.mk (diagnostics.foldl Log.report log).diagnostics
    (diagnostics.foldl Log.report log).muted
  rw [Array.toList_inj.1 (hreports.trans hlog.symm), hmuted]
  exact congrArg (Log.mk _) hzero.symm

theorem Parser.reportAll_apply {stream : TokenStream} {state : ParserState}
    (diagnostics : List Diagnostic) :
    (diagnostics.forM report : Parser PUnit) stream state =
      (.ok ⟨⟩, state.reportAll diagnostics) := by
  induction diagnostics generalizing state with
  | nil => rfl
  | cons diagnostic rest ih =>
    show ((report diagnostic >>= fun _ => rest.forM report : Parser PUnit)) stream state = _
    rw [Setting.bind_apply]
    exact ih

/-- In front of another token the current one is consumed. -/
theorem Parser.advance_apply {stream : TokenStream} {state : ParserState}
    (hlt : state.position + 1 < stream.size) :
    advance stream state =
      (.ok (stream.token state.position), { state with position := state.position + 1 }) := by
  show (if state.position + 1 < stream.size then do
      moveTo (state.position + 1)
      return stream.token state.position
    else return stream.token state.position : Parser Token) stream state = _
  rw [if_pos hlt]
  rfl

/-- A token that is expected is consumed. -/
theorem Parser.expect_apply {stream : TokenStream} {state : ParserState} {kind : TokenKind}
    {context : String} (hkind : stream.kind state.position = kind)
    (hlt : state.position + 1 < stream.size) :
    expect kind context stream state =
      (.ok (stream.token state.position), { state with position := state.position + 1 }) := by
  unfold expect
  rw [Setting.bind_apply]
  show (if stream.kind state.position == kind then advance
    else unexpected [TokenKind.describe kind] context) stream state = _
  rw [if_pos (beq_iff_eq.2 hkind), advance_apply hlt]

namespace Setting

/-- What holds of the answers of a parser holds of this one. -/
theorem Runs.returns {set : Setting} {α : Type} {parser : Parser α} {state final : ParserState}
    {answer : α} {returns : α → ParserState → Prop} {stops : Abort → ParserState → Prop}
    (h : set.Runs parser state returns stops)
    (hrun : parser set.stream state = (.ok answer, final)) : returns answer final := by
  unfold Setting.Runs at h
  rw [hrun] at h
  exact h

/-- A parser that does not give up answers. -/
theorem Runs.exists_ok {set : Setting} {α : Type} {parser : Parser α} {state : ParserState}
    {returns : α → ParserState → Prop} (h : set.Runs parser state returns fun _ _ => False) :
    ∃ answer final, parser set.stream state = (.ok answer, final) ∧ returns answer final := by
  unfold Setting.Runs at h
  split at h
  · next answer final heq => exact ⟨answer, final, heq, h⟩
  · exact h.elim

theorem Runs.reportAll {set : Setting} {state : ParserState} {diagnostics : List Diagnostic}
    {returns : PUnit → ParserState → Prop} {stops : Abort → ParserState → Prop}
    (h : returns ⟨⟩ (state.reportAll diagnostics)) :
    set.Runs (diagnostics.forM Parser.report : Parser PUnit) state returns stops := by
  unfold Setting.Runs
  rw [reportAll_apply]
  exact h

theorem Runs.expect {set : Setting} {state : ParserState} {kind : TokenKind} {context : String}
    {returns : Token → ParserState → Prop} {stops : Abort → ParserState → Prop}
    (hkind : set.stream.kind state.position = kind) (hlt : state.position + 1 < set.stream.size)
    (h : returns (set.stream.token state.position) { state with position := state.position + 1 }) :
    set.Runs (Parser.expect kind context) state returns stops := by
  unfold Setting.Runs
  rw [expect_apply hkind hlt]
  exact h

theorem Runs.skipWhile {set : Setting} {state : ParserState} {isMember : TokenKind → Bool}
    {returns : Unit → ParserState → Prop} {stops : Abort → ParserState → Prop}
    (h : returns () { state with position := set.stream.skipWhile isMember state.position }) :
    set.Runs (Parser.skipWhile isMember) state returns stops :=
  .bind (.read (.bind (.get (.moveTo h))))

/-! ### Reading -/

/-- A parser reads an answer from one place to another and leaves a log behind. -/
def Leaves {α : Type} (set : Setting) (log : Log) (parser : Parser α) (start : Nat) (answer : α)
    (stop : Nat) (later : Log) : Prop :=
  ∀ history, set.Runs parser { position := start, log := log, history := history }
    (fun given final => given = answer ∧ final.position = stop ∧ final.log = later)
    fun _ _ => False

/-- A parser reads an answer from one place to another, with nothing reported behind what is in the
log. -/
def Reads {α : Type} (set : Setting) (log : Log) (parser : Parser α) (start : Nat) (answer : α)
    (stop : Nat) : Prop :=
  ∀ history, set.Runs parser { position := start, log := log, history := history }
    (fun given final => given = answer ∧ final.position = stop ∧ final.log = log)
    fun _ _ => False

variable {set : Setting} {log : Log} {α β : Type} {parser : Parser α} {next : α → Parser β}
  {answer : α} {answer' : β} {start middle stop : Nat}

namespace Leaves

variable {later last : Log}

/-- What has been read is gone on from. -/
theorem runs_bind (h : set.Leaves log parser start answer middle later)
    {returns : β → ParserState → Prop} {stops : Abort → ParserState → Prop}
    (hnext : ∀ history, set.Runs (next answer)
      { position := middle, log := later, history := history } returns stops)
    (history : List ParserEvent) : set.Runs (parser >>= next)
      { position := start, log := log, history := history } returns stops := by
  refine .bind ((h history).mono (fun given final ⟨hanswer, hposition, hlog⟩ => ?_)
    fun _ _ => False.elim)
  obtain ⟨position, log, history⟩ := final
  subst hanswer hposition hlog
  exact hnext history

theorem bind (h : set.Leaves log parser start answer middle later)
    (hnext : set.Leaves later (next answer) middle answer' stop last) :
    set.Leaves log (parser >>= next) start answer' stop last :=
  fun history => h.runs_bind hnext history

theorem map {function : α → β} (h : set.Leaves log parser start answer stop later) :
    set.Leaves log (function <$> parser) start (function answer) stop later :=
  fun history => Runs.map ((h history).mono (fun _ _ hread => ⟨congrArg function hread.1, hread.2⟩)
    fun _ _ => False.elim)

theorem ite_pos {c : Prop} [Decidable c] {first second : Parser α} (hc : c)
    (h : set.Leaves log first start answer stop later) :
    set.Leaves log (if c then first else second) start answer stop later := by
  rwa [if_pos hc]

theorem ite_neg {c : Prop} [Decidable c] {first second : Parser α} (hc : ¬c)
    (h : set.Leaves log second start answer stop later) :
    set.Leaves log (if c then first else second) start answer stop later := by
  rwa [if_neg hc]

theorem recover (h : set.Leaves log parser start answer stop later) :
    set.Leaves log (Parser.recover parser) start (some answer) stop later :=
  fun history => Runs.bind (Runs.get (Runs.tryCatch (((h.map) history).mono (fun _ _ hread => hread)
    fun _ _ => False.elim)))

end Leaves

namespace Reads

theorem leaves (h : set.Reads log parser start answer stop) :
    set.Leaves log parser start answer stop log := h

theorem runs_bind (h : set.Reads log parser start answer middle)
    {returns : β → ParserState → Prop} {stops : Abort → ParserState → Prop}
    (hnext : ∀ history, set.Runs (next answer)
      { position := middle, log := log, history := history } returns stops)
    (history : List ParserEvent) : set.Runs (parser >>= next)
      { position := start, log := log, history := history } returns stops :=
  h.leaves.runs_bind hnext history

theorem pure : set.Reads log (Pure.pure answer) start answer start :=
  fun _ => Runs.pure ⟨rfl, rfl, rfl⟩

theorem bind (h : set.Reads log parser start answer middle)
    (hnext : set.Reads log (next answer) middle answer' stop) :
    set.Reads log (parser >>= next) start answer' stop :=
  h.leaves.bind hnext.leaves

theorem map {function : α → β} (h : set.Reads log parser start answer stop) :
    set.Reads log (function <$> parser) start (function answer) stop :=
  h.leaves.map

theorem ite_pos {c : Prop} [Decidable c] {first second : Parser α} (hc : c)
    (h : set.Reads log first start answer stop) :
    set.Reads log (if c then first else second) start answer stop :=
  h.leaves.ite_pos hc

theorem ite_neg {c : Prop} [Decidable c] {first second : Parser α} (hc : ¬c)
    (h : set.Reads log second start answer stop) :
    set.Reads log (if c then first else second) start answer stop :=
  h.leaves.ite_neg hc

/-! ### Single steps -/

theorem current : set.Reads log Parser.current start (set.stream.token start) start :=
  fun _ => Runs.current ⟨rfl, rfl, rfl⟩

theorem isAt {kind : TokenKind} :
    set.Reads log (Parser.isAt kind) start (set.stream.kind start == kind) start :=
  fun _ => Runs.isAt ⟨rfl, rfl, rfl⟩

theorem spanFrom {first : Span} : set.Reads log (Parser.spanFrom first) start
    (first.join (set.stream.token (start - 1)).span) start :=
  fun _ => Runs.bind (Runs.previous (Runs.pure ⟨rfl, rfl, rfl⟩))

theorem advance (hlt : start + 1 < set.stream.size) :
    set.Reads log Parser.advance start (set.stream.token start) (start + 1) :=
  fun _ => Runs.advance hlt ⟨rfl, rfl, rfl⟩

theorem expect {kind : TokenKind} {context : String} (hkind : set.stream.kind start = kind)
    (hlt : start + 1 < set.stream.size) :
    set.Reads log (Parser.expect kind context) start (set.stream.token start) (start + 1) :=
  isAt.bind (.ite_pos (beq_iff_eq.2 hkind) (.advance hlt))

theorem skipWhile {isMember : TokenKind → Bool} :
    set.Reads log (Parser.skipWhile isMember) start () (set.stream.skipWhile isMember start) :=
  fun _ => Runs.bind (Runs.read (Runs.bind (Runs.get (Runs.moveTo ⟨rfl, rfl, rfl⟩))))

theorem note {event : ParserEvent} : set.Reads log (Parser.note event) start () start :=
  fun _ => Runs.note ⟨rfl, rfl, rfl⟩

theorem recover (h : set.Reads log parser start answer stop) :
    set.Reads log (Parser.recover parser) start (some answer) stop :=
  h.leaves.recover

end Reads

/-! ### Atoms as expressions -/

section

variable {state : ParserState}

/-- A loop of which the test fails at once. -/
theorem Runs.repeatWhile_done {test : Parser Bool} {step : α → Parser α} {value : α}
    {returns : α → ParserState → Prop} {stops : Abort → ParserState → Prop}
    (htest : test set.stream state = (.ok false, state)) (h : returns value state) :
    set.Runs (repeatWhile test step value) state returns stops := by
  obtain ⟨count, hcount⟩ := Nat.exists_eq_succ_of_ne_zero (Nat.ne_of_gt set.stream.size_pos)
  refine .bind (.read ?_)
  rw [hcount, repeatWhile.iterate]
  unfold Setting.Runs
  rw [bind_apply, htest]
  exact h

/-- An atom in front of a token at which an item may end is a whole expression. -/
theorem runs_expression_of_atom {budget minPower : Nat}
    (hoperator : set.stream.kind state.position ≠ .operator)
    (hif : set.stream.kind state.position ≠ .keyword .ifWord)
    (hcase : set.stream.kind state.position ≠ .keyword .caseWord)
    {returns : Expr → ParserState → Prop} {stops : Abort → ParserState → Prop}
    (h : set.Runs (atom (.ofRules budget (produce budget))) state
      (fun answer final => (set.stream.kind final.position).isBoundary = true ∧
        returns answer final) stops) :
    set.Runs (α := Expr) (produce (budget + 1) (.expression minPower)) state returns stops := by
  refine Runs.bind (.bind (.current (.ite (fun hprefix => ?_) fun _ => ?_)))
  · exact absurd (beq_iff_eq.1 (Bool.and_eq_true_iff.1 hprefix).1) hoperator
  refine .bind (.current (.ite (fun hat => absurd (beq_iff_eq.1 hat) hif) fun _ =>
    .ite (fun hat => absurd (beq_iff_eq.1 hat) hcase) fun _ => ?_))
  refine .bind (.bind (h.mono (fun answer final ⟨hboundary, hreturns⟩ => ?_)
    fun _ _ hstops => hstops))
  have hne : ∀ {kind : TokenKind}, kind.isBoundary = false →
      (set.stream.kind final.position == kind) = false :=
    fun hother => beq_eq_false_iff_ne.2 fun heq => by
      rw [heq, hother] at hboundary
      cases hboundary
  refine .repeatWhile_done ?_ (.repeatWhile_done ?_ (.bind (.repeatWhile_done ?_ (.pure hreturns))))
  · show (Except.ok (set.stream.kind final.position == .dot && _), final) = (Except.ok false, final)
    rw [hne rfl, Bool.false_and]
  · have hopens : opensArgument (set.stream.token final.position).kind = false :=
      opensArgument_of_isBoundary hboundary
    have hdot : ((set.stream.token final.position).kind == .dot) = false := hne rfl
    rw [startsArgument_apply, hopens, hdot]
    rfl
  · show (Except.ok (set.stream.kind final.position == .operator && _), final) =
      (Except.ok false, final)
    rw [hne rfl, Bool.false_and]

end

/-! ### Reading items -/

/-- Items that are read one behind the other, up to what closes them. -/
inductive ReadsItems (set : Setting) (log : Log) (item : Parser α) (within : Enclosure) :
    Nat → List α → Nat → Prop
  | done {close : Nat} (hkind : set.stream.kind close = within.closer) :
      ReadsItems set log item within close [] close
  | more {start stop close : Nat} {answer : α} {answers : List α}
      (hstart : set.stream.kind start ≠ within.closer)
      (hend : set.stream.kind start ≠ .endOfFile) (hlt : start < stop)
      (hsize : stop < set.stream.size) (hitem : set.Reads log item start answer stop)
      (hstop : set.stream.kind stop = within.closer ∨
        (set.stream.kind stop).separates within.commas = true)
      (hrest : ReadsItems set log item within
        (set.stream.skipWhile (·.separates within.commas) stop) answers close) :
      ReadsItems set log item within start (answer :: answers) close

/-- A round over an item that ends where it should. -/
theorem Leaves.nextItem {item : Parser α} {within : Enclosure} {what : String} {later : Log}
    (hitem : set.Leaves log item start answer stop later)
    (hstop : set.stream.kind stop = within.closer ∨
      (set.stream.kind stop).separates within.commas = true) (items : List α) :
    set.Leaves log (Parser.nextItem item within what items) start (answer :: items)
      (set.stream.skipWhile (·.separates within.commas) stop) later := by
  have hends : set.Reads later (endItem within what) stop () stop := by
    refine Reads.current.bind (.ite_pos ?_ .pure)
    rw [Bool.or_eq_true, beq_iff_eq]
    exact hstop
  have hread : set.Leaves log (readItem item within what items) start (answer :: items) stop later :=
    hitem.recover.bind (hends.recover.bind .pure)
  intro history
  refine Runs.bind (.get (hread.runs_bind (Reads.skipWhile.runs_bind fun history => ?_) history))
  refine Runs.bind (.get ?_)
  refine Reads.note.runs_bind (fun _ => ?_) history
  exact Runs.pure ⟨rfl, rfl, rfl⟩

namespace Reads

variable {item : Parser α} {within : Enclosure} {what : String} {answers : List α} {close : Nat}

theorem nextItem (hitem : set.Reads log item start answer stop)
    (hstop : set.stream.kind stop = within.closer ∨
      (set.stream.kind stop).separates within.commas = true) (items : List α) :
    set.Reads log (Parser.nextItem item within what items) start (answer :: items)
      (set.stream.skipWhile (·.separates within.commas) stop) :=
  hitem.leaves.nextItem hstop items

theorem iterate (h : set.ReadsItems log item within start answers close) {count : Nat}
    (hcount : set.stream.size ≤ count + start) (hsize : close < set.stream.size) (before : List α) :
    set.Reads log (repeatWhile.iterate (startsItem within) (Parser.nextItem item within what) count
      before) start (answers.reverse ++ before) close := by
  induction h generalizing count before with
  | @done close hkind =>
    obtain ⟨count, rfl⟩ := Nat.exists_eq_succ_of_ne_zero (n := count) (by omega)
    have htest : set.Reads log (startsItem within) close false close := by
      refine isAt.bind (isAt.bind ?_)
      rw [hkind, beq_self_eq_true]
      exact .pure
    exact htest.bind (.ite_neg Bool.false_ne_true .pure)
  | @more start stop close answer answers hstart hend hlt _ hitem hstop _ ih =>
    have hnext := le_skipWhile set.stream (·.separates within.commas) stop
    obtain ⟨count, rfl⟩ := Nat.exists_eq_succ_of_ne_zero (n := count) (by omega)
    have htest : set.Reads log (startsItem within) start true start := by
      refine isAt.bind (isAt.bind ?_)
      rw [beq_eq_false_iff_ne.2 hstart, beq_eq_false_iff_ne.2 hend]
      exact .pure
    refine htest.bind (.ite_pos rfl ((hitem.nextItem hstop before).bind ?_))
    rw [List.reverse_cons, List.append_assoc]
    exact ih (by omega) hsize _

/-- Items that are read one behind the other are read together. -/
theorem items {closer : TokenKind} {commas : Bool} (hsize : close < set.stream.size)
    (h : set.ReadsItems log item
      { first := start, level := set.stream.depth start, closer := closer, commas := commas }
      (set.stream.skipWhile (·.separates commas) start) answers close) :
    set.Reads log (Parser.items item closer commas what) start answers close := by
  let within : Enclosure :=
    { first := start, level := set.stream.depth start, closer := closer, commas := commas }
  have hloop : set.Reads log (repeatWhile (startsItem within) (Parser.nextItem item within what) [])
      (set.stream.skipWhile (·.separates commas) start) answers.reverse close := by
    intro history
    refine Runs.bind (.read ?_)
    have hiterate : set.Reads log (repeatWhile.iterate (startsItem within)
        (Parser.nextItem item within what) set.stream.size [])
        (set.stream.skipWhile (·.separates commas) start) (answers.reverse ++ []) close :=
      iterate h (Nat.le_add_right ..) hsize []
    rw [List.append_nil] at hiterate
    exact hiterate history
  intro history
  refine Runs.bind (.bind (.get (.bind (.bind (.read (.bind (.get (.pure (.pure ?_)))))))))
  refine note.runs_bind (fun history => ?_) history
  refine skipWhile.runs_bind (fun history => ?_) history
  refine hloop.runs_bind (fun history => ?_) history
  refine Runs.bind (.get (note.runs_bind (fun history => ?_) history))
  rw [List.reverse_reverse]
  exact Runs.pure ⟨rfl, rfl, rfl⟩

end Reads

end Setting

end SableFrontend
