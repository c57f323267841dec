import SableFrontend.Proofs.Grammar.Loops
import SableFrontend.Proofs.Tree.LastBranch

/-!
What parsers answer as long as no conditional is reported to lack its last branch. Such a report is
never taken back, so what has not been reported at the end of a run has not been reported in the
middle of it either: what is known of an answer that was given there is still known at the end.
`Parser.Gives` says that a parser takes no report back (`Lasting`), and what its answer is like.
-/

namespace SableFrontend

/-- No conditional has been reported to lack its last branch, and no report would have gone
unheard. -/
def Log.Complete (log : Log) : Prop :=
  log.muted = 0 ∧ ∀ diagnostic ∈ log.diagnostics, diagnostic.kind ≠ .missingElseBranch

theorem Log.Complete.of_report {log : Log} {diagnostic : Diagnostic}
    (h : (log.report diagnostic).Complete) :
    log.Complete ∧ diagnostic.kind ≠ .missingElseBranch := by
  obtain ⟨hmuted, hnone⟩ := h
  rw [Log.report_muted] at hmuted
  rw [Log.report, if_pos hmuted] at hnone
  exact ⟨⟨hmuted, fun other hmem => hnone other (Array.mem_push.2 (Or.inl hmem))⟩,
    hnone diagnostic (Array.mem_push.2 (Or.inr rfl))⟩

variable {α β : Type}

/-- A parser after which no branch has been reported to be missing only if none was before. -/
class Parser.Lasting (parser : Parser α) : Prop where
  complete : ∀ stream state, (parser stream state).2.log.Complete → state.log.Complete

/-- A parser takes no report of a missing branch back, and if there is none at its end, `q` is true of
its answer. So much is said if `k` is known as long as there is none at its beginning. -/
structure Parser.Gives (k : Prop) (parser : Parser α) (q : α → Prop) : Prop where
  lasting : parser.Lasting
  answer : ∀ {stream state answer final}, parser stream state = (.ok answer, final) →
    (state.log.Complete → k) → final.log.Complete → q answer

open SableFrontend.Parser

/-! ### Steps -/

namespace Parser.Gives

variable {k : Prop} {parser : Parser α} {next : α → Parser β} {q : α → Prop} {r : β → Prop}

theorem of_lasting [h : parser.Lasting] (hall : ∀ answer, q answer) : parser.Gives k q :=
  ⟨h, fun _ _ _ => hall _⟩

theorem of_known {k' : Prop} (h : parser.Gives k' q) (hmono : k → k') : parser.Gives k q :=
  ⟨h.lasting, fun hrun hknown => h.answer hrun fun hstate => hmono (hknown hstate)⟩

theorem mono (h : parser.Gives k q) {q' : α → Prop} (hmono : ∀ answer, q answer → q' answer) :
    parser.Gives k q' :=
  ⟨h.lasting, fun hrun hknown hfinal => hmono _ (h.answer hrun hknown hfinal)⟩

theorem pure {answer : α} (h : k → q answer) : (Pure.pure answer : Parser α).Gives k q :=
  ⟨⟨fun _ _ h => h⟩, fun hrun hknown hfinal => by
    cases hrun
    exact h (hknown hfinal)⟩

theorem throw {abort : Abort} : (MonadExcept.throw abort : Parser α).Gives k q :=
  ⟨⟨fun _ _ h => h⟩, fun hrun _ _ => nomatch hrun⟩

theorem bind (h : parser.Gives k q) (hnext : ∀ answer, (next answer).Gives (k ∧ q answer) r) :
    (parser >>= next).Gives k r := by
  have hfirst := h.lasting.complete
  constructor
  · refine ⟨fun stream state hfinal => hfirst stream state ?_⟩
    rw [Setting.bind_apply] at hfinal
    cases hrun : parser stream state with
    | mk result middle =>
      rw [hrun] at hfinal
      cases result with
      | error => exact hfinal
      | ok answer => exact (hnext answer).lasting.complete stream middle hfinal
  · intro stream state answer' final hrun hknown hfinal
    replace hfirst := hfirst stream state
    rw [Setting.bind_apply] at hrun
    cases hparser : parser stream state with
    | mk result middle =>
      rw [hparser] at hrun hfirst
      cases result with
      | error => cases hrun
      | ok answer =>
        refine (hnext answer).answer hrun (fun hmiddle => ?_) hfinal
        exact ⟨hknown (hfirst hmiddle), h.answer hparser hknown hmiddle⟩

/-- What is read first does not matter. -/
theorem after [parser.Lasting] (hnext : ∀ answer, (next answer).Gives k r) :
    (parser >>= next).Gives k r :=
  (of_lasting (q := fun _ => True) fun _ => trivial).bind fun answer =>
    (hnext answer).of_known And.left

theorem map {function : α → β} (h : parser.Gives k fun answer => r (function answer)) :
    (function <$> parser).Gives k r := by
  rw [map_eq_pure_bind]
  exact h.bind fun _ => .pure fun hknown => hknown.2

theorem ite {c : Prop} [Decidable c] {first second : Parser α} (hpos : c → first.Gives k q)
    (hneg : ¬c → second.Gives k q) : (if c then first else second : Parser α).Gives k q := by
  split
  · exact hpos ‹_›
  · exact hneg ‹_›

theorem tryCatch {handler : Abort → Parser α} (h : parser.Gives k q)
    (hhandler : ∀ abort, (handler abort).Gives k q) :
    (MonadExcept.tryCatch parser handler).Gives k q := by
  have hfirst := h.lasting.complete
  constructor
  · refine ⟨fun stream state hfinal => hfirst stream state ?_⟩
    rw [Setting.tryCatch_apply] at hfinal
    cases hrun : parser stream state with
    | mk result middle =>
      rw [hrun] at hfinal
      cases result with
      | ok => exact hfinal
      | error abort => exact (hhandler abort).lasting.complete stream middle hfinal
  · intro stream state answer final hrun hknown hfinal
    replace hfirst := hfirst stream state
    rw [Setting.tryCatch_apply] at hrun
    cases hparser : parser stream state with
    | mk result middle =>
      rw [hparser] at hrun hfirst
      cases result with
      | ok =>
        cases hrun
        exact h.answer hparser hknown hfinal
      | error abort =>
        exact (hhandler abort).answer hrun (fun hmiddle => hknown (hfirst hmiddle)) hfinal

/-- Of what follows the report that a branch is missing anything is true. -/
theorem reportMissing {message : String} {span : Span} {notes : List String} {q : Unit → Prop} :
    (reportError .missingElseBranch message span notes).Gives k q :=
  ⟨⟨fun _ _ h => h.of_report.1⟩, fun hrun _ hfinal => by
    cases hrun
    exact absurd rfl hfinal.of_report.2⟩

end Parser.Gives

/-! ### Parsers of which the answer does not matter -/

namespace Parser.Lasting

theorem gives (parser : Parser α) [h : parser.Lasting] (k : Prop) :
    parser.Gives k fun _ => True :=
  ⟨h, fun _ _ _ => trivial⟩

instance (answer : α) : (pure answer : Parser α).Lasting := ⟨fun _ _ h => h⟩

instance (abort : Abort) : (throw abort : Parser α).Lasting := ⟨fun _ _ h => h⟩

instance (parser : Parser α) (next : α → Parser β) [parser.Lasting]
    [∀ answer, (next answer).Lasting] : (parser >>= next).Lasting :=
  ((gives parser True).bind fun answer => gives (next answer) _).lasting

theorem after {parser : Parser α} {next : α → Parser β} [parser.Lasting]
    (hnext : ∀ answer, (next answer).Lasting) : (parser >>= next).Lasting :=
  inferInstance

instance (function : α → β) (parser : Parser α) [parser.Lasting] :
    (function <$> parser).Lasting := by
  rw [map_eq_pure_bind]
  infer_instance

instance (c : Prop) [Decidable c] (first second : Parser α) [first.Lasting] [second.Lasting] :
    (if c then first else second : Parser α).Lasting := by
  split <;> infer_instance

instance (parser : Parser α) (handler : Abort → Parser α) [parser.Lasting]
    [∀ abort, (handler abort).Lasting] : (tryCatch parser handler).Lasting :=
  ((gives parser True).tryCatch fun abort => gives (handler abort) True).lasting

instance : (read : Parser TokenStream).Lasting := ⟨fun _ _ h => h⟩
instance : (get : Parser ParserState).Lasting := ⟨fun _ _ h => h⟩
instance (position : Nat) : (moveTo position).Lasting := ⟨fun _ _ h => h⟩
instance (event : ParserEvent) : (note event).Lasting := ⟨fun _ _ h => h⟩
instance (diagnostic : Diagnostic) : (report diagnostic).Lasting := ⟨fun _ _ h => h.of_report.1⟩

/-- What an attempt has reported is left behind with everything else. -/
instance (attempt : Parser Bool) : (speculate attempt).Lasting := by
  refine ⟨fun stream state => ?_⟩
  have hlog : (speculate attempt stream state).2.log = state.log := by
    show (tryCatch (attempt >>= fun verdict => rewind state >>= fun _ => pure verdict)
      (fun abort => rewind state >>= fun _ => match abort with
        | .failed => pure false
        | other => throw other) stream
      { state with log := state.log.mute }).2.log = state.log
    rw [Setting.tryCatch_apply, Setting.bind_apply]
    cases attempt stream { state with log := state.log.mute } with
    | mk result final =>
      cases result with
      | ok verdict => rfl
      | error abort => cases abort <;> rfl
  rw [hlog]
  exact id

-- the grammar unfolds into larger terms than instances are looked for by default
set_option synthInstance.maxSize 2000

instance : current.Lasting := by unfold current; infer_instance
instance (offset : Nat) : (peek offset).Lasting := by unfold peek; infer_instance
instance : previous.Lasting := by unfold previous; infer_instance
instance (kind : TokenKind) : (isAt kind).Lasting := by unfold isAt; infer_instance
instance (isMember : TokenKind → Bool) : (isAtAny isMember).Lasting := by
  unfold isAtAny; infer_instance
instance (spelling : String) : (isAtOperator spelling).Lasting := by
  unfold isAtOperator; infer_instance
instance : currentDepth.Lasting := by unfold currentDepth; infer_instance
instance (stops : TokenKind → Bool) : (firstStop stops).Lasting := by
  unfold firstStop; infer_instance
instance (start : Span) : (spanFrom start).Lasting := by unfold spanFrom; infer_instance
instance : advance.Lasting := by unfold advance; infer_instance
instance (isMember : TokenKind → Bool) : (skipWhile isMember).Lasting := by
  unfold skipWhile; infer_instance
instance : skipNewlines.Lasting := by unfold skipNewlines; infer_instance
instance (commas : Bool) : (skipSeparators commas).Lasting := by
  unfold skipSeparators; infer_instance

section

variable {kind : DiagnosticKind} {message context : String} {span : Span} {notes : List String}
  {within : Enclosure}

instance : (reportError kind message span notes).Lasting := by unfold reportError; infer_instance
instance : (failWith kind message span notes : Parser α).Lasting := by
  unfold failWith; infer_instance
instance : (unexpected notes context : Parser α).Lasting := by unfold unexpected; infer_instance
instance {kind : TokenKind} : (expect kind context).Lasting := by unfold expect; infer_instance
instance {spelling : String} : (expectOperator spelling context).Lasting := by
  unfold expectOperator; infer_instance
instance : (synchronize within).Lasting := by unfold synchronize; infer_instance
instance {what : String} : (endItem within what).Lasting := by unfold endItem; infer_instance
instance : (startsItem within).Lasting := by unfold startsItem; infer_instance
instance {closer : TokenKind} {commas : Bool} : (enclose closer commas).Lasting := by
  unfold enclose; infer_instance

end

end Parser.Lasting

/-! ### Loops -/

namespace Parser.Gives

variable {k : Prop} {parser : Parser α} {q : α → Prop}

theorem repeatWhile {test : Parser Bool} [test.Lasting] {step : α → Parser α} {start : α}
    (hstep : ∀ value, (step value).Gives (k ∧ q value) q) (hstart : k → q start) :
    (Parser.repeatWhile test step start).Gives k q := by
  have hloop : ∀ (count : Nat) (value : α),
      (repeatWhile.iterate test step count value).Gives (k ∧ q value) q := by
    intro count
    induction count with
    | zero => exact fun _ => .throw
    | succ count ih =>
      refine fun value => .after fun more => .ite (fun _ => .bind (hstep value) fun next => ?_)
        fun _ => .pure fun h => h.2
      exact (ih next).of_known fun h => ⟨h.1.1, h.2⟩
  exact .after fun stream => (hloop _ start).of_known fun h => ⟨h, hstart h⟩

/-- What has been recovered from is left out. -/
theorem recover {q : Option α → Prop} (h : parser.Gives k fun answer => q (some answer))
    (hnone : q none) : (Parser.recover parser).Gives k q := by
  refine after fun before => tryCatch (map h) fun abort => ?_
  split
  · exact after fun _ => after fun _ => pure fun _ => hnone
  · exact throw

variable [Forest α] {p : Outline → Prop}

theorem collectWhile {test : Parser Bool} [test.Lasting] (h : ∀ k, parser.Gives k (Every p)) :
    (Parser.collectWhile test parser).Gives k (Every p) := by
  have hloop : (Parser.repeatWhile test (fun answers => do return (← parser) :: answers) []).Gives k
      (Every p) :=
    repeatWhile (fun answers => bind (h _) fun answer =>
      pure fun hknown => every_cons.2 ⟨hknown.2, hknown.1.2⟩) fun _ => every_nil
  exact bind hloop fun reversed => pure fun hknown =>
    hknown.2.subset fun tree => mem_trees_reverse.1

theorem items {closer : TokenKind} {commas : Bool} {what : String}
    (h : ∀ k, parser.Gives k (Every p)) :
    (Parser.items parser closer commas what).Gives k (Every p) := by
  have hends : ∀ within, (Parser.recover (endItem within what)).Lasting := fun within =>
    (recover (q := fun _ => True) (Lasting.gives (endItem within what) True) trivial).lasting
  have hread : ∀ within answers, (readItem parser within what answers).Gives
      (k ∧ Every p answers) (Every p) := by
    intro within answers
    refine bind (recover (q := Every p) (h _) every_none) fun answer? => ?_
    cases answer? with
    | none => exact after fun _ => pure fun hknown => hknown.1.2
    | some answer =>
      exact after fun _ => ite
        (fun _ => after fun _ => pure fun hknown => every_cons.2 ⟨hknown.2, hknown.1.2⟩)
        fun _ => pure fun hknown => every_cons.2 ⟨hknown.2, hknown.1.2⟩
  have hitem : ∀ within answers, (nextItem parser within what answers).Gives
      (k ∧ Every p answers) (Every p) := fun within answers =>
    after fun _ => bind (hread within answers) fun more =>
      after fun _ => after fun _ => after fun _ => pure fun hknown => hknown.2
  refine after fun within => after fun _ => after fun _ =>
    bind (repeatWhile (hitem within) fun _ => every_nil) fun reversed =>
      after fun _ => after fun _ => pure fun hknown => hknown.2.subset fun tree => ?_
  exact mem_trees_reverse.1

end Parser.Gives

namespace Parser.Lasting

instance (test : Parser Bool) (step : α → Parser α) (start : α) [test.Lasting]
    [∀ value, (step value).Lasting] : (repeatWhile test step start).Lasting :=
  (Gives.repeatWhile (k := True) (q := fun _ => True) (fun value => gives (step value) _)
    fun _ => trivial).lasting

section

variable [Forest α] (parser : Parser α) [parser.Lasting]

theorem gives_every (k : Prop) : parser.Gives k (Every fun _ => True) :=
  .of_lasting fun _ _ _ => trivial

instance (test : Parser Bool) [test.Lasting] : (collectWhile test parser).Lasting :=
  (Gives.collectWhile (k := True) (gives_every parser)).lasting

instance (closer : TokenKind) (commas : Bool) (what : String) :
    (items parser closer commas what).Lasting :=
  (Gives.items (k := True) (gives_every parser)).lasting

end

end Parser.Lasting

end SableFrontend
