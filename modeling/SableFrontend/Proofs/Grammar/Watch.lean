import SableFrontend.Proofs.Grammar.Source

/-!
What parsers answer while the log is watched. A watch is a condition on logs that reports may break and
that nothing restores, such as that no error has been reported; where it holds at the end of a run it
has held all along, so what is known of an answer that was given on the way is still known at the end.
`Watch.Answers` says of a parser what its answers are like, and a production is followed through its
steps with one rule for each kind of step.
-/

namespace SableFrontend

open Parser Setting

/-- A condition on logs that has held before if it holds later. -/
structure Watch (set : Setting) where
  holds : Log → Prop
  back : ∀ {first later : ParserState}, set.Follows first later → holds later.log → holds first.log

namespace Watch

variable {set : Setting} (watch : Watch set) {α β : Type}

/-- The watch over nothing. -/
def always (set : Setting) : Watch set where
  holds _ := True
  back _ _ := trivial

/-- A later state, in which the watch holds only if it has held before. -/
structure Onward (first later : ParserState) : Prop where
  lt : later.position < set.stream.size
  back : watch.holds later.log → watch.holds first.log

/-- A parser stays in its stream, and if the watch holds at its end, `q` is true of its answer. -/
def Answers (parser : Parser α) (q : α → Prop) : Prop :=
  ∀ state, state.position < set.stream.size →
    set.Runs parser state
      (fun answer final => watch.Onward state final ∧ (watch.holds final.log → q answer))
      fun _ final => watch.Onward state final

variable {watch} {first middle later state : ParserState}

theorem Onward.refl (h : state.position < set.stream.size) : watch.Onward state state := ⟨h, id⟩

theorem Onward.trans (h : watch.Onward first middle) (h' : watch.Onward middle later) :
    watch.Onward first later :=
  ⟨h'.lt, fun hlater => h.back (h'.back hlater)⟩

theorem Onward.of_follows (hlt : later.position < set.stream.size) (h : set.Follows first later) :
    watch.Onward first later :=
  ⟨hlt, watch.back h⟩

/-- Without a report nothing breaks. -/
theorem Onward.of_log_eq (hlt : later.position < set.stream.size) (h : later.log = first.log) :
    watch.Onward first later :=
  ⟨hlt, fun hlater => h ▸ hlater⟩

namespace Answers

variable {parser : Parser α} {next : α → Parser β} {p q : α → Prop} {r : β → Prop}

/-! ### Steps -/

/-- What is known of the answer of a run. -/
theorem answer (h : watch.Answers parser q) (hlt : state.position < set.stream.size) {value : α}
    (hrun : parser set.stream state = (.ok value, later)) (hholds : watch.holds later.log) : q value := by
  have hruns := h state hlt
  unfold Setting.Runs at hruns
  rw [hrun] at hruns
  exact hruns.2 hholds

theorem mono (h : watch.Answers parser p) (hmono : ∀ answer, p answer → q answer) :
    watch.Answers parser q :=
  fun state hlt => (h state hlt).mono
    (fun answer _ ⟨honward, hp⟩ => ⟨honward, fun hholds => hmono answer (hp hholds)⟩) fun _ _ h => h

theorem pure {answer : α} (h : q answer) : watch.Answers (Pure.pure answer) q :=
  fun _ hlt => .pure ⟨.refl hlt, fun _ => h⟩

theorem throw {abort : Abort} : watch.Answers (MonadExcept.throw abort : Parser α) q :=
  fun _ hlt => .throw (.refl hlt)

/-- What comes next may rely on what is known of the answer before it. -/
theorem bind (h : watch.Answers parser p)
    (hnext : ∀ answer, watch.Answers (next answer) fun value => p answer → r value) :
    watch.Answers (parser >>= next) r := by
  refine fun state hlt => .bind ((h state hlt).mono (fun answer middle ⟨hmiddle, hp⟩ => ?_)
    fun _ _ h => h)
  exact (hnext answer middle hmiddle.lt).mono
    (fun _ _ ⟨hfinal, hr⟩ => ⟨hmiddle.trans hfinal, fun hholds => hr hholds (hp (hfinal.back hholds))⟩)
    fun _ _ hfinal => hmiddle.trans hfinal

/-- What is read first does not matter. -/
theorem after (h : watch.Answers parser p) (hnext : ∀ answer, watch.Answers (next answer) r) :
    watch.Answers (parser >>= next) r :=
  h.bind fun answer => (hnext answer).mono fun _ hr _ => hr

theorem map {function : α → β} (h : watch.Answers parser fun answer => r (function answer)) :
    watch.Answers (function <$> parser) r :=
  fun state hlt => .map (h state hlt)

theorem ite {c : Prop} [Decidable c] {other : Parser α} (hpos : c → watch.Answers parser q)
    (hneg : ¬c → watch.Answers other q) : watch.Answers (if c then parser else other) q := by
  split
  · exact hpos ‹_›
  · exact hneg ‹_›

theorem tryCatch {handler : Abort → Parser α} (h : watch.Answers parser q)
    (hhandler : ∀ abort, watch.Answers (handler abort) q) :
    watch.Answers (MonadExcept.tryCatch parser handler) q := by
  refine fun state hlt => .tryCatch ((h state hlt).mono (fun _ _ h => h) fun abort middle hmiddle => ?_)
  exact (hhandler abort middle hmiddle.lt).mono
    (fun _ _ ⟨hfinal, hq⟩ => ⟨hmiddle.trans hfinal, hq⟩) fun _ _ hfinal => hmiddle.trans hfinal

/-- A parser that keeps to the rules. -/
theorem of_obeys {moved : Bool} (h : set.Obeys moved parser) :
    watch.Answers parser fun _ => True :=
  fun state hlt => (h state hlt).mono
    (fun _ _ hfinal => ⟨.of_follows hfinal.lt hfinal.follows, fun _ => trivial⟩)
    fun _ _ hstops => .of_follows hstops.within.lt hstops.follows

/-- A parser that only looks. -/
theorem still (h : ∀ state, ∃ answer, parser set.stream state = (.ok answer, state)) :
    watch.Answers parser fun _ => True := by
  intro state hlt
  obtain ⟨answer, hrun⟩ := h state
  unfold Setting.Runs
  rw [hrun]
  exact ⟨.refl hlt, fun _ => trivial⟩

/-! ### Looking -/

theorem read : watch.Answers MonadReader.read fun _ => True := still fun _ => ⟨_, rfl⟩

theorem get : watch.Answers MonadState.get fun _ => True := still fun _ => ⟨_, rfl⟩

theorem current : watch.Answers Parser.current fun token => token ∈ set.stream.tokens :=
  fun _ hlt => .current ⟨.refl hlt, fun _ => TokenStream.token_mem hlt⟩

theorem peek {offset : Nat} : watch.Answers (Parser.peek offset) fun _ => True :=
  still fun _ => ⟨_, rfl⟩

theorem isAt {kind : TokenKind} : watch.Answers (Parser.isAt kind) fun _ => True :=
  still fun _ => ⟨_, rfl⟩

theorem isAtAny {isMember : TokenKind → Bool} : watch.Answers (Parser.isAtAny isMember) fun _ => True :=
  still fun _ => ⟨_, rfl⟩

theorem firstStop {stops : TokenKind → Bool} : watch.Answers (Parser.firstStop stops) fun _ => True :=
  still fun _ => ⟨_, rfl⟩

theorem spanFrom {start : Span} : watch.Answers (Parser.spanFrom start) fun _ => True :=
  still fun _ => ⟨_, rfl⟩

theorem enclose {closer : TokenKind} {commas : Bool} :
    watch.Answers (Parser.enclose closer commas) fun _ => True :=
  still fun _ => ⟨_, rfl⟩

theorem startsItem {within : Enclosure} : watch.Answers (Parser.startsItem within) fun _ => True :=
  after isAt fun _ => after isAt fun _ => pure trivial

/-! ### Moving -/

theorem advance : watch.Answers Parser.advance fun _ => True := by
  refine fun state hlt => .bind (.read (.bind (.get (.ite (fun hnext => ?_) fun _ => ?_))))
  · exact .bind (.moveTo (.pure ⟨.of_log_eq hnext rfl, fun _ => trivial⟩))
  · exact .pure ⟨.refl hlt, fun _ => trivial⟩

theorem skipNewlines : watch.Answers Parser.skipNewlines fun _ => True :=
  fun _ hlt => (Reached.refl hlt).skipNewlines fun _ hfinal _ =>
    ⟨.of_follows hfinal.lt hfinal.follows, fun _ => trivial⟩

theorem skipSeparators {commas : Bool} : watch.Answers (Parser.skipSeparators commas) fun _ => True :=
  fun _ hlt => (Reached.refl hlt).skipSeparators fun _ hfinal =>
    ⟨.of_follows hfinal.lt hfinal.follows, fun _ => trivial⟩

theorem note {event : ParserEvent} : watch.Answers (Parser.note event) fun _ => True :=
  fun _ hlt => .note ⟨.of_log_eq hlt rfl, fun _ => trivial⟩

theorem synchronize {within : Enclosure} : watch.Answers (Parser.synchronize within) fun _ => True := by
  have hresume : ∀ position, position < set.stream.size →
      set.stream.resumePosition within.level within.commas position < set.stream.size := by
    intro position hlt
    fun_induction TokenStream.resumePosition set.stream within.level within.commas position with
    | case1 => exact hlt
    | case2 => assumption
    | case3 _ hnext _ _ _ _ ih => exact ih hnext
    | case4 => exact hlt
  refine fun state hlt => .bind (.get (.bind (.read (.bind (.moveTo (.note ?_))))))
  exact ⟨.of_log_eq (hresume state.position hlt) rfl, fun _ => trivial⟩

/-! ### Reporting -/

theorem report {diagnostic : Diagnostic} (h : set.admits diagnostic) :
    watch.Answers (Parser.report diagnostic) fun _ => True :=
  fun state hlt => .report ⟨.of_follows hlt ((Follows.refl state).report h), fun _ => trivial⟩

section

variable {kind : DiagnosticKind} {message context : String} {span : Span} {notes : List String}

theorem reportError (hlexical : kind ≠ .lexError) (hmismatch : kind ≠ .ascriptionMismatch) :
    watch.Answers (Parser.reportError kind message span notes) fun _ => True :=
  report (set.grammatical (Diagnostic.isGrammatical_errorAt hlexical hmismatch))

theorem failWith (hlexical : kind ≠ .lexError) (hmismatch : kind ≠ .ascriptionMismatch) :
    watch.Answers (Parser.failWith kind message span notes : Parser α) q :=
  after (reportError hlexical hmismatch) fun _ => throw

theorem unexpected : watch.Answers (Parser.unexpected notes context : Parser α) q :=
  after current fun _ => after (report (set.grammatical
    (Diagnostic.isGrammatical_errorAt DiagnosticKind.noConfusion DiagnosticKind.noConfusion)))
    fun _ => throw

/-- A token that is expected stands in the stream. -/
theorem expect {kind : TokenKind} :
    watch.Answers (Parser.expect kind context) fun token =>
      token ∈ set.stream.tokens ∧ token.kind = kind := by
  refine fun state hlt => .bind (.isAt (.ite (fun hat => ?_) fun _ => unexpected state hlt))
  have hmem := TokenStream.token_mem hlt
  refine .bind (.read (.bind (.get (.ite (fun hnext => ?_) fun _ => ?_))))
  · exact .bind (.moveTo (.pure ⟨.of_log_eq hnext rfl, fun _ => ⟨hmem, beq_iff_eq.1 hat⟩⟩))
  · exact .pure ⟨.refl hlt, fun _ => ⟨hmem, beq_iff_eq.1 hat⟩⟩

theorem expectOperator {spelling : String} :
    watch.Answers (Parser.expectOperator spelling context) fun _ => True :=
  after (still fun _ => ⟨_, rfl⟩) fun _ => ite (fun _ => advance) fun _ => unexpected

end

/-! ### Loops and recovery -/

theorem repeatWhile {test : Parser Bool} {step : α → Parser α} {start : α}
    (htest : watch.Answers test fun _ => True)
    (hstep : ∀ value, watch.Answers (step value) fun answer => q value → q answer) (hstart : q start) :
    watch.Answers (Parser.repeatWhile test step start) q := by
  have hloop : ∀ (count : Nat) (value : α), watch.Answers (repeatWhile.iterate test step count value)
      fun answer => q value → q answer := by
    intro count
    induction count with
    | zero => exact fun _ => throw
    | succ count ih =>
      refine fun value => after htest fun more => ite (fun _ => ?_) fun _ => pure id
      exact bind (hstep value) fun next => (ih next).mono fun _ hnext hvalue hstart =>
        hnext (hvalue hstart)
  exact after read fun stream => (hloop _ start).mono fun _ h => h hstart

theorem collectWhile {test : Parser Bool} (htest : watch.Answers test fun _ => True)
    (h : watch.Answers parser q) :
    watch.Answers (Parser.collectWhile test parser) fun answers => ∀ answer ∈ answers, q answer := by
  have hloop : watch.Answers
      (Parser.repeatWhile test (fun answers => do return (← parser) :: answers) [])
      fun answers => ∀ answer ∈ answers, q answer :=
    repeatWhile htest (fun answers => bind h fun answer => pure fun hanswer hold =>
      List.forall_mem_cons.2 ⟨hanswer, hold⟩) (List.forall_mem_nil q)
  exact bind hloop fun reversed => pure fun hall answer hmem => hall answer (List.mem_reverse.1 hmem)

/-- What has been recovered from is left out. -/
theorem recover {q : Option α → Prop} (h : watch.Answers parser fun answer => q (some answer))
    (hnone : q none) : watch.Answers (Parser.recover parser) q := by
  refine after get fun before => tryCatch (map h) fun abort => ?_
  split
  · exact after get fun _ => after note fun _ => pure hnone
  · exact throw

/-- Whatever is read of the items of an enclosure, each one has been answered. -/
theorem items {closer : TokenKind} {commas : Bool} {what : String} (h : watch.Answers parser q) :
    watch.Answers (Parser.items parser closer commas what) fun answers => ∀ answer ∈ answers, q answer := by
  have hend : ∀ within, watch.Answers (endItem within what) fun _ => True := fun within =>
    after current fun _ => ite (fun _ => pure trivial) fun _ => unexpected
  have hread : ∀ within answers, watch.Answers (readItem parser within what answers) fun more =>
      (∀ answer ∈ answers, q answer) → ∀ answer ∈ more, q answer := by
    intro within answers
    refine bind (@recover _ _ _ _ (fun answer? => ∀ answer ∈ answer?, q answer)
      (h.mono fun answer hq => by simpa using hq) nofun) fun answer? => ?_
    cases answer? with
    | none => exact after synchronize fun _ => pure fun _ hold => hold
    | some answer =>
      have hkept : watch.Answers (Pure.pure (answer :: answers) : Parser (List α)) fun more =>
          (∀ other ∈ some answer, q other) → (∀ other ∈ answers, q other) → ∀ other ∈ more, q other :=
        pure fun hanswer hold => List.forall_mem_cons.2 ⟨hanswer answer rfl, hold⟩
      exact after (@recover _ _ _ _ (fun _ => True) ((hend within).mono fun _ h => h) trivial)
        fun _ => ite (fun _ => after synchronize fun _ => hkept) fun _ => hkept
  have hround : ∀ within answers, watch.Answers (nextItem parser within what answers) fun more =>
      (∀ answer ∈ answers, q answer) → ∀ answer ∈ more, q answer := fun within answers =>
    after get fun _ => bind (hread within answers) fun more =>
      after skipSeparators fun _ => after get fun _ => after note fun _ => pure id
  refine after enclose fun within => after note fun _ => after skipSeparators fun _ => ?_
  refine bind (repeatWhile startsItem (hround within) (List.forall_mem_nil q)) fun reversed => ?_
  exact after get fun _ => after note fun _ => pure fun hall answer hmem =>
    hall answer (List.mem_reverse.1 hmem)

theorem forM {list : List α} {action : α → Parser PUnit}
    (h : ∀ element ∈ list, watch.Answers (action element) fun _ => True) :
    watch.Answers (list.forM action) fun _ => True := by
  induction list with
  | nil => exact pure trivial
  | cons first rest ih =>
    obtain ⟨hfirst, hrest⟩ := List.forall_mem_cons.1 h
    exact after hfirst fun _ => ih hrest

/-- What is kept of a list stands in it. -/
theorem filterM {list : List α} {action : α → Parser Bool}
    (h : ∀ element, watch.Answers (action element) fun _ => True) :
    watch.Answers (list.filterM action) fun kept => kept ⊆ list := by
  have hloop : ∀ kept : List α, watch.Answers (List.filterAuxM action list kept) fun all =>
      ∀ element ∈ all, element ∈ list ∨ element ∈ kept := by
    induction list with
    | nil => exact fun kept => pure fun _ hmem => Or.inr hmem
    | cons first rest ih =>
      refine fun kept => after (h first) fun keep => (ih _).mono fun all hall element hmem => ?_
      rcases hall element hmem with hrest | hkept
      · exact Or.inl (List.mem_cons_of_mem first hrest)
      · cases keep with
        | false => exact Or.inr hkept
        | true =>
          rcases List.mem_cons.1 hkept with rfl | hkept
          · exact Or.inl List.mem_cons_self
          · exact Or.inr hkept
  refine bind (hloop []) fun reversed => pure fun hall element hmem => ?_
  exact (hall element (List.mem_reverse.1 hmem)).resolve_right List.not_mem_nil

end Answers

end Watch

end SableFrontend
