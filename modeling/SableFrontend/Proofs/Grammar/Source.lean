import SableFrontend.Grammar.Source
import SableFrontend.Proofs.Grammar.Declaration

/-!
Whole sources. At the outside of a source, nesting that is too deep is turned into a failure like
any other, so that what is left of the ways to give up is a failure and an integer literal with too
many digits; and since a failure of a header or of a declaration is recovered from, reading a module
never fails.
-/

namespace SableFrontend

/-- Whether a statement may stand at the top of a source. One that may not is reported. -/
def Parser.keepsAtTop (statement : Statement) : Parser Bool :=
  match statement with
  | .item (.bind _ _ span) | .item (.expression _ span) => do
    reportError .unexpectedToken "expressions are not allowed at module level" span
      ["wrap the expression in a definition such as `main = ...`"]
    return false
  | _ => return true

namespace Setting

open SableFrontend.Parser

variable {set : Setting} {start state final : ParserState} {moved : Bool} {inside : List Bracket}
  {α : Type}

/-! ### The limit of nesting -/

/-- The same surroundings, outside of everything that may nest too deeply. -/
def shallow (set : Setting) : Setting :=
  { set with
    allows := fun abort => set.allows abort ∧ abort ≠ .tooDeep
    failed := ⟨set.failed, Abort.noConfusion⟩
    overlong := fun hmem heq => ⟨set.overlong hmem heq, Abort.noConfusion⟩ }

theorem Follows.shallow (h : set.Follows start state) : set.shallow.Follows start state :=
  ⟨h.muted_eq, h.reports, h.events⟩

theorem Reached.shallow (h : set.Reached start moved inside state) :
    set.shallow.Reached start moved inside state :=
  ⟨h.within, h.opened_eq, h.follows.shallow, h.settles, h.progress⟩

theorem Stops.shallow {abort : Abort} (h : set.Stops start abort state) (hne : abort ≠ .tooDeep) :
    set.shallow.Stops start abort state :=
  ⟨h.within, h.follows.shallow, ⟨h.allowed, hne⟩, h.settles, h.reports⟩

/-- A parser that may nest too deeply keeps to the rules of the outside when it is bounded. -/
theorem proceeds_boundNesting {parser : Parser α} (h : set.Proceeds moved parser state) :
    set.shallow.Proceeds moved (boundNesting parser) state := by
  refine Runs.tryCatch (Runs.mono h (fun _ _ hfinal => hfinal.shallow) fun abort final hstops => ?_)
  cases abort with
  | tooDeep =>
    -- nothing is known of the balance of what was left, so the history says that it was left
    refine .bind (.bind (.current (.report (.bind (.note (.throw ?_))))))
    obtain ⟨events, hevents, -⟩ := hstops.follows.events
    have hcut : ∀ log, set.Sound state.log.muted log .cutShort := fun _ => trivial
    exact {
      within := hstops.within
      follows := ((hstops.follows.report (set.grammatical (Diagnostic.isGrammatical_errorAt
        DiagnosticKind.noConfusion DiagnosticKind.noConfusion))).note (hcut _)).shallow
      allowed := ⟨set.failed, Abort.noConfusion⟩
      settles := fun _ => ⟨.cutShort :: events, by rw [hevents, List.cons_append],
        Or.inl List.mem_cons_self⟩
      reports := fun _ hmuted => hstops.follows.count_lt_report _ hmuted }
  | failed => exact .throw (hstops.shallow Abort.noConfusion)
  | overlongInteger digits => exact .throw (hstops.shallow Abort.noConfusion)
  | endless => exact .throw (hstops.shallow Abort.noConfusion)

/-! ### Headers -/

theorem proceeds_moduleHeader (hlt : state.position < set.stream.size)
    (hkind : set.stream.kind state.position = .keyword .moduleWord) :
    set.Proceeds true moduleHeader state := by
  refine .bind ((Reached.refl hlt).advancePlain hkind rfl fun s₁ h₁ _ => ?_)
  refine .bind (h₁.expectPlain rfl fun first s₂ h₂ => ?_)
  refine .bind (h₂.collectBehind rfl (obeys_tokenValue rfl) fun more s₃ h₃ => ?_)
  exact .bind (.current (.ite (fun _ => .bind h₃.unexpected) fun _ => .pure h₃))

/-- A whole source is an enclosure that ends with the file. -/
theorem isPart_source : set.IsPart {
    first := 0, level := 0, closer := .endOfFile, commas := false } where
  lt := set.stream.size_pos
  opens := .outside set.stream.opened_zero
  level_eq := by rw [set.stream.opened_zero]; rfl

/-- Outside of all delimiters, the end of the file is due. -/
theorem Reached.opens_source (h : set.Reached .initial moved [] state) :
    set.stream.Opens state.position .endOfFile :=
  .outside (h.opened_eq.trans set.stream.opened_zero)

theorem Reached.optionalHeader (h : set.Reached .initial moved [] state)
    {returns : Option String → ParserState → Prop}
    (next : ∀ name final, set.Reached .initial false [] final → returns name final) :
    set.Runs optionalHeader state returns (set.Quits .initial) := by
  refine .bind (.isAt (.ite (fun hkeyword => ?_) fun _ => .pure (next none state h.weaken)))
  refine .bind (h.recover (proceeds_moduleHeader h.lt (beq_iff_eq.1 hkeyword))
    (fun name middle hmiddle => ?_) fun middle hwithin hfollows hsettles => ?_)
  · exact .ite (fun hnone => nomatch hnone) fun _ => .pure (next _ middle hmiddle.weaken)
  · refine .ite (fun _ => .bind ?_) fun hsome => absurd rfl hsome
    refine runs_synchronize isPart_source (h.within.trans hwithin)
      fun final hfinal hle _ hfollows' hsettles' => .pure (next none final ?_)
    exact {
      within := hfinal.stays
      opened_eq := hfinal.opened_eq
      follows := hfollows.trans hfollows'
      settles := hsettles.trans hsettles'
      progress := Bool.noConfusion }

/-! ### Modules -/

theorem Reached.declarationsOnly (h : set.Reached start moved inside state)
    {statements : List Statement} {returns : List Statement → ParserState → Prop}
    {stops : Abort → ParserState → Prop}
    (next : ∀ kept final, set.Reached start moved inside final → returns kept final) :
    set.Runs (declarationsOnly statements) state returns stops := by
  refine h.filterM (fun statement _ _ hs next => ?_) next
  split
  · exact .bind (hs.reportError DiagnosticKind.noConfusion DiagnosticKind.noConfusion
      fun final hfinal => .pure (next _ final hfinal))
  · exact .bind (hs.reportError DiagnosticKind.noConfusion DiagnosticKind.noConfusion
      fun final hfinal => .pure (next _ final hfinal))
  · exact .pure (next _ _ hs)

/-- Reading a module does not fail, and comes to the end of the file. -/
theorem runs_moduleSource (hwarns : set.Warns) (hdeep : set.allows .tooDeep) :
    set.shallow.Runs moduleSource .initial
      (fun _ final => set.shallow.Reached .initial false [] final)
      (set.shallow.Quits .initial) := by
  have h : set.shallow.Reached .initial false [] .initial := .refl set.stream.size_pos
  refine .bind (.current (.bind (h.skipSeparators fun s₁ h₁ => ?_)))
  refine .bind (h₁.optionalHeader fun name s₂ h₂ => ?_)
  have hitem : set.shallow.Obeys true (boundNesting (produce nestingBudget .statement)) :=
    fun s hs => proceeds_boundNesting (obeys_produce hwarns hdeep nestingBudget .statement s hs)
  -- the declarations are the items of the outermost enclosure
  refine .bind ((runs_items h₂.lt h₂.opens_source hitem).mono (fun groups s₃ ⟨hitems, _⟩ => ?_)
    fun _ _ ⟨hne, hstops⟩ => ⟨hne, h₂.stops hstops⟩)
  have h₃ := h₂.trans hitems
  refine .bind (h₃.declarationsOnly fun statements s₄ h₄ => ?_)
  refine .bind (h₄.forM (fun diagnostic hmem _ _ hs next => hs.report ?_ next) fun s₅ h₅ => ?_)
  · exact (Statement.group_reports _ diagnostic hmem).elim set.grammatical hwarns
  · exact .bind (.current (.pure h₅))

/-- Reading a module does not leave its stream. -/
theorem moduleSource_position_lt (hwarns : set.Warns) (hdeep : set.allows .tooDeep) :
    (moduleSource set.stream .initial).2.position < set.stream.size :=
  (runs_moduleSource hwarns hdeep).elim (motive := fun _ final => final.position < set.stream.size)
    (fun _ _ h => h.within.lt) fun _ _ h => h.2.within.lt

/-! ### Single productions -/

/-- Reading a single production comes to the end of the file, or gives up. -/
theorem proceeds_whole {parser : Parser α} (hparser : set.Obeys moved parser) :
    set.shallow.Proceeds moved (whole parser) .initial := by
  have h : set.shallow.Reached .initial false [] .initial := .refl set.stream.size_pos
  refine .bind (h.skipSeparators fun s₁ h₁ => ?_)
  have hlt : s₁.position < set.stream.size := h₁.lt
  have hinside : set.Proceeds moved (do
      let answer ← parser
      skipSeparators false
      if !(← isAt .endOfFile) then unexpected ["end of input"] ""
      return answer) s₁ := by
    refine .bind ((Reached.refl hlt).call (hparser s₁ hlt) fun answer s₂ h₂ => ?_)
    refine .bind (h₂.skipSeparators fun s₃ h₃ => ?_)
    exact .bind (.isAt (.ite (fun _ => .bind h₃.unexpected) fun _ => .pure h₃))
  exact h₁.call (proceeds_boundNesting hinside) fun _ _ h₂ => h₂

end Setting

end SableFrontend
