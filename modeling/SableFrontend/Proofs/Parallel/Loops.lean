import SableFrontend.Proofs.Parallel.Steps

/-!
Loops, attempts and recovery on two streams. A loop takes as many rounds on the one stream as on
the other, because its test says the same; that the streams differ in length does not matter, since
neither loop comes to its last allowed round.

Recovery makes up for a failure and an attempt hides one, so neither is followed to the end of the
stretch: both are only used inside of delimiters, or where there is nothing behind the end.
-/

namespace SableFrontend.Parallel

open TokenStream Parser Setting

variable {set : Setting} {P : Parallel set} {α β : Type} [Relocatable α] [Relocatable β]
  {start state final : ParserState} {moved : Bool} {inside : List Bracket} {position : Nat}
  {waived : α → ParserState → Prop} {parser other : Parser α}

omit [Relocatable α] in
/-- A loop whose first round gives up where it is started. -/
theorem rejects_iterate {test : Parser Bool} {step : α → Parser α} {count : Nat} {value : α}
    (h : set.Runs test state
      (fun more final => more = true ∧ final.position = state.position ∧
        ∀ value, set.Rejects (step value) final) fun _ _ => False) :
    set.Rejects (repeatWhile.iterate test step count value) state := by
  cases count with
  | zero => exact rfl
  | succ count =>
    refine Runs.bind (h.mono (fun more final ⟨hmore, hposition, hrejects⟩ => ?_)
      fun _ _ => False.elim)
    subst hmore
    exact Runs.bind ((hrejects value).mono (fun _ _ => False.elim)
      fun _ _ heq => heq.trans hposition)

omit [Relocatable α] in
theorem rejects_collectWhile {test : Parser Bool}
    (h : set.Runs test state
      (fun more final => more = true ∧ final.position = state.position ∧ set.Rejects parser final)
      fun _ _ => False) : set.Rejects (Parser.collectWhile test parser) state :=
  Rejects.bind (Runs.bind (.read (rejects_iterate (h.mono
    (fun _ _ ⟨hmore, hposition, hrejects⟩ => ⟨hmore, hposition, fun _ => hrejects.bind⟩)
    fun _ _ hnever => hnever))))

namespace Agrees

/-! ### Repetition -/

/-- A loop, whose test may be doubtful, and whose step may lead to a state from which nothing of the
loop is seen. Nothing is seen of a round after a doubtful test either. -/
theorem iterate {test test' : Parser Bool} (step step' : α → Parser α)
    {continues finishes : ParserState → Prop} (doubtful hidden : ParserState → Prop)
    (htest : ∀ state, set.Reached start false [] state →
      set.Runs test state
        (fun more final => set.Reached state false [] final ∧
          if more = true then continues final else finishes final) (set.Stops state))
    (hstep : ∀ value state, set.Reached start false [] state → continues state →
      set.Proceeds true (step value) state)
    (hagreesTest : ∀ state, set.Reached start false [] state →
      P.Agrees (fun _ final => doubtful final) test test' state)
    (hagreesStep : ∀ value state, set.Reached start false [] state → continues state →
      P.Agrees (fun _ final => hidden final) (step value) (step' (P.relocation.move value)) state)
    (hbeyond : ∀ value state, set.Reached start false [] state → continues state →
      doubtful state → set.Runs (step value) state (fun _ final => P.stop < final.position)
        fun _ final => P.stop < final.position)
    (hhidden : ∀ count value state, set.Reached start false [] state → hidden state →
      ¬P.Seen (fun _ final => doubtful final)
        (repeatWhile.iterate test step count value set.stream state))
    {count count' : Nat} (value : α) (h : set.Reached start false [] state)
    (hcount : set.stream.size ≤ count + state.position)
    (hcount' : P.stop < count' + state.position) :
    P.Agrees (fun _ final => doubtful final) (repeatWhile.iterate test step count value)
      (repeatWhile.iterate test' step' count' (P.relocation.move value)) state := by
  induction count generalizing count' value state with
  | zero =>
    have hlt := h.lt
    omega
  | succ count ih =>
    cases count' with
    | zero =>
      -- the state lies behind the end of the stretch
      have hproceeds : set.Proceeds false (repeatWhile.iterate test step (count + 1) value) state :=
        (runs_iterate set.Stops (fun h hs => h.stops hs) htest hstep h hcount).mono
          (fun _ _ hfinal => hfinal.1) fun _ _ hs => hs
      refine of_run hproceeds fun right hrelated _ => ?_
      have hle := hrelated.le_stop
      omega
    | succ count' =>
      refine bind_waived (hagreesTest state h) ((htest state h).mono
        (fun more final ⟨htested, hmore⟩ => ?_) fun _ _ hs => hs)
      cases more with
      | false => exact ⟨.pure rfl, fun hwaived hseen => hseen.2 hwaived⟩
      | true =>
        have hfinal := h.trans htested
        have hbehind := htested.within.le
        have hround : P.Agrees (fun _ final => doubtful final)
            (step value >>= fun value' => repeatWhile.iterate test step count value')
            (step' (P.relocation.move value) >>= fun value' =>
              repeatWhile.iterate test' step' count' value') final := by
          refine bind_waived (hagreesStep value final hfinal hmore)
            ((hstep value final hfinal hmore).mono (fun value' later hlater => ?_) fun _ _ hs => hs)
          have hforward := hlater.progress rfl
          have hlast := (h.trans (htested.trans hlater)).weaken
          exact ⟨ih value' hlast (by omega) (by omega), hhidden count value' later hlast⟩
        refine ⟨hround, fun hdoubtful => ?_⟩
        refine not_seen_of_lost (.bind (((hstep value final hfinal hmore).and
          (hbeyond value final hfinal hmore hdoubtful)).mono (fun value' later hlater => ?_)
          fun _ _ hlater => Or.inl hlater.2))
        have hforward := hlater.1.progress rfl
        have hlast := (h.trans (htested.trans hlater.1)).weaken
        exact (runs_iterate set.Stops (fun h hs => h.stops hs) htest hstep hlast (by omega)).mono
          (fun _ _ hfinal => Or.inl (Or.inl (Nat.lt_of_lt_of_le hlater.2 hfinal.1.within.le)))
          fun _ _ hs => Or.inl (Nat.lt_of_lt_of_le hlater.2 hs.within.le)

/-- A loop of which all rounds are seen. -/
theorem repeatWhile {test test' : Parser Bool} {step step' : α → Parser α}
    {continues finishes : ParserState → Prop}
    (htest : ∀ s, set.Reached state false [] s →
      set.Runs test s
        (fun more final => set.Reached s false [] final ∧
          if more = true then continues final else finishes final) (set.Stops s))
    (hstep : ∀ value s, set.Reached state false [] s → continues s →
      set.Proceeds true (step value) s)
    (hagreesTest : ∀ s, set.Reached state false [] s → P.Agrees never test test' s)
    (hagreesStep : ∀ value s, set.Reached state false [] s → continues s →
      P.Agrees never (step value) (step' (P.relocation.move value)) s)
    (hlt : state.position < set.stream.size) (hbase : P.base ≤ state.position) {value : α} :
    P.Agrees waived (Parser.repeatWhile test step value)
      (Parser.repeatWhile test' step' (P.relocation.move value)) state := by
  have hother := P.other_lt
  refine bind_read (mono (iterate step step' (fun _ => False) (fun _ => False) htest
    hstep (fun s hs => (hagreesTest s hs).mono fun _ _ => False.elim)
    hagreesStep (fun _ _ _ _ => False.elim) (fun _ _ _ _ => False.elim) value (.refl hlt)
    (Nat.le_add_right ..) ?_) fun _ _ => False.elim)
  unfold stop
  omega

/-- What is collected by a loop, whose test may be doubtful, and one of whose answers may hide what
follows it. -/
theorem collect {test : Parser Bool} {continues finishes : ParserState → Prop}
    (doubtful hidden : ParserState → Prop)
    (htest : ∀ s, set.Reached state false [] s →
      set.Runs test s
        (fun more final => set.Reached s false [] final ∧
          if more = true then continues final else finishes final) (set.Stops s))
    (hparser : ∀ s, set.Reached state false [] s → continues s → set.Proceeds true parser s)
    (hagreesTest : ∀ s, set.Reached state false [] s →
      P.Agrees (fun _ final => doubtful final) test test s)
    (hagreesParser : ∀ s, set.Reached state false [] s → continues s →
      P.Agrees (fun _ final => hidden final) parser other s)
    (hbeyond : ∀ s, set.Reached state false [] s → continues s → doubtful s →
      set.Runs parser s (fun _ final => P.stop < final.position)
        fun _ final => P.stop < final.position)
    (hhidden : ∀ s, set.Reached state false [] s → hidden s →
      P.exact = false ∧ s.position = P.stop ∧ set.Runs test s
        (fun more final => more = true ∧ final.position = s.position ∧ set.Rejects parser final)
        fun _ _ => False)
    (hlt : state.position < set.stream.size) (hbase : P.base ≤ state.position) :
    P.Agrees (fun _ final => doubtful final) (Parser.collectWhile test parser)
      (Parser.collectWhile test other) state := by
  have hstep : ∀ (answers : List α) s, set.Reached state false [] s → continues s →
      set.Proceeds true (do return (← parser) :: answers) s := fun answers s hs hcontinues =>
    .bind ((hparser s hs hcontinues).mono (fun _ _ hfinal => .pure hfinal) fun _ _ hstops => hstops)
  have hother := P.other_lt
  have hloop : P.Agrees (fun _ final => doubtful final)
      (Parser.repeatWhile test (fun answers => do return (← parser) :: answers) ([] : List α))
      (Parser.repeatWhile test (fun answers => do return (← other) :: answers) ([] : List α))
      state := by
    refine bind_read (iterate (fun answers => do return (← parser) :: answers)
      (fun answers => do return (← other) :: answers) doubtful hidden htest hstep hagreesTest
      (fun answers s hs hcontinues => .bind_waived (hagreesParser s hs hcontinues)
        ((hparser s hs hcontinues).mono (fun _ _ _ => ⟨.pure rfl, fun hhide hseen => hseen.2 hhide⟩)
          fun _ _ hstops => hstops))
      (fun answers s hs hcontinues hdoubtful => .bind ((hbeyond s hs hcontinues hdoubtful).mono
        (fun _ _ hpast => .pure hpast) fun _ _ hpast => hpast))
      (fun count answers s hs hhide => ?_) [] (.refl hlt) (Nat.le_add_right ..) ?_)
    · obtain ⟨hexact, hstop, htested⟩ := hhidden s hs hhide
      refine not_seen_of_rejects (rejects_iterate (htested.mono
        (fun _ _ ⟨hmore, hposition, hrejects⟩ => ⟨hmore, hposition, fun _ => hrejects.bind⟩)
        fun _ _ hnever => hnever)) hexact hstop
    · unfold stop
      omega
  refine .bind_waived hloop ((runs_repeatWhile htest hstep hlt).mono
    (fun answers s _ => ⟨.pure ?_, fun hdoubtful hseen => hseen.2 hdoubtful⟩)
    fun _ _ hstops => hstops)
  simp [Relocation.move, Relocatable.relocate]

theorem collectWhile {waived : List α → ParserState → Prop} {test : Parser Bool}
    {continues finishes : ParserState → Prop}
    (htest : ∀ s, set.Reached state false [] s →
      set.Runs test s
        (fun more final => set.Reached s false [] final ∧
          if more = true then continues final else finishes final) (set.Stops s))
    (hparser : ∀ s, set.Reached state false [] s → continues s → set.Proceeds true parser s)
    (hagreesTest : ∀ s, set.Reached state false [] s → P.Agrees never test test s)
    (hagreesParser : ∀ s, set.Reached state false [] s → continues s →
      P.Agrees never parser other s)
    (hlt : state.position < set.stream.size) (hbase : P.base ≤ state.position) :
    P.Agrees waived (Parser.collectWhile test parser) (Parser.collectWhile test other) state :=
  (collect (fun _ => False) (fun _ => False) htest hparser hagreesTest
    hagreesParser (fun _ _ _ => False.elim) (fun _ _ => False.elim) hlt hbase).mono
    fun _ _ => False.elim

section

variable {waived : List α → ParserState → Prop} {kind : TokenKind}

/-- What is repeated as long as a token of a kind comes next. -/
theorem collectWhileAt (hkind : kind.isLimit = false)
    (hparser : ∀ s, s.position < set.stream.size → set.stream.kind s.position = kind →
      set.Proceeds true parser s)
    (hagrees : ∀ s, set.Reached state false [] s → set.stream.kind s.position = kind →
      P.Agrees never parser other s)
    (hlt : state.position < set.stream.size) (hbase : P.base ≤ state.position) :
    P.Agrees waived (Parser.collectWhile (Parser.isAt kind) parser)
      (Parser.collectWhile (Parser.isAt kind) other) state :=
  collectWhile (fun _ hs => runs_isAt hs.lt) (fun _ hs => hparser _ hs.lt)
    (fun _ _ => .isAt (Or.inl hkind)) hagrees hlt hbase

/-- What is repeated behind separators. -/
theorem collectBehind (hkind : kind.isLimit = false) (hplain : kind.isPlain = true)
    {moved : Bool} (hparser : set.Obeys moved parser)
    (hagrees : ∀ s, set.Reached state false [] s → P.Agrees never parser parser s)
    (hlt : state.position < set.stream.size) (hbase : P.base ≤ state.position) :
    P.Agrees waived
      (Parser.collectWhile (Parser.isAt kind) do
        let _ ← Parser.advance
        parser)
      (Parser.collectWhile (Parser.isAt kind) do
        let _ ← Parser.advance
        parser) state := by
  refine collectWhileAt hkind (fun s hs hseparator => ?_) (fun s hs hseparator => ?_) hlt hbase
  · refine .bind ((Reached.refl hs).advancePlain hseparator hplain fun s₁ h₁ _ => ?_)
    exact h₁.call (hparser s₁ h₁.lt) fun _ _ h₂ => h₂
  · refine .step (.advance (inner_of_kind hseparator (TokenKind.isBoundary_of_isLimit hkind)))
      ((Reached.refl hs.lt).advancePlain hseparator hplain fun s₁ h₁ _ => ?_)
    exact hagrees s₁ (hs.trans h₁).weaken

/-- What is repeated behind separators, with newlines around it. -/
theorem collectOnLines (hkind : kind.isLimit = false) (hplain : kind.isPlain = true)
    {moved : Bool} (hparser : set.Obeys moved parser)
    (hagrees : ∀ s, set.Reached state false [] s → P.Agrees never parser parser s)
    (hlt : state.position < set.stream.size) (hbase : P.base ≤ state.position)
    (hsheltered : P.Sheltered state.position) :
    P.Agrees waived
      (Parser.collectWhile (Parser.isAt kind) do
        let _ ← Parser.advance
        Parser.skipNewlines
        let answer ← parser
        Parser.skipNewlines
        return answer)
      (Parser.collectWhile (Parser.isAt kind) do
        let _ ← Parser.advance
        Parser.skipNewlines
        let answer ← parser
        Parser.skipNewlines
        return answer) state := by
  refine collectWhileAt hkind (fun s hs hseparator => ?_) (fun s hs hseparator => ?_) hlt hbase
  · refine .bind ((Reached.refl hs).advancePlain hseparator hplain fun s₁ h₁ _ => ?_)
    refine .bind (h₁.skipNewlines fun s₂ h₂ _ => ?_)
    refine .bind (h₂.call (hparser s₂ h₂.lt) fun answer s₃ h₃ => ?_)
    exact .bind (h₃.skipNewlines fun s₄ h₄ _ => .pure h₄)
  · have hinside := hsheltered.reached hs
    refine .step (.advance (inner_of_kind hseparator (TokenKind.isBoundary_of_isLimit hkind)))
      ((Reached.refl hs.lt).advancePlain hseparator hplain fun s₁ h₁ _ => ?_)
    refine .step (.skipNewlines (hinside.reached h₁)) (h₁.skipNewlines fun s₂ h₂ _ => ?_)
    refine .bind (hagrees s₂ (hs.trans h₂).weaken)
      (h₂.call (hparser s₂ h₂.lt) fun answer s₃ h₃ => ?_)
    exact .step (.skipNewlines (hinside.reached h₃)) (h₃.skipNewlines fun s₄ h₄ _ => .pure rfl)

end

/-! ### Lists -/

/-- Nothing needs to be known of the state in between. -/
theorem bind_always {next next' : α → Parser β} {waived' : β → ParserState → Prop}
    (h : P.Agrees never parser other state)
    (hnext : ∀ answer final, P.Agrees waived' (next answer) (next' (P.relocation.move answer))
      final) : P.Agrees waived' (parser >>= next) (other >>= next') state := by
  refine .step h ?_
  unfold Setting.Runs
  split
  · exact hnext _ _
  · trivial

theorem forM {waived : PUnit → ParserState → Prop} {list : List α} {action action' : α → Parser PUnit}
    (haction : ∀ element state,
      P.Agrees never (action element) (action' (P.relocation.move element)) state) :
    P.Agrees waived (list.forM action) ((P.relocation.move list).forM action') state := by
  induction list generalizing state with
  | nil => exact .pure rfl
  | cons first rest ih => exact .bind_always (haction first state) fun _ final => ih

theorem filterM {waived : List α → ParserState → Prop} {list : List α}
    {action action' : α → Parser Bool}
    (haction : ∀ element state,
      P.Agrees never (action element) (action' (P.relocation.move element)) state) :
    P.Agrees waived (list.filterM action) ((P.relocation.move list).filterM action') state := by
  have hloop : ∀ (kept : List α) state, P.Agrees never (List.filterAuxM action list kept)
      (List.filterAuxM action' (P.relocation.move list) (P.relocation.move kept)) state := by
    induction list with
    | nil => exact fun kept state => .pure rfl
    | cons first rest ih =>
      intro kept state
      refine .bind_always (haction first state) fun keep final => ?_
      cases keep with
      | true => exact ih (first :: kept) final
      | false => exact ih kept final
  refine .bind_always (hloop [] state) fun kept final => .pure ?_
  simp [Relocation.move, Relocatable.relocate]

theorem mapM {waived : List β → ParserState → Prop} {list : List α} {action action' : α → Parser β}
    (haction : ∀ element state,
      P.Agrees never (action element) (action' (P.relocation.move element)) state) :
    P.Agrees waived (list.mapM action) ((P.relocation.move list).mapM action') state := by
  have hloop : ∀ (answers : List β) state, P.Agrees waived (List.mapM.loop action list answers)
      (List.mapM.loop action' (P.relocation.move list) (P.relocation.move answers)) state := by
    induction list with
    | nil =>
      refine fun answers state => .pure ?_
      simp [Relocation.move, Relocatable.relocate]
    | cons first rest ih =>
      intro answers state
      exact .bind_always (haction first state) fun answer final => ih (answer :: answers) final
  exact hloop [] state

/-! ### Recovery -/

/-- A handler goes on from where the parser gave up. What is not seen of the failure must not be
seen of what the handler does. -/
theorem tryCatch {handler handler' : Abort → Parser α} (h : P.Agrees waived parser other state)
    (hhandler : set.Runs parser state (fun _ _ => True) fun abort final =>
      P.Agrees waived (handler abort) (handler' abort) final ∧
        (P.Seen waived (handler abort set.stream final) →
          P.exact = true ∨ final.position < P.stop)) :
    P.Agrees waived (MonadExcept.tryCatch parser handler)
      (MonadExcept.tryCatch other handler') state := by
  have hforward := h.forward
  have hgrows := h.grows
  have hmuted := h.muted_eq
  have hmirrored := h.mirrored
  have happly := fun (parser : Parser α) handler stream s =>
    @tryCatch_apply α s parser handler stream
  unfold Setting.Runs at hhandler
  cases hrun : parser set.stream state with
  | mk result final =>
    rw [hrun] at hforward hgrows hmuted hmirrored hhandler
    have hleft := happly parser handler set.stream state
    rw [hrun] at hleft
    cases result with
    | ok answer =>
      refine ⟨hleft ▸ hforward, hleft ▸ hgrows, hleft ▸ hmuted, fun right hrelated hseen => ?_⟩
      rw [hleft] at hseen ⊢
      obtain ⟨final', heq, hfinal⟩ := hmirrored right hrelated hseen
      refine ⟨final', ?_, hfinal⟩
      rw [happly, heq]
      rfl
    | error abort =>
      obtain ⟨hagrees, hexact⟩ := hhandler
      refine ⟨hleft ▸ Nat.le_trans hforward hagrees.forward, hleft ▸ hgrows.trans hagrees.grows,
        hleft ▸ hagrees.muted_eq.trans hmuted, fun right hrelated hseen => ?_⟩
      rw [hleft] at hseen ⊢
      have hlost : ¬P.Lost final := fun hlost =>
        hseen.not_lost (hlost.mono hagrees.forward hagrees.grows hagrees.muted_eq)
      obtain ⟨middle, heq, hmiddle⟩ := hmirrored right hrelated ⟨hlost, hexact hseen⟩
      obtain ⟨final', heq', hfinal⟩ := hagrees.mirrored middle hmiddle hseen
      refine ⟨final', ?_, hfinal⟩
      rw [happly, heq]
      exact heq'

/-- A failure in a sheltered place is seen. -/
theorem exact_or_lt (hsheltered : P.Sheltered position)
    (hle : position ≤ P.stop) : P.exact = true ∨ position < P.stop := by
  rcases hsheltered with hfinal | hopened
  · exact Or.inl (P.ends hfinal).1
  · exact Or.inr (lt_stop_of_opened hle hopened)

theorem recover {waived : Option α → ParserState → Prop} (h : P.Agrees never parser other state)
    (hproceeds : set.Proceeds moved parser state) (hsheltered : P.Sheltered state.position) :
    P.Agrees waived (Parser.recover parser) (Parser.recover other) state := by
  refine .bind_get fun before => .tryCatch (.map h fun _ => rfl) ?_
  refine .map (hproceeds.mono (fun _ _ _ => trivial) fun abort final hstops => ?_)
  have hafter : P.Sheltered final.position := hsheltered.of_suffix hstops.within.last
  cases abort with
  | failed =>
    refine ⟨.bind_get fun after => .step .note (.note (.pure rfl)), fun hseen => ?_⟩
    exact exact_or_lt hafter (Nat.le_of_not_lt fun hlt => hseen.1 (Or.inl hlt))
  | _ => exact ⟨.throw, fun hseen => hseen.2⟩

/-- An attempt in a sheltered place does not see the end of the stretch. -/
theorem speculate {attempt attempt' : Parser Bool}
    (h : P.Agrees never attempt attempt' { state with log := state.log.mute })
    (hproceeds : set.Proceeds moved attempt { state with log := state.log.mute })
    (hsheltered : P.Sheltered state.position) {waived : Bool → ParserState → Prop} :
    P.Agrees waived (Parser.speculate attempt) (Parser.speculate attempt') state := by
  have hback : (Parser.speculate attempt set.stream state).2 =
      { state with history := (attempt set.stream { state with log := state.log.mute }).2.history } := by
    rw [Setting.speculate_apply]
    split <;> simp_all
  refine ⟨hback ▸ Nat.le_refl _, hback ▸ List.prefix_rfl, hback ▸ rfl,
    fun right hrelated hseen => ?_⟩
  have hmirrored := h.mirrored { right with log := right.log.mute } {
    base_le := hrelated.base_le
    le_stop := hrelated.le_stop
    position_eq := hrelated.position_eq
    reports := hrelated.reports
    muted_eq := congrArg Nat.succ hrelated.muted_eq }
  have hmuted := h.muted_eq
  unfold Setting.Proceeds Setting.Runs at hproceeds
  have hleft := Setting.speculate_apply attempt set.stream state
  cases hrun : attempt set.stream { state with log := state.log.mute } with
  | mk result final =>
    rw [hrun] at hmirrored hmuted hproceeds hleft
    -- nothing is reported, and the delimiters around are kept to
    have hlost : ∀ {further}, set.stream.Within state.position further →
        final.position = further → ¬P.Lost final := by
      intro further hwithin heq hlost
      rcases hlost with hpast | ⟨-, hzero, -⟩
      · have hle := hsheltered.le_stop (surrounds_of_base_le hrelated.base_le) hrelated.le_stop hwithin
        omega
      · rw [hmuted] at hzero
        cases hzero
    cases result with
    | ok verdict =>
      obtain ⟨final', heq, -⟩ := hmirrored ⟨hlost hproceeds.within rfl, id⟩
      have hright := Setting.speculate_apply attempt' P.other right
      rw [heq] at hright
      rw [hleft]
      exact ⟨_, hright, hrelated.withHistory _ _⟩
    | error abort =>
      have hafter : P.Sheltered final.position := hsheltered.of_suffix hproceeds.within.last
      obtain ⟨final', heq, -⟩ := hmirrored ⟨hlost hproceeds.within rfl,
        exact_or_lt hafter (hsheltered.le_stop (surrounds_of_base_le hrelated.base_le) hrelated.le_stop hproceeds.within)⟩
      have hright := Setting.speculate_apply attempt' P.other right
      rw [heq] at hright
      rw [hleft]
      cases abort <;> exact ⟨_, hright, hrelated.withHistory _ _⟩

/-! ### Items -/

section

variable {within within' : Enclosure} {item : Parser α} {what : String} {answers : List α}

/-- Skipping the rest of an item inside of an enclosure that is sheltered. -/
theorem synchronize {waived : Unit → ParserState → Prop} (hpart : set.IsPart within)
    (hwithin : set.stream.Within within.first state.position)
    (hcommas : within'.commas = within.commas) (hlevel : within'.level = within.level + P.lift)
    (hbase : P.Surrounds within.first) (hsheltered : P.Sheltered within.first) :
    P.Agrees waived (Parser.synchronize within) (Parser.synchronize within') state where
  forward := le_resumePosition ..
  grows := List.prefix_rfl
  muted_eq := rfl
  mirrored right hrelated _ := by
    have hle := hrelated.le_stop
    have hfirst : within.first ≤ P.stop := Nat.le_trans hwithin.le hle
    obtain ⟨hstay, -, -, -⟩ :=
      set.balanced.within_resumePosition within.commas hpart.level_eq hwithin
    have hend := hsheltered.le_stop hbase hfirst hstay
    have hplace : P.other.resumePosition within'.level within'.commas right.position =
        P.place (set.stream.resumePosition within.level within.commas state.position) := by
      rw [hlevel, hcommas, hrelated.position_eq]
      refine resumePosition_place hrelated.base_le hle ?_ (fun seen hfrom hto hseen => ?_)
        (Nat.le_succ_of_le hend)
      · rw [set.balanced.depth_eq stop_lt]
        rcases hbase with hend | hbase
        · rw [set.balanced.opened_end stop_lt hend]
          exact Nat.zero_le _
        · rw [hpart.level_eq, show set.stream.opened P.stop = set.stream.opened P.base from
            P.opened_eq]
          exact hbase hfirst
      · have hsuffix := hstay.suffix seen (Nat.le_trans hwithin.le hfrom) hto
        exact (hsheltered.of_suffix hsuffix).live (Nat.le_trans hrelated.base_le hfrom) hseen
    refine ⟨{ right with
      position := P.other.resumePosition within'.level within'.commas right.position
      history := _ }, rfl, ?_⟩
    rw [hplace]
    exact (hrelated.moveTo (Nat.le_trans hrelated.base_le (le_resumePosition ..)) hend).withHistory
      _ _

theorem endItem {waived : Unit → ParserState → Prop} (hcloser : within'.closer = within.closer)
    (hcommas : within'.commas = within.commas) (hshown : P.Shown state.position) :
    P.Agrees waived (Parser.endItem within what) (Parser.endItem within' what) state := by
  have hsame : Parser.endItem within' what = Parser.endItem within what := by
    unfold Parser.endItem itemEnds
    rw [hcloser, hcommas]
  rw [hsame]
  exact .step (.current hshown) (.current (.ite (fun _ => .pure rfl) fun _ => .unexpected))

theorem readItem {waived : List α → ParserState → Prop} (hpart : set.IsPart within)
    (hitem : set.Proceeds true item state) (hagrees : P.Agrees never item item state)
    (hbetween : set.Between within state) (hcloser : within'.closer = within.closer)
    (hcommas : within'.commas = within.commas) (hlevel : within'.level = within.level + P.lift)
    (hbase : P.Surrounds within.first) (hsheltered : P.Sheltered within.first) :
    P.Agrees waived (Parser.readItem item within what answers)
      (Parser.readItem item within' what (P.relocation.move answers)) state := by
  have h : set.Reached state false [] state := .refl hbetween.lt
  have hinside : P.Sheltered state.position := hsheltered.of_suffix hbetween.stays.last
  have hskip : ∀ {middle : ParserState} {waived : Unit → ParserState → Prop},
      set.stream.Within state.position middle.position →
      P.Agrees waived (Parser.synchronize within) (Parser.synchronize within') middle :=
    fun hmiddle => .synchronize hpart (hbetween.stays.trans hmiddle) hcommas hlevel hbase hsheltered
  refine .bind (.recover hagrees hitem hinside)
    (h.recover hitem (fun value middle hvalue => ?_) fun middle hmiddle _ _ => ?_)
  · have hafter := hinside.reached hvalue
    refine .bind (.recover (.endItem hcloser hcommas hafter.shown) (proceeds_endItem hvalue.lt) hafter)
      (hvalue.recover (proceeds_endItem hvalue.lt) (fun _ final hfinal => ?_)
        fun final hfinal _ _ => ?_)
    · exact .ite (fun hnone => nomatch hnone) fun _ => .pure rfl
    · refine .ite (fun _ => ?_) fun hsome => absurd rfl hsome
      have hreached := hvalue.within.trans hfinal
      exact .step (hskip hreached) (runs_synchronize hpart (hbetween.stays.trans hreached)
        fun _ _ _ _ _ _ => .pure rfl)
  · exact .step (hskip hmiddle) (runs_synchronize hpart (hbetween.stays.trans hmiddle)
      fun _ _ _ _ _ _ => .pure rfl)

theorem startsItem {waived : Bool → ParserState → Prop} (hcloser : within'.closer = within.closer)
    (hshown : P.Shown state.position) :
    P.Agrees waived (Parser.startsItem within) (Parser.startsItem within') state := by
  unfold Parser.startsItem
  rw [hcloser]
  exact .step (.isAt (Or.inr hshown)) (.isAt (.step (.isAt (Or.inr hshown)) (.isAt (.pure rfl))))

theorem nextItem {waived : List α → ParserState → Prop} (hpart : set.IsPart within)
    (hitem : set.Proceeds true item state) (hagrees : P.Agrees never item item state)
    (hbetween : set.Between within state)
    (hopen : ¬set.stream.Closes within.first within.closer state.position)
    (hcloser : within'.closer = within.closer)
    (hcommas : within'.commas = within.commas) (hlevel : within'.level = within.level + P.lift)
    (hbase : P.Surrounds within.first) (hsheltered : P.Sheltered within.first) :
    P.Agrees waived (Parser.nextItem item within what answers)
      (Parser.nextItem item within' what (P.relocation.move answers)) state := by
  have hinside : P.Sheltered state.position := hsheltered.of_suffix hbetween.stays.last
  refine .bind_get fun _ => .bind
    (.readItem hpart hitem hagrees hbetween hcloser hcommas hlevel hbase hsheltered)
    ((runs_readItem hpart hitem hbetween hopen).mono (fun more middle hmiddle => ?_)
      fun _ _ hquits => hquits)
  rw [hcommas]
  refine .step (.skipSeparators (hinside.reached hmiddle))
    (hmiddle.skipSeparators fun final hfinal => ?_)
  exact .bind_get fun _ => .step .note (.note (.pure rfl))

/-- Rounds of a loop over items in a sheltered place. -/
theorem rounds {loud : Bool} {waived : List α → ParserState → Prop} {count count' : Nat}
    (hpart : set.IsPart within) (hitem : set.Obeys true item) (hmirrors : P.MirrorsInside loud item)
    (hloud : Loud loud state) (hbetween : set.Between within state)
    (hcloser : within'.closer = within.closer) (hcommas : within'.commas = within.commas)
    (hlevel : within'.level = within.level + P.lift)
    (hbase : P.Surrounds within.first) (hsheltered : P.Sheltered within.first)
    (hcount : set.stream.size ≤ count + state.position)
    (hcount' : P.stop < count' + state.position) :
    P.Agrees waived
      (repeatWhile.iterate (Parser.startsItem within) (Parser.nextItem item within what) count answers)
      (repeatWhile.iterate (Parser.startsItem within') (Parser.nextItem item within' what) count'
        (P.relocation.move answers)) state := by
  have htest : ∀ s, set.Reached state false [] s → set.Runs (Parser.startsItem within) s
      (fun more final => set.Reached s false [] final ∧
        if more = true then ¬set.stream.Closes within.first within.closer final.position
        else set.stream.Closes within.first within.closer final.position) (set.Stops s) :=
    fun s hs => runs_startsItem hpart (hs.between hbetween)
  have hinside : ∀ s, set.Reached state false [] s → P.Sheltered s.position :=
    fun s hs => hsheltered.of_suffix (hs.between hbetween).stays.last
  refine mono (iterate _ _ (fun _ => False) (fun _ => False) htest
    (fun _ s hs hopen => (runs_nextItem hpart (hitem s hs.lt) (hs.between hbetween) hopen).mono
      (fun _ _ hfinal => hfinal) fun _ _ hquits => hquits.2)
    (fun s hs => .startsItem hcloser (hinside s hs).shown) (fun answers s hs hopen => ?_)
    (fun _ _ _ _ => False.elim) (fun _ _ _ _ => False.elim) answers (.refl hbetween.lt) hcount
    hcount') fun _ _ => False.elim
  exact nextItem hpart (hitem s hs.lt) (hmirrors s hs.lt (hloud.reached hs) (hinside s hs))
    (hs.between hbetween) hopen hcloser hcommas hlevel hbase hsheltered

theorem bind_enclose {next next' : Enclosure → Parser α} {closer : TokenKind} {commas : Bool}
    (hbase : P.base ≤ state.position)
    (h : ∀ within' : Enclosure, within'.closer = closer → within'.commas = commas →
      within'.level = set.stream.depth state.position + P.lift →
      P.Agrees waived
        (next {
          first := state.position, level := set.stream.depth state.position, closer := closer
          commas := commas })
        (next' within') state) :
    P.Agrees waived (Parser.enclose closer commas >>= next)
      (Parser.enclose closer commas >>= next') state := by
  have hsome := h ⟨0, set.stream.depth state.position + P.lift, closer, commas⟩ rfl rfl rfl
  refine ⟨hsome.forward, hsome.grows, hsome.muted_eq, fun right hrelated hseen => ?_⟩
  refine (h ⟨right.position, P.other.depth right.position, closer, commas⟩ rfl rfl ?_).mirrored
    right hrelated hseen
  rw [hrelated.position_eq]
  exact depth_place hbase hrelated.le_stop

/-- Items inside of an enclosure that is sheltered. -/
theorem items {waived : List α → ParserState → Prop} {closer : TokenKind} {commas : Bool}
    {loud : Bool} (hlt : state.position < set.stream.size)
    (hopens : set.stream.Opens state.position closer) (hitem : set.Obeys true item)
    (hmirrors : P.MirrorsInside loud item) (hloud : Loud loud state)
    (hbase : P.base ≤ state.position) (hsheltered : P.Sheltered state.position) :
    P.Agrees waived (Parser.items item closer commas what) (Parser.items item closer commas what)
      state := by
  have hpart : set.IsPart {
      first := state.position, level := set.stream.depth state.position, closer := closer,
      commas := commas } := ⟨hlt, hopens, set.balanced.depth_eq hlt⟩
  refine .bind_enclose hbase fun within' hcloser hcommas hlevel => .step .note (.note ?_)
  generalize hwithin : Enclosure.mk state.position (set.stream.depth state.position) closer commas =
    within at *
  have hfirst : within.first = state.position := by rw [← hwithin]
  have hcloser : within'.closer = within.closer := by rw [hcloser, ← hwithin]
  have hcommas : within'.commas = within.commas := by rw [hcommas, ← hwithin]
  have hlevel : within'.level = within.level + P.lift := by rw [hlevel, ← hwithin]
  rw [← hfirst] at hsheltered hbase
  generalize hentered : { state with history := .entered within :: state.history } = entered
  have hposition : entered.position = within.first := by rw [← hentered, hfirst]
  have hbegin : set.Between within entered := by
    refine ⟨?_, by rw [hposition]⟩
    rw [hposition]
    exact .refl (hfirst ▸ hlt)
  have hloud : Loud loud entered := by
    rw [← hentered]
    exact hloud
  refine .step (.skipSeparators (hposition ▸ hsheltered))
    ((Reached.refl hbegin.lt).skipSeparators fun middle hmiddle => ?_)
  have hbetween := hmiddle.between hbegin
  have hother := P.other_lt
  have hagreesRounds : P.Agrees never
      (Parser.repeatWhile (Parser.startsItem within) (Parser.nextItem item within what) [])
      (Parser.repeatWhile (Parser.startsItem within') (Parser.nextItem item within' what) [])
      middle := by
    refine bind_read (rounds hpart hitem hmirrors (hloud.reached hmiddle) hbetween hcloser hcommas
      hlevel (surrounds_of_base_le hbase) hsheltered (Nat.le_add_right ..) ?_)
    have hle := Nat.le_trans hbase hbetween.stays.le
    unfold stop
    omega
  refine .bind hagreesRounds ((runs_rounds hpart hitem hbetween).mono (fun answers last _ => ?_)
    fun _ _ hquits => hquits)
  refine .bind_get fun _ => .step .note (.note (.pure ?_))
  simp [Relocation.move, Relocatable.relocate]

end

end Agrees

end SableFrontend.Parallel
