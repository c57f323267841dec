import SableFrontend.Proofs.Placement.Steps

/-!
Loops, attempts and recovery on the way of a parser. A loop keeps whatever each of its rounds keeps;
whether it comes to an end does not matter here. An attempt leaves nothing behind. Where a failure
was recovered from, something has been reported, so that nothing has to be known of what was skipped.

A loop over items answers a list that only separators interrupt, as long as nothing is reported:
that is what `TokenStream.Rounds` says, of answers that may be known in any way.
-/

namespace SableFrontend

namespace TokenStream

variable {stream : TokenStream}

theorem resumePosition_bounds (level : Nat) (commas : Bool) {position : Nat}
    (hlt : position < stream.size) :
    position ≤ stream.resumePosition level commas position ∧
      stream.resumePosition level commas position < stream.size := by
  fun_induction resumePosition stream level commas position with
  | case1 => exact ⟨Nat.le_refl _, hlt⟩
  | case2 position hnext => exact ⟨Nat.le_succ _, hnext⟩
  | case3 position hnext _ _ _ _ ih =>
    obtain ⟨hle, hsize⟩ := ih hnext
    exact ⟨Nat.le_of_succ_le hle, hsize⟩
  | case4 => exact ⟨Nat.le_refl _, hlt⟩

variable (stream)

/-- Between two positions there are separators only. -/
def Apart (commas : Bool) (low high : Nat) : Prop :=
  ∀ position, low ≤ position → position < high → (stream.kind position).separates commas = true

/-- The answers of a loop over items, the latest first. Each was read between two positions, and
what was passed over around them are separators, if all was quiet. -/
inductive Rounds {α : Type} (commas : Bool) (reads : Prop → Nat → Nat → α → Prop) (quiet : Prop)
    (low : Nat) : Nat → List α → Prop
  | none {high : Nat} (hle : low ≤ high) (hgap : quiet → stream.Apart commas low high) :
      Rounds commas reads quiet low high []
  | more {first last high : Nat} {heard : Prop} {answer : α} {before : List α}
      (hbefore : Rounds commas reads quiet low first before) (hlt : first < last)
      (hreads : reads heard first last answer) (hheard : quiet → heard) (hle : last ≤ high)
      (hgap : quiet → stream.Apart commas last high) :
      Rounds commas reads quiet low high (answer :: before)

variable {stream} {commas : Bool} {low middle high : Nat} {quiet quiet' : Prop}

theorem Apart.refl : stream.Apart commas low low :=
  fun _ hlow hhigh => absurd hhigh (Nat.not_lt_of_le hlow)

theorem Apart.trans (h : stream.Apart commas low middle) (h' : stream.Apart commas middle high) :
    stream.Apart commas low high := by
  intro position hlow hhigh
  by_cases hmiddle : position < middle
  · exact h position hlow hmiddle
  · exact h' position (Nat.le_of_not_lt hmiddle) hhigh

/-- Nothing but separators is skipped among the separators. -/
theorem apart_skipWhile : stream.Apart commas low (stream.skipWhile (·.separates commas) low) :=
  fun _ => @isMember_of_lt_skipWhile _ (·.separates commas) _ _

namespace Rounds

variable {α : Type} {reads : Prop → Nat → Nat → α → Prop} {answers : List α}

/-- Further separators may follow. -/
theorem stretch (h : stream.Rounds commas reads quiet low middle answers) (hquiet : quiet' → quiet)
    (hle : middle ≤ high) (hgap : quiet' → stream.Apart commas middle high) :
    stream.Rounds commas reads quiet' low high answers := by
  induction h generalizing high with
  | none hle' hgap' =>
    exact .none (Nat.le_trans hle' hle) fun h => (hgap' (hquiet h)).trans (hgap h)
  | more _ hlt hreads hheard hle' hgap' ih =>
    exact .more (ih (Nat.le_refl _) fun _ => .refl) hlt hreads (fun h => hheard (hquiet h))
      (Nat.le_trans hle' hle) fun h => (hgap' (hquiet h)).trans (hgap h)

theorem le (h : stream.Rounds commas reads quiet low high answers) : low ≤ high := by
  induction h with
  | none hle => exact hle
  | more _ hlt _ _ hle _ ih => omega

/-- What is known of each answer that is read. -/
theorem forall_mem (h : stream.Rounds commas reads quiet low high answers) {p : α → Prop}
    (hreads : ∀ {heard first last answer}, reads heard first last answer → p answer) :
    ∀ answer ∈ answers, p answer := by
  induction h with
  | none => exact fun _ hmem => absurd hmem List.not_mem_nil
  | more _ _ hanswer _ _ _ ih =>
    intro answer hmem
    rcases List.mem_cons.1 hmem with rfl | hmem
    · exact hreads hanswer
    · exact ih answer hmem

/-- If there are no answers, there are only separators. -/
theorem apart_of_nil (h : stream.Rounds commas reads quiet low high []) (hquiet : quiet) :
    stream.Apart commas low high := by
  cases h with
  | none _ hgap => exact hgap hquiet

variable [Forest α]

/-- The trees of the answers sit where the answers were read. -/
theorem sits (h : stream.Rounds commas reads quiet low high answers)
    (hreads : ∀ {heard first last answer}, reads heard first last answer →
      ∀ tree ∈ trees answer, stream.Sits heard first last tree) :
    ∀ tree ∈ trees answers, stream.Sits quiet low high tree := by
  induction h with
  | none => exact fun _ hmem => absurd hmem List.not_mem_nil
  | more hbefore hlt hanswer hheard hle _ ih =>
    intro tree hmem
    rcases List.mem_append.1 hmem with hmem | hmem
    · exact (hreads hanswer tree hmem).mono hbefore.le hle hheard
    · exact (ih tree hmem).mono (Nat.le_refl _) (by omega) id

/-- Rows behind each other are one row. -/
theorem row (h : stream.Rounds commas reads quiet low high answers)
    (hreads : ∀ {heard first last answer}, reads heard first last answer →
      stream.Row heard first first (trees answer) last) :
    stream.Row quiet low low (trees answers.reverse) high := by
  induction h with
  | none => trivial
  | more hbefore hlt hanswer hheard hle _ ih =>
    rw [List.reverse_cons, trees_append, trees_cons, trees_nil, List.append_nil]
    exact ih.append ((hreads hanswer).mono (Nat.le_refl _) (Nat.le_refl _) hle hheard) hbefore.le
      hbefore.le (by omega)

end Rounds

end TokenStream

namespace Setting

open SableFrontend.Parser

variable {set : Setting} {α β : Type} {start state : ParserState} {footing : Footing}
  {before : List Outline}

/-! ### Repetition -/

/-- A loop keeps what each of its rounds keeps. -/
theorem Runs.repeatWhile {test : Parser Bool} {step : α → Parser α}
    {returns : α → ParserState → Prop} {stops : Abort → ParserState → Prop}
    (invariant : α → ParserState → Prop)
    (hround : ∀ value s, invariant value s → set.Runs test s (fun more final =>
      (more = true → set.Runs (step value) final invariant stops) ∧
        (more = false → returns value final)) stops)
    (hendless : ∀ value s, invariant value s → stops .endless s) {value : α}
    (h : invariant value state) : set.Runs (repeatWhile test step value) state returns stops := by
  have hloop : ∀ count value state, invariant value state →
      set.Runs (repeatWhile.iterate test step count value) state returns stops := by
    intro count
    induction count with
    | zero => exact fun value state h => .throw (hendless value state h)
    | succ count ih =>
      intro value state h
      refine .bind ((hround value state h).mono (fun more final ⟨hmore, hdone⟩ => ?_)
        fun _ _ hstops => hstops)
      refine .ite (fun htrue => ?_) fun hfalse => .pure (hdone (Bool.eq_false_iff.2 hfalse))
      exact .bind ((hmore htrue).mono (fun value' later hlater => ih value' later hlater)
        fun _ _ hstops => hstops)
  exact .bind (.read (hloop _ value state h))

/-- A loop that collects answers carries the trees of all of them along. -/
theorem Passed.collectWhile [Forest α] (h : set.Passed start footing before state)
    {test : Parser Bool} {parser : Parser α}
    (hround : ∀ {read : List Outline} s, set.Passed start footing read s →
      set.Runs test s (fun more final => set.Passed start footing read final ∧
        (more = true → set.Runs parser final
          (fun answer last => set.Passed start footing (read ++ trees answer) last)
          (set.Halts start))) (set.Halts start))
    {returns : List α → ParserState → Prop}
    (next : ∀ answers final, set.Passed start footing (before ++ trees answers) final →
      returns answers final) :
    set.Runs (collectWhile test parser) state returns (set.Halts start) := by
  refine .bind (Runs.repeatWhile
    (fun answers s => set.Passed start footing (before ++ trees answers.reverse) s)
    (fun answers s hs => (hround s hs).mono (fun more final ⟨hfinal, hmore⟩ => ?_)
      fun _ _ hhalts => hhalts)
    (fun _ s hs => ⟨hs.forget, Abort.noConfusion⟩) (by simpa using h))
  refine ⟨fun htrue => .bind ((hmore htrue).mono (fun answer last hlast => .pure ?_)
    fun _ _ hhalts => hhalts), fun _ => .pure (next _ final hfinal)⟩
  simpa using hlast

/-- What is repeated behind separators. -/
theorem Passed.collectBehind [Forest α] (h : set.Passed start footing before state)
    {separator : TokenKind} (hsolid : separator.isSolid = true) {parser : Parser α}
    (hparser : set.Builds parser) {returns : List α → ParserState → Prop}
    (next : ∀ answers final, set.Passed start footing (before ++ trees answers) final →
      returns answers final) :
    set.Runs
      (Parser.collectWhile (Parser.isAt separator) do
        let _ ← Parser.advance
        parser) state returns (set.Halts start) := by
  refine h.collectWhile (fun s hs => .isAt ⟨hs, fun hat => ?_⟩) next
  refine .bind (hs.advance (beq_iff_eq.1 hat) hsolid fun s₁ h₁ _ => ?_)
  exact h₁.build hparser fun answer s₂ h₂ _ => h₂.loosen

/-- What is repeated behind separators, with newlines around it. -/
theorem Passed.collectOnLines [Forest α] (h : set.Passed start .loose before state)
    {separator : TokenKind} (hsolid : separator.isSolid = true) {parser : Parser α}
    (hparser : set.Builds parser) {returns : List α → ParserState → Prop}
    (next : ∀ answers final, set.Passed start .loose (before ++ trees answers) final →
      returns answers final) :
    set.Runs
      (Parser.collectWhile (Parser.isAt separator) do
        let _ ← Parser.advance
        Parser.skipNewlines
        let answer ← parser
        Parser.skipNewlines
        return answer) state returns (set.Halts start) := by
  refine h.collectWhile (fun s hs => .isAt ⟨hs, fun hat => ?_⟩) next
  refine .bind (hs.advance (beq_iff_eq.1 hat) hsolid fun s₁ h₁ _ => ?_)
  refine .bind (h₁.skipNewlines fun s₂ h₂ => ?_)
  refine .bind (h₂.build hparser fun answer s₃ h₃ _ => ?_)
  exact .bind (h₃.skipNewlines fun s₄ h₄ => .pure h₄)

/-! ### Lists of reports -/

theorem Tells.refl (state : ParserState) : set.Tells state state := ⟨rfl, id, id⟩

theorem Tells.trans {final : ParserState} (h : set.Tells start state) (h' : set.Tells state final) :
    set.Tells start final where
  position_eq := h'.position_eq.trans h.position_eq
  quiet hquiet := h.quiet (h'.quiet hquiet)
  marked hmarked := h'.marked (h.marked hmarked)

section

variable {stops : Abort → ParserState → Prop} {list : List α}

/-- What is reported for each element of a list. Silence tells something about each of them. -/
theorem Runs.forM {action : α → Parser PUnit} (silent : α → Prop)
    (haction : ∀ element ∈ list, ∀ s, set.Runs (action element) s
      (fun _ final => set.Tells s final ∧ (final.Quiet → silent element)) stops)
    {returns : PUnit → ParserState → Prop}
    (next : ∀ final, set.Tells state final → (final.Quiet → ∀ element ∈ list, silent element) →
      returns ⟨⟩ final) :
    set.Runs (list.forM action) state returns stops := by
  induction list generalizing state with
  | nil => exact .pure (next state (.refl state) fun _ _ hmem => absurd hmem List.not_mem_nil)
  | cons first rest ih =>
    refine .bind ((haction first List.mem_cons_self state).mono
      (fun _ middle ⟨hmiddle, hfirst⟩ => ?_) fun _ _ hstops => hstops)
    refine ih (fun element hmem => haction element (List.mem_cons_of_mem first hmem))
      fun final hfinal hrest => next final (hmiddle.trans hfinal) fun hquiet element hmem => ?_
    rcases List.mem_cons.1 hmem with rfl | hmem
    · exact hfirst (hfinal.quiet hquiet)
    · exact hrest hquiet element hmem

/-- A report for each element of a list. There is silence only if there is no element. -/
theorem Runs.reportEach {diagnose : α → Diagnostic}
    (hmarks : ∀ element ∈ list, ∀ label ∈ (diagnose element).labels, set.stream.Marks label.span)
    {returns : PUnit → ParserState → Prop}
    (next : ∀ final, set.Tells state final → (final.Quiet → list = []) → returns ⟨⟩ final) :
    set.Runs (list.forM fun element => Parser.report (diagnose element)) state returns stops := by
  refine .forM (fun _ => False) (fun element hmem s => ?_) fun final htells hsilent =>
    next final htells fun hquiet => List.eq_nil_iff_forall_not_mem.2 (hsilent hquiet)
  exact ⟨tells_report (hmarks element hmem), fun hquiet => not_quiet_report _ _ hquiet⟩

/-- Elements of a list and what they become, one by one. -/
theorem Runs.mapM {action : α → Parser β} (becomes : α → β → Prop)
    (haction : ∀ element ∈ list, ∀ s, set.Runs (action element) s
      (fun answer final => set.Tells s final ∧ becomes element answer) stops)
    {returns : List β → ParserState → Prop}
    (next : ∀ answers final, set.Tells state final →
      (∀ answer ∈ answers, ∃ element ∈ list, becomes element answer) →
      (∀ element ∈ list, ∃ answer ∈ answers, becomes element answer) → returns answers final) :
    set.Runs (list.mapM action) state returns stops := by
  -- the answers so far stand in reverse order
  have hloop : ∀ rest : List α, (∀ element ∈ rest, element ∈ list) → ∀ (reversed : List β) state,
      set.Runs (List.mapM.loop action rest reversed) state
        (fun answer final => set.Tells state final ∧ ∃ answers, answer = reversed.reverse ++ answers ∧
          (∀ answer ∈ answers, ∃ element ∈ rest, becomes element answer) ∧
          ∀ element ∈ rest, ∃ answer ∈ answers, becomes element answer) stops := by
    intro rest
    induction rest with
    | nil =>
      exact fun _ reversed state => .pure ⟨.refl state, [], (List.append_nil _).symm, nofun, nofun⟩
    | cons first rest ih =>
      intro hmem reversed state
      refine .bind ((haction first (hmem first List.mem_cons_self) state).mono
        (fun answer middle ⟨hmiddle, hfirst⟩ => ?_) fun _ _ hstops => hstops)
      refine (ih (fun element hrest => hmem element (List.mem_cons_of_mem first hrest))
        (answer :: reversed) middle).mono ?_ fun _ _ hstops => hstops
      rintro _ final ⟨hfinal, answers, rfl, hfrom, hto⟩
      refine ⟨hmiddle.trans hfinal, answer :: answers, by simp, ?_, ?_⟩
      · simp only [List.forall_mem_cons, List.exists_mem_cons_iff]
        exact ⟨Or.inl hfirst, fun other hother => Or.inr (hfrom other hother)⟩
      · simp only [List.forall_mem_cons, List.exists_mem_cons_iff]
        exact ⟨Or.inl hfirst, fun other hother => Or.inr (hto other hother)⟩
  refine (hloop list (fun _ => id) [] state).mono ?_ fun _ _ hstops => hstops
  rintro _ final ⟨hfinal, answers, rfl, hfrom, hto⟩
  exact next _ final hfinal hfrom hto

end

/-! ### Attempts and recovery -/

/-- A step that shows in the history only. -/
theorem Passed.noted (h : set.Passed start footing before state) (history : List ParserEvent) :
    set.Passed start footing before { state with history := history } :=
  h.told ⟨rfl, id, id⟩

/-- An attempt leaves nothing behind, whatever is attempted. -/
theorem Passed.speculate (h : set.Passed start footing before state) {attempt : Parser Bool}
    {returns : Bool → ParserState → Prop}
    (next : ∀ verdict final, set.Passed start footing before final → returns verdict final) :
    set.Runs (speculate attempt) state returns (set.Halts start) := by
  have hattempt : set.Runs attempt { state with log := state.log.mute } (fun _ _ => True)
      fun _ _ => True := by
    unfold Runs
    split <;> trivial
  refine .bind (.get (.bind (.put (.tryCatch (.bind (hattempt.mono (fun verdict final _ => ?_)
    fun abort final _ => ?_))))))
  · exact .bind (.rewind (.pure (next verdict _ (h.noted _))))
  · refine .bind (.rewind ?_)
    have hback := h.noted final.history
    cases abort with
    | failed => exact .pure (next false _ hback)
    | tooDeep => exact hback.throw Abort.noConfusion
    | overlongInteger digits => exact hback.throw Abort.noConfusion
    | endless => exact hback.throw Abort.noConfusion

/-- A failure that is recovered from has been reported. -/
theorem Passed.recover (h : set.Passed start footing before state) {parser : Parser α}
    {known : α → ParserState → Prop}
    (hparser : set.Runs parser state known (set.Halts state))
    {returns : Option α → ParserState → Prop}
    (hsome : ∀ answer final, known answer final → returns (some answer) final)
    (hnone : ∀ final, set.Passed state .loose [] final → ¬final.Quiet → returns none final) :
    set.Runs (recover parser) state returns (set.Halts start) := by
  refine .bind (.get (.tryCatch (.map (hparser.mono hsome fun abort final hhalts => ?_))))
  cases abort with
  | failed =>
    exact .bind (.get (.bind (.note (.pure (hnone _ (hhalts.passed.noted _) (hhalts.loud rfl))))))
  | tooDeep => exact .throw (h.halts hhalts)
  | overlongInteger digits => exact .throw (h.halts hhalts)
  | endless => exact .throw (h.halts hhalts)

theorem Passed.synchronize (h : set.Passed start footing before state) {within : Enclosure}
    {returns : Unit → ParserState → Prop} {stops : Abort → ParserState → Prop}
    (next : ∀ final, set.Passed start .loose before final → state.position ≤ final.position →
      (¬state.Quiet → ¬final.Quiet) → returns () final) :
    set.Runs (synchronize within) state returns stops := by
  obtain ⟨hle, hlt⟩ := TokenStream.resumePosition_bounds within.level within.commas h.lt
  have hmoved : set.Passed start .loose before
      { state with position := set.stream.resumePosition within.level within.commas state.position } :=
    h.moved hle hlt trivial
  exact .bind (.get (.bind (.read (.bind (.moveTo (.note (next _ (hmoved.noted _) hle id)))))))

/-! ### Items -/

section

variable {within : Enclosure} {item : Parser α} {what : String} {answers : List α}
  {reads : Prop → Nat → Nat → α → Prop}

/-- What is known of an item wherever it is read. -/
def ReadsItem (set : Setting) (reads : Prop → Nat → Nat → α → Prop) (item : Parser α) : Prop :=
  ∀ s, s.position < set.stream.size → set.Runs item s (fun answer final =>
    set.Passed s .solid [] final ∧ reads final.Quiet s.position final.position answer) (set.Halts s)

/-- One item, in front of those already read. A failed one is skipped, but not in silence. -/
theorem Passed.readItem (h : set.Passed start .loose before state)
    (hrounds : set.stream.Rounds within.commas reads state.Quiet start.position state.position
      answers) (hitem : set.ReadsItem reads item) :
    set.Runs (readItem item within what answers) state
      (fun more final => set.Passed start .loose before final ∧
        set.stream.Rounds within.commas reads final.Quiet start.position final.position more)
      (set.Halts start) := by
  have hskipped : ∀ {more : List α} {quiet : Prop} {last : Nat} middle,
      set.Passed start .loose before middle → ¬middle.Quiet → last ≤ middle.position →
      set.stream.Rounds within.commas reads quiet start.position last more →
      set.Runs (do
        Parser.synchronize within
        return more) middle
        (fun more final => set.Passed start .loose before final ∧
          set.stream.Rounds within.commas reads final.Quiet start.position final.position more)
        (set.Halts start) := by
    intro more quiet last middle hmiddle hloud hle hread
    refine .bind (hmiddle.synchronize fun final hfinal hforward hstill => .pure ⟨hfinal, ?_⟩)
    exact hread.stretch (fun hquiet => absurd hquiet (hstill hloud)) (Nat.le_trans hle hforward)
      fun hquiet => absurd hquiet (hstill hloud)
  refine .bind (h.recover (hitem state h.lt) ?_ fun final hfinal hloud =>
    hskipped final (h.further hfinal) hloud hfinal.le hrounds)
  rintro value s₁ ⟨hvalue, hreads⟩
  have h₁ : set.Passed start .loose before s₁ := (h.further hvalue).loosen
  have hread : set.stream.Rounds within.commas reads s₁.Quiet start.position s₁.position
      (value :: answers) :=
    .more (hrounds.stretch hvalue.quiet (Nat.le_refl _) fun _ => .refl) hvalue.stands.1 hreads id
      (Nat.le_refl _) fun _ => .refl
  have hend : set.Runs (endItem within what) s₁ (fun _ final => final = s₁) (set.Halts s₁) :=
    .bind (.current (.ite (fun _ => .pure rfl) fun _ => (Passed.refl h₁.lt).unexpected))
  refine .bind (h₁.recover hend ?_ fun final hfinal hloud => ?_)
  · rintro _ _ rfl
    exact .ite (fun hnone => nomatch hnone) fun _ => .pure ⟨h₁, hread⟩
  · refine .ite (fun _ => ?_) fun hsome => absurd rfl hsome
    exact hskipped final (h₁.further hfinal) hloud hfinal.le hread

/-- One more item, and the separators behind it. -/
theorem Passed.nextItem (h : set.Passed start .loose before state)
    (hrounds : set.stream.Rounds within.commas reads state.Quiet start.position state.position
      answers) (hitem : set.ReadsItem reads item) :
    set.Runs (nextItem item within what answers) state
      (fun more final => set.Passed start .loose before final ∧
        set.stream.Rounds within.commas reads final.Quiet start.position final.position more)
      (set.Halts start) := by
  refine .bind (.get (.bind ((h.readItem hrounds hitem).mono (fun more middle ⟨hmiddle, hread⟩ => ?_)
    fun _ _ hhalts => hhalts)))
  refine .bind ((Passed.refl hmiddle.lt).skipSeparators fun final hlocal hposition =>
    .bind (.get (.bind (.note (.pure ⟨(hmiddle.further hlocal).noted _, ?_⟩)))))
  refine hread.stretch hlocal.quiet hlocal.le fun _ => ?_
  show set.stream.Apart within.commas middle.position final.position
  rw [hposition]
  exact TokenStream.apart_skipWhile

/-- A loop over items ends in front of its closer, or at the end of the file. -/
theorem Passed.items (h : set.Passed start footing before state) {closer : TokenKind}
    {commas : Bool} (hitem : set.ReadsItem reads item) {returns : List α → ParserState → Prop}
    (next : ∀ answers final, set.Passed start .loose before final →
      set.stream.Rounds commas reads final.Quiet state.position final.position answers.reverse →
      set.stream.kind final.position = closer ∨ set.stream.kind final.position = .endOfFile →
      returns answers final) :
    set.Runs (items item closer commas what) state returns (set.Halts start) := by
  refine .bind (.enclose (.bind (.note ?_)))
  have hbegin := (Passed.refl h.lt).noted (.entered {
    first := state.position, level := set.stream.depth state.position, closer := closer,
    commas := commas } :: state.history)
  refine .bind (hbegin.skipSeparators fun s₁ h₁ hposition => ?_)
  have hnone : set.stream.Rounds commas reads s₁.Quiet state.position s₁.position [] := by
    refine .none h₁.le fun _ => ?_
    rw [hposition]
    exact TokenStream.apart_skipWhile
  refine .bind ((Runs.repeatWhile
    (fun answers s => set.Passed state .loose [] s ∧
      set.stream.Rounds commas reads s.Quiet state.position s.position answers)
    (fun answers s ⟨hs, hread⟩ => ?_) (fun _ s hs => ⟨hs.1, Abort.noConfusion⟩) ⟨h₁, hnone⟩).mono
    (fun _ _ hanswer => hanswer) fun _ _ hhalts => h.halts hhalts)
  refine .bind (.isAt (.bind (.isAt (.pure ⟨fun _ => hs.nextItem hread hitem, fun hdone => ?_⟩))))
  refine .bind (.get (.bind (.note (.pure (next _ _ ((h.further hs).noted _) ?_ ?_)))))
  · rwa [List.reverse_reverse]
  · simpa [or_iff_not_imp_left] using hdone

/-- A loop over items of which each is a part of the tree, and known to be of some kind. -/
theorem Passed.itemsKnown [Forest α] (h : set.Passed start footing before state) {closer : TokenKind}
    {commas : Bool} {known : α → Prop}
    (hitem : ∀ s, s.position < set.stream.size → set.Runs item s
      (fun answer final => set.Passed s .solid (trees answer) final ∧ known answer) (set.Halts s))
    {returns : List α → ParserState → Prop}
    (next : ∀ answers final, set.Passed start .loose (before ++ trees answers) final →
      (∀ answer ∈ answers, known answer) →
      (final.Quiet → answers = [] → state.position ≤ final.position ∧
        set.stream.Apart commas state.position final.position) →
      returns answers final) :
    set.Runs (Parser.items item closer commas what) state returns (set.Halts start) := by
  have hreads : set.ReadsItem (fun quiet first last answer =>
      (∀ tree ∈ trees answer, set.stream.Sits quiet first last tree) ∧ known answer) item :=
    fun s hs => (hitem s hs).mono
      (fun answer final ⟨hfinal, hknown⟩ =>
        ⟨hfinal.subset (List.nil_subset _), hfinal.sits, hknown⟩)
      fun _ _ hhalts => hhalts
  refine h.items hreads fun answers final hfinal hrounds _ => next answers final ?_ ?_ ?_
  · refine hfinal.sitsAll fun tree hmem => ?_
    rcases List.mem_append.1 hmem with hmem | hmem
    · exact hfinal.sits tree hmem
    · have hsits := hrounds.sits (fun hanswer => hanswer.1) tree (by simpa using hmem)
      exact hsits.mono h.le (Nat.le_refl _) id
  · intro answer hmem
    exact hrounds.forall_mem (fun hanswer => hanswer.2) answer (List.mem_reverse.2 hmem)
  · rintro hquiet rfl
    exact ⟨hrounds.le, hrounds.apart_of_nil hquiet⟩

theorem Passed.itemsOf [Forest α] (h : set.Passed start footing before state) {closer : TokenKind}
    {commas : Bool} (hitem : set.Builds item) {returns : List α → ParserState → Prop}
    (next : ∀ answers final, set.Passed start .loose (before ++ trees answers) final →
      returns answers final) :
    set.Runs (Parser.items item closer commas what) state returns (set.Halts start) := by
  have hknown : ∀ s, s.position < set.stream.size → set.Runs item s
      (fun answer final => set.Passed s .solid (trees answer) final ∧ True) (set.Halts s) :=
    fun s hs => (hitem s hs).mono (fun _ _ hfinal => ⟨hfinal, trivial⟩) fun _ _ hhalts => hhalts
  exact h.itemsKnown hknown fun answers final hfinal _ _ => next answers final hfinal

end

end Setting

end SableFrontend
