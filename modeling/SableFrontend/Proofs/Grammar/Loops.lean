import SableFrontend.Proofs.Grammar.Steps

/-!
Loops, attempts and recovery.

A loop whose every step consumes a token comes to an end, since there are only so many tokens. A
loop over items does not ask its items to succeed: a failed one is skipped. It still goes on,
because a loop only starts an item at a token that does not end its items, and skipping stops in
front of such a token only if it stands in an inner pair of delimiters. So a loop over items never
fails; it may be left only for another reason (`Quits`).
-/

namespace SableFrontend

namespace TokenStream

variable {stream : TokenStream}

/-- Skipping the rest of an item stays in the enclosure of the item and comes back to its level. It
stays where it is only at the end of the enclosure. -/
theorem Balanced.within_resumePosition (balanced : stream.Balanced) {first level position : Nat}
    (commas : Bool) (hlevel : level = (stream.opened first).length)
    (hwithin : stream.Within first position) :
    stream.Within first (stream.resumePosition level commas position) ∧
      position ≤ stream.resumePosition level commas position ∧
      stream.opened (stream.resumePosition level commas position) = stream.opened first ∧
      (stream.resumePosition level commas position = position →
        stream.kind position = .endOfFile ∨
          (stream.kind position).isCloser = true ∧
            stream.opened position = stream.opened first) := by
  have hatLevel : ∀ {p}, stream.Within first p → stream.depth p = level →
      stream.opened p = stream.opened first := by
    intro p hp hdepth
    rw [balanced.depth_eq hp.lt, hlevel] at hdepth
    exact (hp.last.eq_of_length hdepth.symm).symm
  fun_induction resumePosition stream level commas position with
  | case1 position hnext kind depth hstop =>
    rcases hstop with hend | hout | ⟨hdepth, hcloser⟩
    · have hsame := balanced.opened_eq_of_end hwithin hend
      exact ⟨hwithin, Nat.le_refl _, hsame, fun _ => Or.inl hend⟩
    · -- with fewer delimiters open than at `first`, the enclosure would have been left
      have hle := hwithin.last.length_le
      rw [← balanced.depth_eq hwithin.lt, ← hlevel] at hle
      exact absurd hle (Nat.not_le_of_lt hout)
    · have hsame := hatLevel hwithin hdepth
      exact ⟨hwithin, Nat.le_refl _, hsame, fun _ => Or.inr ⟨hcloser, hsame⟩⟩
  | case2 position hnext kind depth hstop hseparator =>
    have hplain := TokenKind.isPlain_of_separates hseparator.2
    have hsame := hatLevel hwithin hseparator.1
    have hopened := opened_succ_plain hwithin.lt hplain
    have hend : stream.kind position ≠ .endOfFile := fun heq => hstop (Or.inl heq)
    refine ⟨hwithin.succ hend ?_, Nat.le_succ _, hopened.trans hsame, fun heq => ?_⟩
    · rw [hopened]
      exact hwithin.last
    · exact absurd heq (Nat.succ_ne_self _)
  | case3 position hnext kind depth hstop hseparator ih =>
    have hend : stream.kind position ≠ .endOfFile := fun heq => hstop (Or.inl heq)
    -- a closer that is passed over closes a pair inside of the enclosure
    have hinner : (stream.kind position).isCloser = true →
        (stream.opened first).length < (stream.opened position).length := by
      intro hcloser
      have hne : stream.depth position ≠ level :=
        fun heq => hstop (Or.inr (Or.inr ⟨heq, hcloser⟩))
      have hle := hwithin.last.length_le
      rw [balanced.depth_eq hwithin.lt, hlevel] at hne
      omega
    obtain ⟨hstay, hle, hsame, -⟩ := ih (balanced.within_succ hwithin hend hinner)
    exact ⟨hstay, by omega, hsame, fun heq => absurd heq (by omega)⟩
  | case4 position hlast =>
    have hend : stream.kind position = .endOfFile := by
      have hlt := hwithin.lt
      rw [show position = stream.size - 1 by omega]
      exact stream.kind_last
    have hsame := balanced.opened_eq_of_end hwithin hend
    exact ⟨hwithin, Nat.le_refl _, hsame, fun _ => Or.inl hend⟩

end TokenStream

/-- Events that neither begin nor end an enclosure leave the balance as it is. -/
theorem ParserState.Settles.note {start state : ParserState} (h : start.Settles state)
    {event : ParserEvent} (hbegins : ∀ within, event.begins within = false)
    (hends : ∀ within, event.ends within = false) :
    start.Settles { state with history := event :: state.history } := by
  obtain ⟨events, hevents, hcount⟩ := h
  refine ⟨event :: events, by rw [hevents, List.cons_append], ?_⟩
  refine hcount.imp (List.mem_cons_of_mem event) fun hcount within => ?_
  rw [List.countP_cons_of_neg (by simp [hbegins within]),
    List.countP_cons_of_neg (by simp [hends within]), hcount]

/-- An enclosure that has been begun and read to its end is balanced by itself. -/
theorem ParserState.Settles.enclose {start final : ParserState} {within : Enclosure}
    (h : ParserState.Settles { start with history := .entered within :: start.history } final)
    (stop : Nat) :
    start.Settles { final with history := .finished within stop :: final.history } := by
  obtain ⟨events, hevents, hcount⟩ := h
  -- the new end of the events is the partner of their old beginning
  refine ⟨.finished within stop :: (events ++ [.entered within]), ?_, ?_⟩
  · rw [hevents, List.cons_append, List.append_assoc, List.singleton_append]
  · refine hcount.imp (fun hcut => ?_) fun hcount other => ?_
    · exact List.mem_cons_of_mem _ (List.mem_append_left _ hcut)
    · have hfinished : (ParserEvent.finished within stop).begins other = false := rfl
      have hentered : (ParserEvent.entered within).ends other = false := rfl
      have hsame : (ParserEvent.entered within).begins other =
          (ParserEvent.finished within stop).ends other := rfl
      simp only [List.countP_cons, List.countP_append, List.countP_nil, hcount other, hfinished,
        hentered, hsame]
      omega

namespace Setting

open SableFrontend.Parser

variable {set : Setting} {α β : Type} {start state final : ParserState} {moved moved' : Bool}
  {inside : List Bracket}

/-! ### Repetition -/

/-- A loop goes on from state to state, forward, until its test fails. -/
theorem runs_iterate (stops : ParserState → Abort → ParserState → Prop) {test : Parser Bool}
    {step : α → Parser α} {continues finishes : ParserState → Prop}
    (hstops : ∀ {state final later abort}, set.Reached state false [] final →
      stops final abort later → stops state abort later)
    (htest : ∀ state, set.Reached start false [] state →
      set.Runs test state
        (fun more final => set.Reached state false [] final ∧
          if more = true then continues final else finishes final) (stops state))
    (hstep : ∀ value state, set.Reached start false [] state → continues state →
      set.Runs (step value) state (fun _ final => set.Reached state true [] final) (stops state))
    {count : Nat} {value : α} (h : set.Reached start false [] state)
    (hcount : set.stream.size ≤ count + state.position) :
    set.Runs (repeatWhile.iterate test step count value) state
      (fun _ final => set.Reached state false [] final ∧ finishes final) (stops state) := by
  -- on the rounds that are allowed: each consumes a token, so there are never more tokens left
  induction count generalizing value state with
  | zero =>
    have hlt := h.lt
    omega
  | succ count ih =>
    refine .bind ((htest state h).mono (fun more final ⟨htested, hmore⟩ => ?_) fun _ _ hs => hs)
    cases more with
    | false => exact .pure ⟨htested, hmore⟩
    | true =>
      have hfinal := h.trans htested
      refine .bind ((hstep value final hfinal hmore).mono (fun value' later hlater => ?_)
        fun _ _ hs => hstops htested hs)
      have hforward := hlater.progress rfl
      have hbehind := htested.within.le
      have hreached := (htested.trans hlater).weaken
      refine (ih (h.trans hreached).weaken (by omega)).mono ?_
        fun _ _ hs => hstops hreached hs
      exact fun _ last ⟨hlast, hfinishes⟩ => ⟨(hreached.trans hlast).weaken, hfinishes⟩

/-- A loop whose steps consume tokens keeps to the rules, and its test fails at the end of it. -/
theorem runs_repeatWhile {test : Parser Bool} {step : α → Parser α}
    {continues finishes : ParserState → Prop}
    (htest : ∀ state, set.Reached start false [] state →
      set.Runs test state
        (fun more final => set.Reached state false [] final ∧
          if more = true then continues final else finishes final) (set.Stops state))
    (hstep : ∀ value state, set.Reached start false [] state → continues state →
      set.Proceeds true (step value) state)
    (hlt : start.position < set.stream.size) {value : α} :
    set.Runs (repeatWhile test step value) start
      (fun _ final => set.Reached start false [] final ∧ finishes final) (set.Stops start) :=
  .bind (.read (runs_iterate set.Stops (fun h hs => h.stops hs) htest hstep (.refl hlt)
    (Nat.le_add_right ..)))

theorem runs_collectWhile {test : Parser Bool} {parser : Parser α}
    {continues finishes : ParserState → Prop}
    (htest : ∀ state, set.Reached start false [] state →
      set.Runs test state
        (fun more final => set.Reached state false [] final ∧
          if more = true then continues final else finishes final) (set.Stops state))
    (hparser : ∀ state, set.Reached start false [] state → continues state →
      set.Proceeds true parser state)
    (hlt : start.position < set.stream.size) :
    set.Runs (collectWhile test parser) start
      (fun _ final => set.Reached start false [] final ∧ finishes final) (set.Stops start) := by
  refine .bind ((runs_repeatWhile htest (fun answers state h hcontinues => ?_) hlt).mono
    (fun _ _ hfinal => .pure hfinal) fun _ _ hs => hs)
  exact .bind ((hparser state h hcontinues).mono (fun _ _ hfinal => .pure hfinal) fun _ _ hs => hs)

/-- A loop as a part of a production. -/
theorem Reached.loop (h : set.Reached start moved inside state) {parser : Parser α}
    {finishes : ParserState → Prop}
    (hloop : set.Runs parser state
      (fun _ final => set.Reached state false [] final ∧ finishes final) (set.Stops state))
    {returns : α → ParserState → Prop}
    (next : ∀ answer final, set.Reached start moved inside final → finishes final →
      returns answer final) : set.Runs parser state returns (set.Stops start) := by
  refine hloop.mono (fun answer final ⟨hfinal, hfinishes⟩ => next answer final ?_ hfinishes)
    (fun _ _ hs => h.stops hs)
  exact Bool.or_false moved ▸ h.trans hfinal

/-- The test of a loop that goes on as long as a token of a kind comes next. -/
theorem runs_isAt {kind : TokenKind} (hlt : state.position < set.stream.size) :
    set.Runs (isAt kind) state
      (fun more final => set.Reached state false [] final ∧
        if more = true then set.stream.kind final.position = kind
        else set.stream.kind final.position ≠ kind) (set.Stops state) := by
  refine .isAt ⟨.refl hlt, ?_⟩
  split
  · next hat => exact beq_iff_eq.1 hat
  · next hnot => exact fun heq => hnot (beq_iff_eq.2 heq)

/-- What is repeated as long as a token of a kind comes next. -/
theorem Reached.collectWhileAt (h : set.Reached start moved inside state) {kind : TokenKind}
    {parser : Parser α}
    (hparser : ∀ s, set.Reached state false [] s → set.stream.kind s.position = kind →
      set.Proceeds true parser s) {returns : List α → ParserState → Prop}
    (next : ∀ answers final, set.Reached start moved inside final → returns answers final) :
    set.Runs (collectWhile (isAt kind) parser) state returns (set.Stops start) :=
  h.loop (runs_collectWhile (fun _ hs => runs_isAt hs.lt) (fun _ hs => hparser _ hs) h.lt)
    fun answers final h' _ => next answers final h'

/-- What is repeated behind separators of a plain kind. -/
theorem Reached.collectBehind_of_depth (h : set.Reached start moved inside state) {depth : Nat}
    (hdepth : (set.stream.opened state.position).length = depth) {separator : TokenKind}
    (hplain : separator.isPlain = true) {parser : Parser α}
    (hparser : set.ObeysAt depth moved' parser) {returns : List α → ParserState → Prop}
    (next : ∀ answers final, set.Reached start moved inside final → returns answers final) :
    set.Runs
      (collectWhile (isAt separator) do
        let _ ← advance
        parser) state returns (set.Stops start) := by
  refine h.collectWhileAt (fun s hs hseparator => ?_) next
  refine .bind ((Reached.refl hs.lt).advancePlain hseparator hplain fun s₁ h₁ _ => ?_)
  exact h₁.call (hparser s₁ h₁.lt ((hs.trans h₁).depth_eq hdepth)) fun _ _ h₂ => h₂

theorem Reached.collectBehind (h : set.Reached start moved inside state) {separator : TokenKind}
    (hplain : separator.isPlain = true) {parser : Parser α} (hparser : set.Obeys moved' parser)
    {returns : List α → ParserState → Prop}
    (next : ∀ answers final, set.Reached start moved inside final → returns answers final) :
    set.Runs
      (collectWhile (isAt separator) do
        let _ ← advance
        parser) state returns (set.Stops start) :=
  h.collectBehind_of_depth rfl hplain (hparser.at _) next

/-- What is repeated behind separators, with newlines around it. -/
theorem Reached.collectOnLines_of_depth (h : set.Reached start moved inside state) {depth : Nat}
    (hdepth : (set.stream.opened state.position).length = depth) {separator : TokenKind}
    (hplain : separator.isPlain = true) {parser : Parser α}
    (hparser : set.ObeysAt depth moved' parser) {returns : List α → ParserState → Prop}
    (next : ∀ answers final, set.Reached start moved inside final → returns answers final) :
    set.Runs
      (collectWhile (isAt separator) do
        let _ ← advance
        Parser.skipNewlines
        let answer ← parser
        Parser.skipNewlines
        return answer) state returns (set.Stops start) := by
  refine h.collectWhileAt (fun s hs hseparator => ?_) next
  refine .bind ((Reached.refl hs.lt).advancePlain hseparator hplain fun s₁ h₁ _ => ?_)
  refine .bind (h₁.skipNewlines fun s₂ h₂ _ => ?_)
  refine .bind (h₂.call (hparser s₂ h₂.lt ((hs.trans h₂).depth_eq hdepth)) fun answer s₃ h₃ => ?_)
  exact .bind (h₃.skipNewlines fun s₄ h₄ _ => .pure h₄)

theorem Reached.collectOnLines (h : set.Reached start moved inside state) {separator : TokenKind}
    (hplain : separator.isPlain = true) {parser : Parser α} (hparser : set.Obeys moved' parser)
    {returns : List α → ParserState → Prop}
    (next : ∀ answers final, set.Reached start moved inside final → returns answers final) :
    set.Runs
      (collectWhile (isAt separator) do
        let _ ← advance
        Parser.skipNewlines
        let answer ← parser
        Parser.skipNewlines
        return answer) state returns (set.Stops start) :=
  h.collectOnLines_of_depth rfl hplain (hparser.at _) next

/-- A test of which nothing is known but that it keeps to the rules. -/
theorem Proceeds.test {test : Parser Bool} (h : set.Proceeds false test state) :
    set.Runs test state
      (fun more final => set.Reached state false [] final ∧ if more = true then True else True)
      (set.Stops state) :=
  h.mono (fun _ _ hfinal => ⟨hfinal, by split <;> trivial⟩) fun _ _ hstops => hstops

/-- What is repeated as long as a test says so. -/
theorem Reached.repeatWhile (h : set.Reached start moved inside state) {test : Parser Bool}
    {step : α → Parser α} (htest : set.Obeys false test)
    (hstep : ∀ value, set.Obeys true (step value)) {value : α} {returns : α → ParserState → Prop}
    (next : ∀ answer final, set.Reached start moved inside final → returns answer final) :
    set.Runs (repeatWhile test step value) state returns (set.Stops start) :=
  h.loop (runs_repeatWhile (fun _ hs => (htest _ hs.lt).test)
    (fun value _ hs _ => hstep value _ hs.lt) h.lt) fun answer final h' _ => next answer final h'

theorem Reached.collectWhile_of_depth (h : set.Reached start moved inside state) {depth : Nat}
    (hdepth : (set.stream.opened state.position).length = depth) {test : Parser Bool}
    {parser : Parser α} (htest : set.Obeys false test) (hparser : set.ObeysAt depth true parser)
    {returns : List α → ParserState → Prop}
    (next : ∀ answers final, set.Reached start moved inside final → returns answers final) :
    set.Runs (collectWhile test parser) state returns (set.Stops start) :=
  h.loop (runs_collectWhile (fun _ hs => (htest _ hs.lt).test)
    (fun _ hs _ => hparser _ hs.lt (hs.depth_eq hdepth)) h.lt)
    fun answers final h' _ => next answers final h'

theorem Reached.collectWhile (h : set.Reached start moved inside state) {test : Parser Bool}
    {parser : Parser α} (htest : set.Obeys false test) (hparser : set.Obeys true parser)
    {returns : List α → ParserState → Prop}
    (next : ∀ answers final, set.Reached start moved inside final → returns answers final) :
    set.Runs (collectWhile test parser) state returns (set.Stops start) :=
  h.collectWhile_of_depth rfl htest (hparser.at _) next

/-- What is done for each element of a list, when it is a step that can be gone on from. -/
theorem Reached.forM (h : set.Reached start moved inside state) {list : List α}
    {action : α → Parser PUnit} {stops : Abort → ParserState → Prop}
    (haction : ∀ element ∈ list, ∀ {state} {returns : PUnit → ParserState → Prop},
      set.Reached start moved inside state →
      (∀ final, set.Reached start moved inside final → returns ⟨⟩ final) →
      set.Runs (action element) state returns stops)
    {returns : PUnit → ParserState → Prop}
    (next : ∀ final, set.Reached start moved inside final → returns ⟨⟩ final) :
    set.Runs (list.forM action) state returns stops := by
  induction list generalizing state with
  | nil => exact .pure (next state h)
  | cons first rest ih =>
    refine .bind (haction first List.mem_cons_self h fun middle hmiddle => ?_)
    exact ih hmiddle fun element hmem => haction element (List.mem_cons_of_mem first hmem)

/-- What is kept of a list by such a step for each of its elements. -/
theorem Reached.filterM (h : set.Reached start moved inside state) {list : List α}
    {action : α → Parser Bool} {stops : Abort → ParserState → Prop}
    (haction : ∀ element {state} {returns : Bool → ParserState → Prop},
      set.Reached start moved inside state →
      (∀ keep final, set.Reached start moved inside final → returns keep final) →
      set.Runs (action element) state returns stops)
    {returns : List α → ParserState → Prop}
    (next : ∀ kept final, set.Reached start moved inside final → returns kept final) :
    set.Runs (list.filterM action) state returns stops := by
  have hloop : ∀ (kept : List α) {state}, set.Reached start moved inside state →
      set.Runs (List.filterAuxM action list kept) state
        (fun _ final => set.Reached start moved inside final) stops := by
    induction list with
    | nil => exact fun kept state h => .pure h
    | cons first rest ih =>
      intro kept state h
      exact .bind (haction first h fun keep middle hmiddle => ih _ hmiddle)
  exact .bind ((hloop [] h).mono (fun kept final hfinal => .pure (next _ final hfinal))
    fun _ _ hstops => hstops)

theorem Reached.mapM (h : set.Reached start moved inside state) {list : List α}
    {action : α → Parser β} (haction : ∀ element, set.Obeys false (action element))
    {returns : List β → ParserState → Prop}
    (next : ∀ answers final, set.Reached start moved inside final → returns answers final) :
    set.Runs (list.mapM action) state returns (set.Stops start) := by
  have hloop : ∀ (answers : List β) {state}, set.Reached start moved inside state →
      set.Runs (List.mapM.loop action list answers) state returns (set.Stops start) := by
    induction list with
    | nil => exact fun answers state h => .pure (next _ state h)
    | cons first rest ih =>
      intro answers state h
      refine .bind (h.call (haction first state h.lt) fun answer middle hmiddle => ?_)
      rw [Bool.or_false] at hmiddle
      exact ih (answer :: answers) hmiddle
  exact hloop [] h

/-! ### Recovery -/

theorem tryCatch_apply {parser : Parser α} {handler : Abort → Parser α} {stream : TokenStream} :
    (tryCatch parser handler : Parser α) stream state =
      match parser stream state with
      | (.ok answer, final) => (.ok answer, final)
      | (.error abort, final) => handler abort stream final := by
  cases hrun : parser stream state with
  | mk result final =>
    simp only [tryCatch, tryCatchThe, MonadExceptOf.tryCatch, ExceptT.tryCatch, ExceptT.mk, bind,
      StateT.bind]
    rw [hrun]
    cases result <;> rfl

/-- An attempt leaves nothing behind but its events. -/
theorem speculate_apply (attempt : Parser Bool) (stream : TokenStream) (state : ParserState) :
    Parser.speculate attempt stream state =
      match attempt stream { state with log := state.log.mute } with
      | (.ok verdict, final) => (.ok verdict, { state with history := final.history })
      | (.error .failed, final) => (.ok false, { state with history := final.history })
      | (.error abort, final) => (.error abort, { state with history := final.history }) := by
  show (tryCatch (attempt >>= fun verdict => Parser.rewind state >>= fun _ => pure verdict) _ :
    Parser Bool) stream { state with log := state.log.mute } = _
  rw [show ∀ (parser : Parser Bool) handler, (tryCatch parser handler : Parser Bool) stream
    { state with log := state.log.mute } = _ from fun _ _ => tryCatch_apply, bind_apply]
  cases attempt stream { state with log := state.log.mute } with
  | mk result final =>
    cases result with
    | ok verdict => rfl
    | error abort => cases abort <;> rfl

theorem Runs.tryCatch {parser : Parser α} {handler : Abort → Parser α}
    {returns : α → ParserState → Prop} {stops : Abort → ParserState → Prop}
    (h : set.Runs parser state returns
      fun abort final => set.Runs (handler abort) final returns stops) :
    set.Runs (tryCatch parser handler) state returns stops := by
  unfold Runs at h ⊢
  rw [tryCatch_apply]
  cases hrun : parser set.stream state with
  | mk result final =>
    rw [hrun] at h
    cases result <;> exact h

/-- A parser is left for another reason than a failure. -/
def Quits (set : Setting) (start : ParserState) (abort : Abort) (state : ParserState) : Prop :=
  abort ≠ .failed ∧ set.Stops start abort state

theorem Follows.note (h : set.Follows start state) {event : ParserEvent}
    (hsound : set.Sound start.log.muted state.log event) :
    set.Follows start { state with history := event :: state.history } where
  muted_eq := h.muted_eq
  reports := h.reports
  events := by
    obtain ⟨events, hevents, hall⟩ := h.events
    refine ⟨event :: events, by rw [hevents, List.cons_append], fun other hmem => ?_⟩
    rcases List.mem_cons.1 hmem with rfl | hmem
    · exact hsound
    · exact hall other hmem

/-- What has been reported since an earlier state. -/
theorem Follows.since (h : set.Follows start state) :
    state.log.diagnostics.toList =
      start.log.diagnostics.toList ++ state.log.since start.log ∧
      ∀ diagnostic ∈ state.log.since start.log,
        set.admits diagnostic ∧ diagnostic ∈ state.log.diagnostics := by
  obtain ⟨reported, hreported, hall⟩ := h.reports
  have hsince : state.log.since start.log = reported := by
    rw [Log.since, Log.count, Log.count, Array.toList_extract, hreported,
      ← Array.length_toList, ← Array.length_toList, hreported]
    simp
  rw [hsince]
  refine ⟨hreported, fun diagnostic hmem => ⟨hall diagnostic hmem, ?_⟩⟩
  rw [← Array.mem_toList_iff, hreported]
  exact List.mem_append_right _ hmem

theorem Runs.note {event : ParserEvent} {returns : Unit → ParserState → Prop}
    {stops : Abort → ParserState → Prop}
    (h : returns () { state with history := event :: state.history }) :
    set.Runs (note event) state returns stops := h

/-- A parser that fails is recovered from, and what it reported is noted. -/
theorem Reached.recover (h : set.Reached start moved inside state) {parser : Parser α}
    (hparser : set.Proceeds moved' parser state) {returns : Option α → ParserState → Prop}
    (hsome : ∀ answer final, set.Reached start (moved || moved') inside final →
      returns (some answer) final)
    (hnone : ∀ final, set.stream.Within state.position final.position → set.Follows start final →
      start.Settles final → returns none final) :
    set.Runs (recover parser) state returns (set.Quits start) := by
  refine .bind (.get (.tryCatch (.map (hparser.mono
    (fun answer final h' => hsome answer final (h.trans h')) fun abort final hstops => ?_))))
  cases abort with
  | failed =>
    refine .bind (.get (.bind (.note (.pure ?_))))
    obtain ⟨hreported, hall⟩ := hstops.follows.since
    refine hnone _ hstops.within
      (h.follows.trans (hstops.follows.note ⟨?_, fun hmuted => ⟨?_, hall⟩⟩))
      (h.settles.trans ((hstops.settles rfl).note (fun _ => rfl) fun _ => rfl))
    · exact Nat.le_of_eq hstops.follows.muted_eq.symm
    · -- a failure outside of attempts has made the log longer
      show final.log.since state.log ≠ []
      intro hnil
      have hcount := hstops.reports rfl (hstops.follows.muted_eq.symm.trans hmuted)
      have hsame := congrArg List.length hreported
      rw [hnil, List.append_nil, Array.length_toList, Array.length_toList] at hsame
      exact absurd hsame (Nat.ne_of_gt hcount)
  | tooDeep => exact .throw ⟨Abort.noConfusion, h.stops hstops⟩
  | overlongInteger digits => exact .throw ⟨Abort.noConfusion, h.stops hstops⟩
  | endless => exact .throw ⟨Abort.noConfusion, h.stops hstops⟩

/-! ### Attempts -/

/-- The log of an attempt is thrown away, and its history kept. -/
theorem Follows.rewind (h : set.Follows { state with log := state.log.mute } final) :
    set.Follows state { state with history := final.history } where
  muted_eq := rfl
  reports := ⟨[], by simp, fun _ hmem => by cases hmem⟩
  events := by
    obtain ⟨events, hevents, hsound⟩ := h.events
    refine ⟨events, hevents, fun event hmem => ?_⟩
    have hevent := hsound event hmem
    cases event with
    | abandoned failure =>
      -- it was muted at least once
      have hmuted : state.log.muted + 1 ≤ failure.muted := hevent.1
      exact ⟨Nat.le_of_succ_le hmuted, fun hzero => by omega⟩
    | skipped | entered | round | finished | cutShort => exact hevent

theorem Runs.put {saved : ParserState} {returns : PUnit → ParserState → Prop}
    {stops : Abort → ParserState → Prop} (h : returns () saved) :
    set.Runs (MonadStateOf.set saved) state returns stops := h

theorem Runs.rewind {saved : ParserState} {returns : Unit → ParserState → Prop}
    {stops : Abort → ParserState → Prop}
    (h : returns () { saved with history := state.history }) :
    set.Runs (rewind saved) state returns stops := h

/-- An attempt leaves the state as it is, but for the history. -/
theorem proceeds_speculate {attempt : Parser Bool} (hattempt : set.Obeys moved attempt)
    (hlt : state.position < set.stream.size) : set.Proceeds false (speculate attempt) state := by
  have hback : ∀ final, set.Follows { state with log := state.log.mute } final →
      ParserState.Settles { state with log := state.log.mute } final →
      set.Reached state false [] { state with history := final.history } :=
    fun final hfollows hsettles => {
      within := .refl hlt
      opened_eq := rfl
      follows := hfollows.rewind
      settles := hsettles
      progress := Bool.noConfusion }
  -- what is not a failure goes through the attempt, and takes only the history with it
  have hstill : ∀ {abort} final, abort ≠ .failed →
      set.Stops { state with log := state.log.mute } abort final →
      set.Stops state abort { state with history := final.history } :=
    fun final hne hstops => {
      within := .refl hlt
      follows := hstops.follows.rewind
      allowed := hstops.allowed
      settles := fun heq => absurd heq hne
      reports := fun heq => absurd heq hne }
  have hmuted : set.Proceeds moved attempt { state with log := state.log.mute } :=
    hattempt _ hlt
  refine .bind (.get (.bind (.put (.tryCatch (.bind ?_)))))
  refine hmuted.mono (fun verdict final h' => ?_) fun abort final hstops => ?_
  · exact .bind (.rewind (.pure (hback final h'.follows h'.settles)))
  · refine .bind (.rewind ?_)
    cases abort with
    | failed => exact .pure (hback final hstops.follows (hstops.settles rfl))
    | tooDeep => exact .throw (hstill final Abort.noConfusion hstops)
    | overlongInteger digits => exact .throw (hstill final Abort.noConfusion hstops)
    | endless => exact .throw (hstill final Abort.noConfusion hstops)

/-! ### Items -/

/-- An enclosure is a part of a stream: what closes it is due where it begins, and its level is the
number of delimiters around it. -/
structure IsPart (set : Setting) (within : Enclosure) : Prop where
  lt : within.first < set.stream.size
  opens : set.stream.Opens within.first within.closer
  level_eq : within.level = (set.stream.opened within.first).length

namespace IsPart

variable {within : Enclosure} {first last : Nat}

/-- What stays in an enclosure stays in front of its end. -/
theorem keeps (hpart : set.IsPart within) (hfirst : within.first ≤ first) (hle : first ≤ last)
    (hwithin : set.stream.Within within.first last) : within.Keeps set.stream first last := by
  obtain ⟨close, hcloses, hmax⟩ := set.balanced.exists_closes hpart.lt hpart.opens
  exact ⟨close, hcloses, hfirst, hle, hmax last hwithin⟩

/-- At the level of an enclosure, a token that could end one does end this one. -/
theorem closes (hpart : set.IsPart within) (hwithin : set.stream.Within within.first last)
    (hopened : set.stream.opened last = set.stream.opened within.first)
    (hend : set.stream.kind last = .endOfFile ∨ (set.stream.kind last).isCloser = true) :
    set.stream.Closes within.first within.closer last := by
  refine set.balanced.closes hpart.opens hwithin hopened ?_
  rcases hend with hend | hcloser
  · rw [hend, set.balanced.end_due hpart.opens hwithin hend]
  · exact set.balanced.closer_eq hpart.opens hwithin hopened hcloser

end IsPart

/-- A state between two items of an enclosure. -/
structure Between (set : Setting) (within : Enclosure) (state : ParserState) : Prop where
  stays : set.stream.Within within.first state.position
  opened_eq : set.stream.opened state.position = set.stream.opened within.first

theorem Between.lt {within : Enclosure} (h : set.Between within state) :
    state.position < set.stream.size :=
  h.stays.lt

theorem Reached.between {within : Enclosure} (h : set.Reached state moved [] final)
    (hbetween : set.Between within state) : set.Between within final where
  stays := hbetween.stays.trans h.within
  opened_eq := h.opened_eq.trans hbetween.opened_eq

/-- Between two states of one level nothing is left that was open at the first. -/
theorem Between.within_of_le {within : Enclosure} (hstate : set.Between within state)
    (hfinal : set.Between within final) (hle : state.position ≤ final.position) :
    set.stream.Within state.position final.position where
  le := hle
  lt := hfinal.lt
  suffix k hk hk' := by
    rw [hstate.opened_eq]
    exact hfinal.stays.suffix k (Nat.le_trans hstate.stays.le hk) hk'

/-- Skipping the rest of an item comes back to the level of the items. It goes forward unless the
failure was found where no item can begin. -/
theorem runs_synchronize {within : Enclosure} (hpart : set.IsPart within)
    (hwithin : set.stream.Within within.first state.position)
    {returns : Unit → ParserState → Prop} {stops : Abort → ParserState → Prop}
    (next : ∀ final, set.Between within final → state.position ≤ final.position →
      (final.position = state.position →
        set.stream.Closes within.first within.closer state.position) →
      set.Follows state final → state.Settles final → returns () final) :
    set.Runs (synchronize within) state returns stops := by
  obtain ⟨hstay, hle, hsame, hstill⟩ :=
    set.balanced.within_resumePosition within.commas hpart.level_eq hwithin
  refine .bind (.get (.bind (.read (.bind (.moveTo (.note ?_))))))
  refine next _ ⟨hstay, hsame⟩ hle (fun heq => ?_) ?_ ?_
  · have heq : set.stream.resumePosition within.level within.commas state.position =
        state.position := heq
    exact hpart.closes hwithin (heq ▸ hsame) ((hstill heq).imp_right And.left)
  · exact ((Follows.refl state).moveTo _).note (hpart.keeps hwithin.le hle hstay)
  · exact (ParserState.Settles.refl state).note (fun _ => rfl) fun _ => rfl

/-- The end of an item is only looked at. -/
theorem proceeds_endItem {within : Enclosure} {what : String}
    (hlt : state.position < set.stream.size) :
    set.Proceeds false (endItem within what) state := by
  have h : set.Reached state false [] state := .refl hlt
  refine .bind (.current (.ite (fun _ => .pure h) fun _ => ?_))
  exact h.unexpected

section

variable {within : Enclosure} {item : Parser α} {what : String} {answers : List α}

/-- An item is read or skipped. It does not matter which: both go forward and come back to the
level of the items. -/
theorem runs_readItem (hpart : set.IsPart within) (hitem : set.Proceeds true item state)
    (hbetween : set.Between within state)
    (hopen : ¬set.stream.Closes within.first within.closer state.position) :
    set.Runs (readItem item within what answers) state
      (fun _ final => set.Reached state true [] final) (set.Quits state) := by
  -- after a failure of the item, or of what should end it
  have hskipped : ∀ {middle}, set.stream.Within state.position middle.position →
      set.Follows state middle → state.Settles middle → ∀ {returns : Unit → ParserState → Prop},
      (∀ final, set.Reached state true [] final → returns () final) →
      set.Runs (synchronize within) middle returns (set.Quits state) := by
    intro middle hmiddle hfollows hsettles returns next
    refine runs_synchronize hpart (hbetween.stays.trans hmiddle)
      fun final hfinal hle hstill hfollows' hsettles' => next final ?_
    exact {
      within := hbetween.within_of_le hfinal (Nat.le_trans hmiddle.le hle)
      opened_eq := hfinal.opened_eq.trans hbetween.opened_eq.symm
      follows := hfollows.trans hfollows'
      settles := hsettles.trans hsettles'
      progress := fun _ => by
        rcases Nat.eq_or_lt_of_le (Nat.le_trans hmiddle.le hle) with heq | hlt
        · -- nothing was consumed, so an item would begin at the end of the enclosure
          have hsame : middle.position = state.position :=
            Nat.le_antisymm (by omega) hmiddle.le
          exact absurd (hsame ▸ hstill (by omega)) hopen
        · exact hlt }
  have h : set.Reached state false [] state := .refl hbetween.lt
  refine .bind (h.recover hitem (fun value middle hvalue => ?_) fun middle hmiddle hfollows
    hsettles => ?_)
  · refine .bind (hvalue.recover (proceeds_endItem hvalue.lt) (fun _ final hfinal => ?_)
      fun final hfinal hfollows hsettles => ?_)
    · exact .ite (fun hnone => nomatch hnone) fun _ => .pure hfinal
    · refine .ite (fun _ => ?_) fun hsome => absurd rfl hsome
      exact .bind (hskipped (hvalue.within.trans hfinal) hfollows hsettles
        fun final hfinal => .pure hfinal)
  · exact .bind (hskipped hmiddle hfollows hsettles fun final hfinal => .pure hfinal)

/-- Each round of a loop over items goes forward and stays in front of the end of the items. -/
theorem runs_nextItem (hpart : set.IsPart within) (hitem : set.Proceeds true item state)
    (hbetween : set.Between within state)
    (hopen : ¬set.stream.Closes within.first within.closer state.position) :
    set.Runs (nextItem item within what answers) state
      (fun _ final => set.Reached state true [] final) (set.Quits state) := by
  refine .bind (.get (.bind ?_))
  refine (runs_readItem hpart hitem hbetween hopen).mono (fun more middle hmiddle => ?_)
    fun _ _ hquits => hquits
  refine .bind (hmiddle.skipSeparators fun final hfinal => .bind (.get (.bind (.note (.pure ?_)))))
  have hend := hfinal.between hbetween
  exact { hfinal with
    follows := hfinal.follows.note
      ⟨hpart.keeps hbetween.stays.le hfinal.within.le hend.stays, hfinal.progress rfl⟩
    settles := hfinal.settles.note (fun _ => rfl) fun _ => rfl }

/-- Items are asked for until the end of the enclosure comes next. -/
theorem runs_startsItem (hpart : set.IsPart within) (hbetween : set.Between within state)
    {stops : Abort → ParserState → Prop} :
    set.Runs (startsItem within) state
      (fun more final => set.Reached state false [] final ∧
        if more = true then ¬set.stream.Closes within.first within.closer final.position
        else set.stream.Closes within.first within.closer final.position) stops := by
  refine .bind (.isAt (.bind (.isAt (.pure ⟨.refl hbetween.lt, ?_⟩))))
  split
  · next hmore =>
    intro hcloses
    rw [hcloses.kind_eq, beq_self_eq_true, Bool.true_or] at hmore
    cases hmore
  · next hdone =>
    refine set.balanced.closes hpart.opens hbetween.stays hbetween.opened_eq ?_
    simp only [Bool.not_eq_true, Bool.not_eq_false', Bool.or_eq_true, beq_iff_eq] at hdone
    rcases hdone with hcloser | hend
    · exact hcloser
    · rw [hend, set.balanced.end_due hpart.opens hbetween.stays hend]

/-- The rounds of a loop over items come to an end, and that is the end of the enclosure. -/
theorem runs_rounds_of_depth {depth : Nat} (hpart : set.IsPart within)
    (hdepth : (set.stream.opened within.first).length = depth)
    (hitem : set.ObeysAt depth true item) (hbetween : set.Between within state) :
    set.Runs (repeatWhile (startsItem within) (nextItem item within what) answers) state
      (fun _ final => set.Reached state false [] final ∧
        set.stream.Closes within.first within.closer final.position) (set.Quits state) := by
  have htest : ∀ later, set.Reached state false [] later →
      set.Runs (startsItem within) later
        (fun more final => set.Reached later false [] final ∧
          if more = true then ¬set.stream.Closes within.first within.closer final.position
          else set.stream.Closes within.first within.closer final.position) (set.Quits later) :=
    fun later hlater => runs_startsItem hpart (hlater.between hbetween)
  refine .bind (.read (runs_iterate set.Quits (fun h hquits => ⟨hquits.1, h.stops hquits.2⟩) htest
    (fun answers later hlater hopen => ?_) (.refl hbetween.lt) (Nat.le_add_right ..)))
  have hlevel := hlater.between hbetween
  exact runs_nextItem hpart (hitem later hlater.lt (by rw [hlevel.opened_eq, hdepth])) hlevel hopen

theorem runs_rounds (hpart : set.IsPart within) (hitem : set.Obeys true item)
    (hbetween : set.Between within state) :
    set.Runs (repeatWhile (startsItem within) (nextItem item within what) answers) state
      (fun _ final => set.Reached state false [] final ∧
        set.stream.Closes within.first within.closer final.position) (set.Quits state) :=
  runs_rounds_of_depth hpart rfl (hitem.at _) hbetween

theorem Runs.enclose {closer : TokenKind} {commas : Bool} {returns : Enclosure → ParserState → Prop}
    {stops : Abort → ParserState → Prop}
    (h : returns {
      first := state.position, level := set.stream.depth state.position, closer := closer,
      commas := commas } state) : set.Runs (enclose closer commas) state returns stops := h

/-- A loop over items reads or skips everything up to the token that closes them, and stops there.
It does not fail. -/
theorem runs_items_of_depth {closer : TokenKind} {commas : Bool} {depth : Nat}
    (hlt : state.position < set.stream.size)
    (hdepth : (set.stream.opened state.position).length = depth)
    (hopens : set.stream.Opens state.position closer) (hitem : set.ObeysAt depth true item) :
    set.Runs (items item closer commas what) state
      (fun _ final => set.Reached state false [] final ∧
        set.stream.Closes state.position closer final.position) (set.Quits state) := by
  have hpart : set.IsPart {
      first := state.position, level := set.stream.depth state.position, closer := closer,
      commas := commas } := ⟨hlt, hopens, set.balanced.depth_eq hlt⟩
  refine .bind (.enclose (.bind (.note ?_)))
  -- the rounds start in a state that differs from `state` by one event
  generalize hwithin : Enclosure.mk state.position (set.stream.depth state.position) closer commas =
    within at *
  have hfirst : within.first = state.position := by rw [← hwithin]
  have hcloser : within.closer = closer := by rw [← hwithin]
  generalize hentered : { state with history := .entered within :: state.history } = entered
  rw [← hcloser]
  have hposition : entered.position = state.position := by rw [← hentered]
  have hfollows : set.Follows state entered := by
    obtain ⟨close, hcloses, -⟩ := set.balanced.exists_closes hpart.lt hpart.opens
    rw [← hentered]
    exact (Follows.refl state).note ⟨close, hcloses⟩
  have hbegin : set.Between within entered := by
    refine ⟨?_, by rw [hposition, hfirst]⟩
    rw [hposition, hfirst]
    exact .refl hlt
  refine .bind ((Reached.refl hbegin.lt).skipSeparators fun middle hmiddle => ?_)
  refine .bind ((runs_rounds_of_depth hpart (by rw [hfirst, hdepth]) hitem
    (hmiddle.between hbegin)).mono
    (fun answers last ⟨hlast, hcloses⟩ => ?_) fun abort last ⟨hne, hstops⟩ => ?_)
  · have hreached := hmiddle.trans hlast
    refine .bind (.get (.bind (.note (.pure ⟨?_, hfirst ▸ hcloses⟩))))
    exact {
      within := hposition ▸ hreached.within
      opened_eq := by
        rw [← hposition]
        exact hreached.opened_eq
      follows := (hfollows.trans hreached.follows).note hcloses
      settles := ParserState.Settles.enclose (hentered ▸ hreached.settles) _
      progress := Bool.noConfusion }
  · have hstopped := hmiddle.stops hstops
    exact ⟨hne, {
      within := hposition ▸ hstopped.within
      follows := hfollows.trans hstopped.follows
      allowed := hstopped.allowed
      settles := fun heq => absurd heq hne
      reports := fun heq => absurd heq hne }⟩

theorem runs_items {closer : TokenKind} {commas : Bool} (hlt : state.position < set.stream.size)
    (hopens : set.stream.Opens state.position closer) (hitem : set.Obeys true item) :
    set.Runs (items item closer commas what) state
      (fun _ final => set.Reached state false [] final ∧
        set.stream.Closes state.position closer final.position) (set.Quits state) :=
  runs_items_of_depth hlt rfl hopens (hitem.at _)

end

/-- A loop over items as a part of a production: it is entered behind an opener and left in front
of the closer that belongs to it. -/
theorem Reached.items_of_depth (h : set.Reached start moved inside state) {depth : Nat}
    (hdepth : (set.stream.opened state.position).length = depth) {bracket : Bracket}
    (hopens : set.stream.Opens state.position (.closer bracket)) {item : Parser α}
    (hitem : set.ObeysAt depth true item) {commas : Bool} {what : String}
    {returns : List α → ParserState → Prop}
    (next : ∀ answers final, set.Reached start moved inside final →
      set.stream.kind final.position = .closer bracket → returns answers final) :
    set.Runs (items item (.closer bracket) commas what) state returns (set.Stops start) :=
  h.loop ((runs_items_of_depth h.lt hdepth hopens hitem).mono
    (fun _ _ ⟨hfinal, hcloses⟩ => ⟨hfinal, hcloses.kind_eq⟩) fun _ _ hquits => hquits.2) next

theorem Reached.items (h : set.Reached start moved inside state) {bracket : Bracket}
    (hopens : set.stream.Opens state.position (.closer bracket)) {item : Parser α}
    (hitem : set.Obeys true item) {commas : Bool} {what : String}
    {returns : List α → ParserState → Prop}
    (next : ∀ answers final, set.Reached start moved inside final →
      set.stream.kind final.position = .closer bracket → returns answers final) :
    set.Runs (items item (.closer bracket) commas what) state returns (set.Stops start) :=
  h.items_of_depth rfl hopens (hitem.at _) next

end Setting

end SableFrontend
