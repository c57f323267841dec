import SableFrontend.Proofs.Parallel.Source
import SableFrontend.Proofs.Tree.Lawful

/-!
The rounds of the loop over the items of a module. Reading a module is opening it, taking rounds, and
finishing its declarations (`Parser.moduleSource_apply`). A round tries an item and skips what is left
of it if it has not ended where it should (`Parser.settle`), so a run of the loop can be taken apart at
any of its rounds (`Parser.Rounds`), and each of them can be followed on another stream
(`attemptItem`).
-/

namespace SableFrontend

open TokenStream Parser Setting

variable {α β : Type}

/-! ### Settling -/

/-- What lies around a whole source. -/
structure Enclosure.IsOutermost (within : Enclosure) : Prop where
  level_eq : within.level = 0
  closer_eq : within.closer = .endOfFile
  commas_eq : within.commas = false

/-- What lies around a whole source, seen from its first token. -/
def Enclosure.outermost : Enclosure :=
  { first := 0, level := 0, closer := .endOfFile, commas := false }

theorem Enclosure.isOutermost_outermost : outermost.IsOutermost := ⟨rfl, rfl, rfl⟩

/-- A part of a source that is tried, and skipped if it has not ended where it should. -/
def Parser.settle (within : Enclosure) (attempt : Parser (Bool × β)) : Parser β := do
  let (ended, answer) ← attempt
  if !ended then synchronize within
  return answer

theorem Parser.settle_apply (within : Enclosure) (attempt : Parser (Bool × β))
    (stream : TokenStream) (state : ParserState) :
    settle within attempt stream state =
      match attempt stream state with
      | (.ok (true, answer), middle) => (.ok answer, middle)
      | (.ok (false, answer), middle) =>
        let stop := stream.resumePosition within.level within.commas middle.position
        (.ok answer, { middle with
          position := stop
          history := .skipped within middle.position stop :: middle.history })
      | (.error abort, middle) => (.error abort, middle) := by
  rw [settle, bind_apply]
  cases attempt stream state with
  | mk result middle =>
    cases result with
    | error abort => rfl
    | ok answer =>
      obtain ⟨ended, answer⟩ := answer
      cases ended <;> rfl

/-- An item in front of those already read, and whether it has ended where it should. -/
def Parser.attemptItem (item : Parser α) (within : Enclosure) (what : String) (items : List α) :
    Parser (Bool × List α) := do
  match ← recover item with
  | none => return (false, items)
  | some value =>
    let ended ← recover (endItem within what)
    return (ended.isSome, value :: items)

/-- The name of a module, if it could be read. -/
def Parser.attemptHeader : Parser (Bool × Option String) := do
  let name ← recover moduleHeader
  return (name.isSome, name)

theorem Parser.readItem_eq (item : Parser α) (within : Enclosure) (what : String)
    (items : List α) :
    readItem item within what items = settle within (attemptItem item within what items) := by
  unfold readItem settle attemptItem
  rw [bind_assoc]
  refine bind_congr fun value? => ?_
  cases value? with
  | none => simp
  | some value =>
    simp only [bind_assoc, pure_bind]
    refine bind_congr fun ended => ?_
    cases ended <;> rfl

theorem Parser.startsItem_apply (within : Enclosure) (stream : TokenStream)
    (state : ParserState) :
    startsItem within stream state = (.ok (!(stream.kind state.position == within.closer ||
      stream.kind state.position == .endOfFile)), state) := rfl

theorem Parser.nextItem_apply (item : Parser α) (within : Enclosure) (what : String)
    (items : List α) (stream : TokenStream) (state : ParserState) :
    nextItem item within what items stream state =
      match settle within (attemptItem item within what items) stream state with
      | (.ok more, middle) =>
        let stop := stream.skipWhile (·.separates within.commas) middle.position
        (.ok more, { middle with
          position := stop
          history := .round within state.position stop :: middle.history })
      | (.error abort, middle) => (.error abort, middle) := by
  rw [← readItem_eq]
  show ((readItem item within what items >>= fun more => _ : Parser (List α))) stream state = _
  rw [bind_apply]
  cases readItem item within what items stream state with
  | mk result middle => cases result <;> rfl

theorem Parser.optionalHeader_eq : optionalHeader = (do
    if ← isAt (.keyword .moduleWord) then settle .outermost attemptHeader else return none) := by
  unfold optionalHeader settle attemptHeader
  refine bind_congr fun header => ?_
  cases header with
  | false => rfl
  | true =>
    simp only [if_true, bind_assoc, pure_bind]
    refine bind_congr fun name => ?_
    cases name <;> rfl

theorem Parser.optionalHeader_apply (stream : TokenStream) (state : ParserState) :
    optionalHeader stream state =
      if stream.kind state.position = .keyword .moduleWord then
        settle .outermost attemptHeader stream state
      else (.ok none, state) := by
  rw [optionalHeader_eq]
  show (if stream.kind state.position == .keyword .moduleWord then settle .outermost attemptHeader
    else pure none : Parser (Option String)) stream state = _
  by_cases hkind : stream.kind state.position = .keyword .moduleWord
  · rw [if_pos (beq_iff_eq.2 hkind), if_pos hkind]
  · rw [if_neg (mt beq_iff_eq.1 hkind), if_neg hkind]
    rfl

/-- What is read of a module in front of its first item: its header, if there is one, and the
separators around it. -/
def Parser.moduleOpening : Parser (Option String × Enclosure) := do
  skipSeparators false
  let name ← optionalHeader
  let within ← enclose .endOfFile false
  note (.entered within)
  skipSeparators false
  return (name, within)

/-- The declarations of a module, of which items have been read already. -/
def Parser.moduleRest (within : Enclosure) (count : Nat) (answers : List (List Statement)) :
    Parser (List Declaration) := do
  let reversed ← repeatWhile.iterate (startsItem within) (nextItem moduleItem within "declaration")
    count answers
  note (.finished within (← get).position)
  finishDeclarations reversed.reverse

theorem Parser.moduleSource_eq_rest : moduleSource = (do
    let start ← current
    let (name, within) ← moduleOpening
    let declarations ← moduleRest within (← read).size []
    finishModule start.span name declarations) := by
  rw [moduleSource_eq]
  unfold moduleOpening items moduleRest repeatWhile
  simp only [bind_assoc, pure_bind]

/-- What reading a module comes to, in terms of its beginning and its declarations. -/
theorem Parser.moduleSource_apply (stream : TokenStream) :
    moduleSource stream .initial =
      match moduleOpening stream .initial with
      | (.ok (name, within), middle) =>
        match moduleRest within stream.size [] stream middle with
        | (.ok declarations, final) =>
          (.ok {
            name := name, declarations := declarations
            span := (stream.token 0).span.join (stream.token final.position).span }, final)
        | (.error abort, final) => (.error abort, final)
      | (.error abort, middle) => (.error abort, middle) := by
  rw [moduleSource_eq_rest]
  show (moduleOpening >>= fun opening => _ : Parser Module) stream .initial = _
  rw [bind_apply]
  cases moduleOpening stream .initial with
  | mk result middle =>
    cases result with
    | error abort => rfl
    | ok opening =>
      obtain ⟨name, within⟩ := opening
      show (moduleRest within stream.size [] >>= fun declarations => _ : Parser Module) stream
        middle = _
      rw [bind_apply]
      dsimp only
      cases moduleRest within stream.size [] stream middle with
      | mk result final => cases result <;> rfl

/-- A test of what the opening of a module comes to, for a stream at hand. -/
def Parser.opensWith (stream : TokenStream)
    (test : Option String → Enclosure → ParserState → Bool) : Bool :=
  match moduleOpening stream .initial with
  | (.ok (name, within), first) => test name within first
  | _ => false

theorem Parser.exists_of_opensWith {stream : TokenStream}
    {test : Option String → Enclosure → ParserState → Bool} (h : opensWith stream test = true) :
    ∃ name within first, moduleOpening stream .initial = (.ok (name, within), first) ∧
      test name within first = true := by
  unfold opensWith at h
  split at h
  · next name within first hopening => exact ⟨name, within, first, hopening, h⟩
  · cases h

/-- Separators are skipped, and nothing else changes. -/
def ParserState.skip (state : ParserState) (stream : TokenStream) : ParserState :=
  { state with position := stream.skipWhile (·.separates false) state.position }

theorem Setting.Reached.skip {set : Setting} {start state : ParserState} {moved : Bool}
    {inside : List Bracket} (h : set.Reached start moved inside state) :
    set.Reached start moved inside (state.skip set.stream) :=
  show set.Runs (Parser.skipSeparators false) state
    (fun _ final => set.Reached start moved inside final) fun _ _ => True from
  h.skipSeparators fun _ hfinal => hfinal

theorem Parser.moduleOpening_apply (stream : TokenStream) :
    moduleOpening stream .initial =
      match optionalHeader stream (ParserState.initial.skip stream) with
      | (.ok name, middle) =>
        let within : Enclosure := {
          first := middle.position, level := stream.depth middle.position, closer := .endOfFile,
          commas := false }
        (.ok (name, within),
          ParserState.skip { middle with history := .entered within :: middle.history } stream)
      | (.error abort, middle) => (.error abort, middle) := by
  show (optionalHeader >>= fun name => _ : Parser (Option String × Enclosure)) stream
    (ParserState.initial.skip stream) = _
  rw [bind_apply]
  cases optionalHeader stream (ParserState.initial.skip stream) with
  | mk result middle => cases result <;> rfl

/-- The beginning of a module leads to its first item, or to the end. -/
theorem Setting.runs_moduleOpening {set : Setting} :
    set.Runs moduleOpening .initial
      (fun result final => result.2.IsOutermost ∧ set.IsPart result.2 ∧
        set.Between result.2 final ∧ set.stream.opened result.2.first = [] ∧
        final.log.muted = 0) (set.Quits .initial) := by
  have h : set.Reached .initial false [] .initial := .refl set.stream.size_pos
  refine .bind (h.skipSeparators fun s₁ h₁ => ?_)
  refine .bind (h₁.optionalHeader fun name s₂ h₂ => .bind (.enclose (.bind (.note ?_))))
  have hopened : set.stream.opened s₂.position = [] := h₂.opened_eq.trans set.stream.opened_zero
  have hdepth : set.stream.depth s₂.position = 0 := by
    rw [set.balanced.depth_eq h₂.lt, hopened]
    rfl
  refine .bind (Reached.skipSeparators (.refl ?_) fun s₃ h₃ => .pure ?_)
  · exact h₂.lt
  refine ⟨⟨hdepth, rfl, rfl⟩, ?_, ?_, hopened, ?_⟩
  · exact ⟨h₂.lt, h₂.opens_source, set.balanced.depth_eq h₂.lt⟩
  · exact h₃.between ⟨.refl h₂.lt, rfl⟩
  · exact h₃.follows.muted_eq.trans h₂.follows.muted_eq

/-- Rounds of a loop over items, from one state to another, each of which goes forward. -/
inductive Parser.Rounds (stream : TokenStream) (item : Parser α) (within : Enclosure)
    (what : String) : List α → ParserState → List α → ParserState → Prop
  | refl (answers : List α) (state : ParserState) :
    Rounds stream item within what answers state answers state
  | head {answers more most : List α} {state middle final : ParserState}
    (hstarts : startsItem within stream state = (.ok true, state))
    (hnext : nextItem item within what answers stream state = (.ok more, middle))
    (hlt : state.position < middle.position)
    (hrest : Rounds stream item within what more middle most final) :
    Rounds stream item within what answers state most final

/-- Rounds are a part of the loop. -/
theorem Parser.Rounds.iterate {stream : TokenStream} {item : Parser α} {within : Enclosure}
    {what : String} {answers more : List α} {state final : ParserState}
    (h : Rounds stream item within what answers state more final) :
    ∃ taken, state.position + taken ≤ final.position ∧ ∀ count,
      repeatWhile.iterate (startsItem within) (nextItem item within what) (taken + count) answers
          stream state =
        repeatWhile.iterate (startsItem within) (nextItem item within what) count more stream
          final := by
  induction h with
  | refl => exact ⟨0, Nat.le_refl _, fun count => by rw [Nat.zero_add]⟩
  | head hstarts hnext hlt _ ih =>
    obtain ⟨taken, hle, hrest⟩ := ih
    refine ⟨taken + 1, by omega, fun count => ?_⟩
    rw [← hrest count, show taken + 1 + count = (taken + count) + 1 by omega,
      repeatWhile.iterate, bind_apply, hstarts]
    show (nextItem item within what _ >>= fun value => _ : Parser (List α)) stream _ = _
    rw [bind_apply, hnext]

/-- The declarations of a module after some rounds. -/
theorem Parser.Rounds.moduleRest_eq {stream : TokenStream} {within : Enclosure}
    {answers more : List (List Statement)} {state final : ParserState}
    (h : Rounds stream moduleItem within "declaration" answers state more final) :
    ∃ taken, state.position + taken ≤ final.position ∧ ∀ count,
      moduleRest within (taken + count) answers stream state =
        moduleRest within count more stream final := by
  obtain ⟨taken, hle, hrest⟩ := h.iterate
  refine ⟨taken, hle, fun count => ?_⟩
  unfold moduleRest
  rw [bind_apply, bind_apply, hrest]

theorem Parser.Rounds.trans {stream : TokenStream} {item : Parser α} {within : Enclosure}
    {what : String} {answers more most : List α} {state middle final : ParserState}
    (h : Rounds stream item within what answers state more middle)
    (h' : Rounds stream item within what more middle most final) :
    Rounds stream item within what answers state most final := by
  induction h with
  | refl => exact h'
  | head hstarts hnext hlt _ ih => exact .head hstarts hnext hlt (ih h')

/-- An item may end at a token of a kind. -/
def Enclosure.endsItem (within : Enclosure) (kind : TokenKind) : Bool :=
  kind == within.closer || kind.separates within.commas

/-- The closer of a pair does not end an item at the outside. -/
theorem Enclosure.IsOutermost.not_closer {within : Enclosure} (h : within.IsOutermost)
    {kind : TokenKind} (hends : within.endsItem kind = true) : kind.isCloser = false := by
  rw [endsItem, h.closer_eq, h.commas_eq] at hends
  cases kind <;> first | rfl | cases hends

/-- Where an item ends at the outside, any item may end. -/
theorem Enclosure.IsOutermost.boundary {within : Enclosure} (h : within.IsOutermost)
    {kind : TokenKind} (hends : within.endsItem kind = true) : kind.isBoundary = true := by
  rw [endsItem, h.closer_eq, h.commas_eq] at hends
  cases kind <;> first | rfl | cases hends

/-- Whether an item has ended is only looked at. -/
theorem Setting.runs_recover_endItem {set : Setting} {within : Enclosure} {what : String}
    {state : ParserState} :
    set.Runs (recover (endItem within what)) state
      (fun ended final => final.position = state.position ∧
        ended.isSome = within.endsItem (set.stream.kind state.position)) fun _ _ => False := by
  refine .bind (.get (.tryCatch (.map (.bind (.current (.ite (fun hends => ?_) fun hends => ?_))))))
  · exact .pure ⟨rfl, hends.symm⟩
  · refine .bind (.current (.bind (.report (.throw ?_))))
    exact .bind (.get (.bind (.note (.pure ⟨rfl, (Bool.not_eq_true _ ▸ hends).symm⟩))))

/-- Where an attempt at a part of a source has come to, and whether it has ended as it should. If it
has not, something has been reported. -/
structure Setting.Attempted (set : Setting) (within : Enclosure) (state : ParserState)
    (ended : Bool) (middle : ParserState) : Prop where
  stays : set.stream.Within state.position middle.position
  ends : ended = true → set.stream.opened middle.position = set.stream.opened state.position ∧
    within.endsItem (set.stream.kind middle.position) = true
  reports : ended = false → state.log.muted = 0 → state.log.count < middle.log.count

section

variable {set : Setting} {state : ParserState} {moved : Bool} {within : Enclosure} {what : String}

theorem Setting.runs_always {parser : Parser α} {returns : α → ParserState → Prop}
    {stops : Abort → ParserState → Prop} (h : ∀ answer final, returns answer final)
    (h' : ∀ abort final, stops abort final) : set.Runs parser state returns stops := by
  unfold Runs
  split
  · exact h _ _
  · exact h' _ _

/-- What is recovered from has been reported. -/
theorem Setting.runs_recover {parser : Parser α} (h : set.Proceeds moved parser state) :
    set.Runs (recover parser) state
      (fun value? middle => set.stream.Within state.position middle.position ∧
        state.log.muted = middle.log.muted ∧ state.log.count ≤ middle.log.count ∧
        (value?.isSome = true →
          set.stream.opened middle.position = set.stream.opened state.position) ∧
        (value? = none → state.log.muted = 0 → state.log.count < middle.log.count))
      fun _ _ => True := by
  refine .bind (.get (.tryCatch (.map (h.mono (fun value middle hmiddle => ?_)
    fun abort middle hstops => ?_))))
  · exact ⟨hmiddle.within, hmiddle.follows.muted_eq.symm, hmiddle.follows.count_le,
      fun _ => hmiddle.opened_eq, fun hnone => nomatch hnone⟩
  · cases abort with
    | failed =>
      exact .bind (.get (.bind (.note (.pure ⟨hstops.within, hstops.follows.muted_eq.symm,
        hstops.follows.count_le, fun hsome => (nomatch hsome), fun _ => hstops.reports rfl⟩))))
    | _ => exact .throw trivial

theorem Setting.runs_attemptItem {item : Parser α} {answers : List α}
    (hitem : set.Proceeds moved item state) :
    set.Runs (attemptItem item within what answers) state
      (fun result middle => set.Attempted within state result.1 middle) fun _ _ => True := by
  refine .bind ((runs_recover hitem).mono (fun value? middle ⟨hstays, hmuted, hcount, hopened,
    hreports⟩ => ?_) fun _ _ _ => trivial)
  cases value? with
  | none => exact .pure ⟨hstays, fun hended => (nomatch hended), fun _ => hreports rfl⟩
  | some value =>
    have hend : set.Runs (recover (endItem within what)) middle _ _ :=
      (runs_recover (proceeds_endItem hstays.lt)).and runs_recover_endItem
    refine .bind (hend.mono (fun ended last ⟨⟨hstays', _, hcount', _, hreports'⟩, hplace,
      hends⟩ => .pure ?_) fun _ _ _ => trivial)
    refine ⟨hstays.trans hstays', fun hended => ?_, fun hended hzero => ?_⟩
    · rw [hplace]
      exact ⟨hopened rfl, hends.symm.trans hended⟩
    · refine Nat.lt_of_le_of_lt hcount (hreports' ?_ (hmuted ▸ hzero))
      simpa using hended

/-- An attempt puts at most one item in front of the others. -/
theorem Parser.attemptItem_suffix {item : Parser α} {answers : List α} {stream : TokenStream}
    {result : Bool × List α} {middle : ParserState}
    (h : attemptItem item within what answers stream state = (.ok result, middle)) :
    result = (false, answers) ∨ ∃ ended value, result = (ended, value :: answers) := by
  rw [attemptItem, bind_apply] at h
  split at h
  · next value? _ _ =>
    cases value? with
    | none =>
      obtain ⟨hresult, -⟩ := Prod.mk.inj h
      injection hresult with hresult
      exact Or.inl hresult.symm
    | some value =>
      replace h : (recover (endItem within what) >>= fun ended =>
        pure (ended.isSome, value :: answers) : Parser (Bool × List α)) stream _ = _ := h
      rw [bind_apply] at h
      split at h
      · obtain ⟨hresult, -⟩ := Prod.mk.inj h
        injection hresult with hresult
        exact Or.inr ⟨_, value, hresult.symm⟩
      · cases h
  · cases h

/-- A header ends in front of a separator, or with the source. -/
theorem Setting.runs_attemptHeader (hlt : state.position < set.stream.size)
    (hkind : set.stream.kind state.position = .keyword .moduleWord)
    (hwithin : within.IsOutermost) :
    set.Runs attemptHeader state
      (fun result middle => set.Attempted within state result.1 middle) fun _ _ => True := by
  have hends : set.Runs moduleHeader state
      (fun _ final => within.endsItem (set.stream.kind final.position) = true) fun _ _ => True := by
    refine .bind (runs_always (fun _ _ => ?_) fun _ _ => trivial)
    refine .bind (runs_always (fun _ _ => ?_) fun _ _ => trivial)
    refine .bind (runs_always (fun _ s => ?_) fun _ _ => trivial)
    refine .bind (.current (.ite (fun _ => .bind ?_) fun hend => .pure ?_))
    · exact .bind (.current (.bind (.report (.throw trivial))))
    · rw [Enclosure.endsItem, hwithin.closer_eq, hwithin.commas_eq, TokenKind.separates, Bool.false_and, Bool.or_false,
        Bool.or_comm]
      exact Bool.not_eq_false _ ▸ fun hnot => hend (by rw [← Bool.not_false, ← hnot]; rfl)
  have hrecover : set.Runs (recover moduleHeader) state
      (fun name middle => name.isSome = true →
        within.endsItem (set.stream.kind middle.position) = true) fun _ _ => True := by
    refine .bind (.get (.tryCatch (.map (hends.mono (fun _ _ hend _ => hend) fun abort _ _ => ?_))))
    cases abort with
    | failed => exact .bind (.get (.bind (.note (.pure Bool.noConfusion))))
    | _ => exact .throw trivial
  refine .bind (((runs_recover (proceeds_moduleHeader hlt hkind)).and hrecover).mono
    (fun name middle hread => .pure ?_) fun _ _ _ => trivial)
  obtain ⟨⟨hstays, -, -, hopened, hreports⟩, hend⟩ := hread
  exact ⟨hstays, fun hsome => ⟨hopened hsome, hend hsome⟩, fun hnone => hreports (by simpa using hnone)⟩

/-- What is answered of an attempt is what it has answered. -/
theorem Parser.exists_of_settle {attempt : Parser (Bool × β)} {stream : TokenStream} {answer : β}
    {final : ParserState} (h : settle within attempt stream state = (.ok answer, final)) :
    ∃ ended middle, attempt stream state = (.ok (ended, answer), middle) ∧
      middle.position ≤ final.position := by
  rw [settle_apply] at h
  cases hrun : attempt stream state with
  | mk result middle =>
    rw [hrun] at h
    cases result with
    | error abort => cases h
    | ok result =>
      obtain ⟨ended, value⟩ := result
      cases ended with
      | true =>
        obtain ⟨hvalue, rfl⟩ := Prod.mk.inj h
        injection hvalue with hvalue
        exact ⟨true, middle, hvalue ▸ rfl, Nat.le_refl _⟩
      | false =>
        obtain ⟨hvalue, rfl⟩ := Prod.mk.inj h
        injection hvalue with hvalue
        exact ⟨false, middle, hvalue ▸ rfl, le_resumePosition ..⟩

theorem Parser.nextItem_suffix {item : Parser α} {answers more : List α} {stream : TokenStream}
    {middle : ParserState}
    (h : nextItem item within what answers stream state = (.ok more, middle)) :
    answers <:+ more := by
  rw [nextItem_apply] at h
  cases hsettle : settle within (attemptItem item within what answers) stream state with
  | mk result last =>
    rw [hsettle] at h
    cases result with
    | error abort => cases h
    | ok kept =>
      obtain ⟨hkept, -⟩ := Prod.mk.inj h
      injection hkept with hkept
      obtain ⟨ended, _, hrun, -⟩ := exists_of_settle hsettle
      rcases attemptItem_suffix hrun with heq | ⟨_, value, heq⟩
      · exact (hkept.symm.trans (Prod.mk.inj heq).2) ▸ List.suffix_rfl
      · exact (hkept.symm.trans (Prod.mk.inj heq).2) ▸ List.suffix_cons ..

/-- Where a round begins, what surrounds the items does not end. -/
theorem Setting.not_closes_of_startsItem (hpart : set.IsPart within)
    (hbetween : set.Between within state)
    (hstarts : startsItem within set.stream state = (.ok true, state)) :
    ¬set.stream.Closes within.first within.closer state.position := by
  have hrun : set.Runs _ _ _ fun _ _ => True := runs_startsItem hpart hbetween
  unfold Runs at hrun
  rw [hstarts] at hrun
  exact hrun.2

theorem Setting.reached_of_nextItem {item : Parser α} {answers more : List α}
    {final : ParserState} (hpart : set.IsPart within) (hitem : set.Obeys true item)
    (hbetween : set.Between within state)
    (hstarts : startsItem within set.stream state = (.ok true, state))
    (hnext : nextItem item within what answers set.stream state = (.ok more, final)) :
    set.Reached state true [] final := by
  have hrun : set.Runs (nextItem item within what answers) state _ _ :=
    runs_nextItem hpart (hitem state hbetween.lt) hbetween
      (not_closes_of_startsItem hpart hbetween hstarts)
  unfold Runs at hrun
  rw [hnext] at hrun
  exact hrun

/-- Rounds on a balanced stream keep to the rules, and add items in front of the others. -/
theorem Setting.reached_of_rounds {item : Parser α} {answers more : List α} {final : ParserState}
    (hpart : set.IsPart within) (hitem : set.Obeys true item)
    (h : Rounds set.stream item within what answers state more final)
    (hbetween : set.Between within state) :
    set.Reached state false [] final ∧ answers <:+ more := by
  induction h with
  | refl => exact ⟨.refl hbetween.lt, List.suffix_rfl⟩
  | head hstarts hnext hlt _ ih =>
    have hmiddle := reached_of_nextItem hpart hitem hbetween hstarts hnext
    obtain ⟨hfinal, hsuffix⟩ := ih (hmiddle.between hbetween)
    exact ⟨(hmiddle.trans hfinal).weaken, (nextItem_suffix hnext).trans hsuffix⟩

/-- A loop over items is made of rounds. -/
theorem Setting.rounds_of_iterate {item : Parser α} {answers more : List α} {final : ParserState}
    (hpart : set.IsPart within) (hitem : set.Obeys true item) {count : Nat}
    (hbetween : set.Between within state)
    (h : repeatWhile.iterate (startsItem within) (nextItem item within what) count answers
      set.stream state = (.ok more, final)) :
    Rounds set.stream item within what answers state more final ∧
      startsItem within set.stream final = (.ok false, final) := by
  have hlooks : ∀ s, ∃ verdict, startsItem within set.stream s = (.ok verdict, s) :=
    fun s => ⟨_, rfl⟩
  induction count generalizing answers state with
  | zero => cases h
  | succ count ih =>
    obtain ⟨verdict, hverdict⟩ := hlooks state
    rw [repeatWhile.iterate, bind_apply, hverdict] at h
    cases verdict with
    | false =>
      obtain ⟨hmore, rfl⟩ := Prod.mk.inj h
      injection hmore with hmore
      exact ⟨hmore ▸ .refl answers state, hverdict⟩
    | true =>
      replace h : (nextItem item within what answers >>= fun value =>
        repeatWhile.iterate (startsItem within) (nextItem item within what) count value :
          Parser (List α)) set.stream state = _ := h
      rw [bind_apply] at h
      split at h
      · next value middle hnext =>
        have hmiddle := reached_of_nextItem hpart hitem hbetween hverdict hnext
        obtain ⟨hrest, hend⟩ := ih (hmiddle.between hbetween) h
        exact ⟨.head hverdict hnext (hmiddle.progress rfl) hrest, hend⟩
      · cases h

end

namespace Parallel

variable {set : Setting} {P : Parallel set} {state right final : ParserState} [Relocatable α]
  [Relocatable β]

/-- The rest of a module on two streams with nothing behind. -/
theorem agrees_moduleRest (hwarns : set.Warns) (hdeep : set.allows .tooDeep)
    {within within' : Enclosure} {count count' : Nat} {answers : List (List Statement)}
    (hpart : set.IsPart within) (hbetween : set.Between within state) (hloud : Loud true state)
    (hcloser : within'.closer = within.closer) (hcommas : within'.commas = within.commas)
    (hlevel : within'.level = within.level + P.lift) (hfinal : P.final = true)
    (hend : set.stream.kind P.stop = .endOfFile)
    (hcount : set.stream.size ≤ count + state.position)
    (hcount' : P.stop < count' + state.position) :
    P.Agrees never (moduleRest within count answers)
      (moduleRest within' count' (P.relocation.move answers)) state := by
  refine .bind_always (.rounds hpart (obeys_moduleItem hwarns hdeep)
    (mirrorsInside_moduleItem hwarns hdeep) hloud hbetween hcloser hcommas hlevel (Or.inl hend)
    (Or.inl hfinal) hcount hcount') fun reversed s₁ => ?_
  refine .bind_get fun _ => .bind_always .note fun _ s₂ => ?_
  have hreverse : P.relocation.move reversed.reverse = (P.relocation.move reversed).reverse :=
    List.map_reverse
  rw [← hreverse]
  exact agrees_finishDeclarations

/-- Attempts at an item of which nothing is claimed: the item itself is waived, or the attempt did not
end as it should and the streams may differ where it stopped. -/
def Spoilt (P : Parallel set) (waived : α → Nat → Prop) (answers : List α)
    (answer : Bool × List α) (final : ParserState) : Prop :=
  (∃ value, answer.2 = value :: answers ∧ waived value final.position) ∨
    answer.1 = false ∧ P.exact = false

namespace Agrees

/-- Nothing needs to be known of the state in between. -/
theorem bind_each {waived : α → ParserState → Prop} {waived' : β → ParserState → Prop}
    {parser other : Parser α} {next next' : α → Parser β} (h : P.Agrees waived parser other state)
    (hnext : ∀ answer final,
      P.Agrees waived' (next answer) (next' (P.relocation.move answer)) final ∧
        (waived answer final → ¬P.Seen waived' (next answer set.stream final))) :
    P.Agrees waived' (parser >>= next) (other >>= next') state := by
  have hruns : set.Runs parser state
      (fun answer final =>
        P.Agrees waived' (next answer) (next' (P.relocation.move answer)) final ∧
          (waived answer final → ¬P.Seen waived' (next answer set.stream final)))
      fun _ _ => True := by
    unfold Setting.Runs
    split
    · exact hnext _ _
    · trivial
  exact bind_waived h hruns

theorem map_waived {waived : α → ParserState → Prop} {waived' : β → ParserState → Prop}
    {parser other : Parser α} {function function' : α → β} (h : P.Agrees waived parser other state)
    (hfunction : ∀ answer, P.relocation.move (function answer) =
      function' (P.relocation.move answer))
    (hwaived : ∀ answer final, waived answer final → waived' (function answer) final) :
    P.Agrees waived' (function <$> parser) (function' <$> other) state := by
  have hbind : ∀ (function : α → β) (parser : Parser α), function <$> parser =
      parser >>= fun answer => Pure.pure (function answer) := fun _ _ => rfl
  rw [hbind, hbind]
  exact bind_each h fun answer final =>
    ⟨pure (hfunction _), fun h hseen => hseen.2 (hwaived answer final h)⟩

/-- A failure that is recovered from may only be followed where the token there is the same. -/
theorem recover_waived {waived : α → ParserState → Prop} {parser other : Parser α}
    (h : P.Agrees waived parser other state) :
    P.Agrees
      (fun answer final => match answer with
        | some value => waived value final
        | none => P.exact = false)
      (Parser.recover parser) (Parser.recover other) state := by
  refine .bind_get fun before => .tryCatch (.map_waived h (fun _ => rfl) fun _ _ hwaived => hwaived) ?_
  unfold Setting.Runs
  split
  · trivial
  · next abort final _ =>
    cases abort with
    | failed =>
      refine ⟨.bind_get fun after => .step .note (.note (.pure rfl)), fun hseen => Or.inl ?_⟩
      exact Bool.not_eq_false _ ▸ hseen.2
    | _ => exact ⟨.throw, fun hseen => hseen.2⟩

/-- An item ends where the stretch ends, if it may end at either token there. -/
theorem endItem_stop {waived : Unit → ParserState → Prop} {within within' : Enclosure}
    {what : String} (hcloser : within'.closer = within.closer)
    (hcommas : within'.commas = within.commas)
    (hends : P.exact = true ∨ within.endsItem (set.stream.kind P.stop) = true ∧
      within.endsItem (P.other.kind (P.place P.stop)) = true) :
    P.Agrees waived (Parser.endItem within what) (Parser.endItem within' what) state := by
  have hsame : Parser.endItem within' what = Parser.endItem within what := by
    unfold Parser.endItem itemEnds
    rw [hcloser, hcommas]
  rw [hsame]
  refine .bind_current_stop (.ite (fun _ => .pure rfl) fun _ => .unexpected)
    fun hexact hstop => ?_
  obtain ⟨hleft, hright⟩ := hends.resolve_left (Bool.not_eq_true _ ▸ hexact)
  exact .ite_iff (iff_of_true (hstop ▸ hleft) hright) (fun _ => .pure rfl)
    fun hnot => absurd (hstop ▸ hleft) hnot

section

variable {within within' : Enclosure} {what : String} {item : Parser α} {answers : List α}
  {waived : α → Nat → Prop}

/-- An item that fails, or does not end where it should, may only be followed where the streams are
the same up to the end. -/
theorem attemptItem
    (hitem : P.Agrees (fun answer final => waived answer final.position) item item state)
    (hcloser : within'.closer = within.closer) (hcommas : within'.commas = within.commas)
    (hends : P.exact = true ∨ within.endsItem (set.stream.kind P.stop) = true ∧
      within.endsItem (P.other.kind (P.place P.stop)) = true) :
    P.Agrees (P.Spoilt waived answers) (Parser.attemptItem item within what answers)
      (Parser.attemptItem item within' what (P.relocation.move answers)) state := by
  refine .bind_each hitem.recover_waived fun value? final => ?_
  cases value? with
  | none => exact ⟨.pure rfl, fun hexact hseen => hseen.2 (Or.inr ⟨rfl, hexact⟩)⟩
  | some value =>
    have hend : P.Agrees never (Parser.endItem within what) (Parser.endItem within' what) final :=
      endItem_stop hcloser hcommas hends
    refine ⟨.bind_each hend.recover_waived fun ended last => ⟨.pure ?_, fun hspoilt hseen => ?_⟩,
      fun hwaived => ?_⟩
    · cases ended <;> simp [Relocation.move, Relocatable.relocate]
    · cases ended with
      | none => exact hseen.2 (Or.inr ⟨rfl, hspoilt⟩)
      | some => exact hspoilt
    · refine not_seen_of_lost (.bind (runs_recover_endItem.mono (fun ended last hlast => .pure ?_)
        fun _ _ => False.elim))
      exact Or.inr (Or.inl ⟨value, rfl, hlast.1 ▸ hwaived⟩)

end

end Agrees

end Parallel

end SableFrontend
