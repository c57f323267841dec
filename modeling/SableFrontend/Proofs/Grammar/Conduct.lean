import SableFrontend.Grammar.Pattern
import SableFrontend.Proofs.Token.Nesting

/-!
How a parser conducts itself. Every production of the grammar keeps to the same rules, whether it
answers or gives up, and whatever was reported or recovered from on the way:

* it moves forward only, and does not leave the pair of delimiters that it was started in;
* what it reports is added behind what was reported before, and is of a kind that is allowed to it;
* its history is added to what happened before, and every event in it is sound: a failure that was
  recovered from had been reported, and each loop over items went forward, stayed in front of the
  delimiter that closes its items, and ended there.

`Reached` says this of a state that a parser has come to, and `Stops` of one in which it gives up.
`Runs` is how either is proved: it speaks of one parser, started in one state, and says what holds
if it answers and what holds if it gives up. `Proceeds` and `Obeys` put them together into what is
proved of every production.
-/

namespace SableFrontend

/-! ### Kinds of reports -/

/-- An error of the grammar. -/
structure Diagnostic.IsGrammatical (diagnostic : Diagnostic) : Prop where
  severity_eq : diagnostic.severity = .error
  not_lexical : diagnostic.kind ≠ .lexError
  not_mismatch : diagnostic.kind ≠ .ascriptionMismatch

/-- The warning that an annotation and the definition after it have different names. -/
structure Diagnostic.IsMismatch (diagnostic : Diagnostic) : Prop where
  severity_eq : diagnostic.severity = .warning
  kind_eq : diagnostic.kind = .ascriptionMismatch

theorem Diagnostic.isGrammatical_errorAt {kind : DiagnosticKind} {message : String} {span : Span}
    {notes expected : List String} (hlexical : kind ≠ .lexError)
    (hmismatch : kind ≠ .ascriptionMismatch) :
    (errorAt kind message span notes expected).IsGrammatical :=
  ⟨rfl, hlexical, hmismatch⟩

/-! ### What parsers may do -/

/-- The surroundings of a parser: the stream that it reads, what it may report, and in which ways it
may give up. -/
structure Setting where
  stream : TokenStream
  balanced : stream.Balanced
  admits : Diagnostic → Prop
  allows : Abort → Prop
  grammatical : ∀ {diagnostic}, diagnostic.IsGrammatical → admits diagnostic
  failed : allows .failed
  overlong : ∀ {token digits}, token ∈ stream.tokens →
    Literal.ofToken token = .error digits → allows (.overlongInteger digits)

/-- An enclosure begins to be read. -/
def ParserEvent.begins (within : Enclosure) : ParserEvent → Bool
  | entered other => other == within
  | _ => false

/-- An enclosure has been read to its end. -/
def ParserEvent.ends (within : Enclosure) : ParserEvent → Bool
  | finished other _ => other == within
  | _ => false

/-- An enclosure ends at a place, and a way leads from one position forward to another, inside it
and not past its end. -/
def Enclosure.Keeps (stream : TokenStream) (within : Enclosure) (start stop : Nat) : Prop :=
  ∃ close, stream.Closes within.first within.closer close ∧ within.first ≤ start ∧
    start ≤ stop ∧ stop ≤ close

/-- As many enclosures have been read to their ends since an earlier state as have been begun,
unless everything was left at once. -/
def ParserState.Settles (start final : ParserState) : Prop :=
  ∃ events, final.history = events ++ start.history ∧
    (ParserEvent.cutShort ∈ events ∨
      ∀ within, events.countP (·.begins within) = events.countP (·.ends within))

theorem ParserState.Settles.refl (state : ParserState) : state.Settles state :=
  ⟨[], rfl, Or.inr fun _ => rfl⟩

theorem ParserState.Settles.trans {first second third : ParserState} (h : first.Settles second)
    (h' : second.Settles third) : first.Settles third := by
  obtain ⟨before, hbefore, hcount⟩ := h
  obtain ⟨after, hafter, hcount'⟩ := h'
  refine ⟨after ++ before, by rw [hafter, hbefore, List.append_assoc], ?_⟩
  rcases hcount with hcut | hcount
  · exact Or.inl (List.mem_append_right after hcut)
  · rcases hcount' with hcut | hcount'
    · exact Or.inl (List.mem_append_left before hcut)
    · refine Or.inr fun within => ?_
      rw [List.countP_append, List.countP_append, hcount, hcount']

namespace Setting

variable (set : Setting)

/-- Annotations whose names differ from those of their definitions may be warned about. -/
def Warns : Prop := ∀ {diagnostic : Diagnostic}, diagnostic.IsMismatch → set.admits diagnostic

/-- Each failure that was recovered from outside of attempts had been reported, and what was
reported stands in the log. Whatever is read or skipped in an enclosure stays in front of its
end, each round goes forward, and the last one ends where the enclosure does. A part of a source
cannot have been muted less than the source around it, of which `floor` is the measure. -/
def Sound (floor : Nat) (log : Log) : ParserEvent → Prop
  | .abandoned failure => floor ≤ failure.muted ∧ (failure.muted = 0 →
      failure.reported ≠ [] ∧
        ∀ diagnostic ∈ failure.reported, set.admits diagnostic ∧ diagnostic ∈ log.diagnostics)
  | .skipped within start stop => within.Keeps set.stream start stop
  | .entered within => ∃ close, set.stream.Closes within.first within.closer close
  | .round within start stop => within.Keeps set.stream start stop ∧ start < stop
  | .finished within stop => set.stream.Closes within.first within.closer stop
  | .cutShort => True

/-- A later log shows as much as an earlier one. -/
theorem Sound.mono {floor lower : Nat} {log later : Log} {event : ParserEvent}
    (h : set.Sound floor log event) (hfloor : lower ≤ floor)
    (hlog : ∀ diagnostic ∈ log.diagnostics, diagnostic ∈ later.diagnostics) :
    set.Sound lower later event := by
  cases event with
  | abandoned failure =>
    obtain ⟨hmuted, hreported⟩ := h
    refine ⟨Nat.le_trans hfloor hmuted, fun hzero => ?_⟩
    obtain ⟨hne, hall⟩ := hreported hzero
    exact ⟨hne, fun diagnostic hmem =>
      ⟨(hall diagnostic hmem).1, hlog diagnostic (hall diagnostic hmem).2⟩⟩
  | skipped | entered | round | finished | cutShort => exact h

/-- The reports and the events since an earlier state. -/
structure Follows (start final : ParserState) : Prop where
  muted_eq : final.log.muted = start.log.muted
  reports : ∃ reported, final.log.diagnostics.toList = start.log.diagnostics.toList ++ reported ∧
    ∀ diagnostic ∈ reported, set.admits diagnostic
  events : ∃ events, final.history = events ++ start.history ∧
    ∀ event ∈ events, set.Sound start.log.muted final.log event

/-- A state that a parser has come to from an earlier one. Of the delimiters opened on the way
those in `inside` are still open; whether it has consumed anything is known if `moved` is set. -/
structure Reached (start : ParserState) (moved : Bool) (inside : List Bracket)
    (state : ParserState) : Prop where
  within : set.stream.Within start.position state.position
  opened_eq : set.stream.opened state.position = inside ++ set.stream.opened start.position
  follows : set.Follows start state
  settles : start.Settles state
  progress : moved = true → start.position < state.position

/-- A state in which a parser gives up. If it fails, something has been reported. -/
structure Stops (start : ParserState) (abort : Abort) (state : ParserState) : Prop where
  within : set.stream.Within start.position state.position
  follows : set.Follows start state
  allowed : set.allows abort
  settles : abort = .failed → start.Settles state
  reports : abort = .failed → start.log.muted = 0 → start.log.count < state.log.count

/-- What holds when a parser, started in a state, answers, and when it gives up. -/
def Runs {α : Type} (parser : Parser α) (state : ParserState)
    (returns : α → ParserState → Prop) (stops : Abort → ParserState → Prop) : Prop :=
  match parser set.stream state with
  | (.ok answer, final) => returns answer final
  | (.error abort, final) => stops abort final

/-- A parser keeps to the rules when started in a state, and leaves no delimiter open. -/
def Proceeds {α : Type} (moved : Bool) (parser : Parser α) (state : ParserState) : Prop :=
  set.Runs parser state (fun _ final => set.Reached state moved [] final) (set.Stops state)

/-- A parser keeps to the rules wherever it is started. -/
def Obeys {α : Type} (moved : Bool) (parser : Parser α) : Prop :=
  ∀ state, state.position < set.stream.size → set.Proceeds moved parser state

/-- A parser keeps to the rules wherever it is started with so many delimiters around it. -/
def ObeysAt {α : Type} (depth : Nat) (moved : Bool) (parser : Parser α) : Prop :=
  ∀ state, state.position < set.stream.size →
    (set.stream.opened state.position).length = depth → set.Proceeds moved parser state

variable {set} {α β : Type}

theorem Obeys.at {moved : Bool} {parser : Parser α} (h : set.Obeys moved parser) (depth : Nat) :
    set.ObeysAt depth moved parser :=
  fun state hlt _ => h state hlt

/-! ### Following states -/

theorem Follows.refl (state : ParserState) : set.Follows state state where
  muted_eq := rfl
  reports := ⟨[], by simp, fun _ hmem => by cases hmem⟩
  events := ⟨[], rfl, fun _ hmem => by cases hmem⟩

theorem Follows.mem_diagnostics {start final : ParserState} (h : set.Follows start final) :
    ∀ diagnostic ∈ start.log.diagnostics, diagnostic ∈ final.log.diagnostics := by
  intro diagnostic hmem
  obtain ⟨reported, hreported, -⟩ := h.reports
  rw [← Array.mem_toList_iff, hreported]
  exact List.mem_append_left reported (Array.mem_toList_iff.2 hmem)

theorem Follows.count_le {start final : ParserState} (h : set.Follows start final) :
    start.log.count ≤ final.log.count := by
  obtain ⟨reported, hreported, -⟩ := h.reports
  rw [Log.count, Log.count, ← Array.length_toList, ← Array.length_toList, hreported,
    List.length_append]
  exact Nat.le_add_right ..

theorem Follows.trans {first second third : ParserState} (h : set.Follows first second)
    (h' : set.Follows second third) : set.Follows first third where
  muted_eq := h'.muted_eq.trans h.muted_eq
  reports := by
    obtain ⟨before, hbefore, hadmitted⟩ := h.reports
    obtain ⟨after, hafter, hadmitted'⟩ := h'.reports
    refine ⟨before ++ after, by rw [hafter, hbefore, List.append_assoc], fun diagnostic hmem => ?_⟩
    rcases List.mem_append.1 hmem with hmem | hmem
    · exact hadmitted diagnostic hmem
    · exact hadmitted' diagnostic hmem
  events := by
    obtain ⟨before, hbefore, hsound⟩ := h.events
    obtain ⟨after, hafter, hsound'⟩ := h'.events
    refine ⟨after ++ before, by rw [hafter, hbefore, List.append_assoc], fun event hmem => ?_⟩
    -- what was sound before still is: the later log shows no less
    rcases List.mem_append.1 hmem with hmem | hmem
    · exact (hsound' event hmem).mono set (Nat.le_of_eq h.muted_eq.symm) (fun _ hlog => hlog)
    · exact (hsound event hmem).mono set (Nat.le_refl _) h'.mem_diagnostics

/-! ### Reaching states -/

namespace Reached

variable {start state final : ParserState} {moved moved' : Bool} {inside inside' : List Bracket}

theorem refl (h : state.position < set.stream.size) : set.Reached state false [] state where
  within := .refl h
  opened_eq := rfl
  follows := .refl state
  settles := .refl state
  progress := Bool.noConfusion

theorem lt (h : set.Reached start moved inside state) : state.position < set.stream.size :=
  h.within.lt

/-- There are as many delimiters more around it as have been opened. -/
theorem depth_eq {depth : Nat} (h : set.Reached start moved inside state)
    (hdepth : (set.stream.opened start.position).length = depth) :
    (set.stream.opened state.position).length = depth + inside.length := by
  rw [h.opened_eq, List.length_append, hdepth, Nat.add_comm]

theorem trans (h : set.Reached start moved inside state)
    (h' : set.Reached state moved' inside' final) :
    set.Reached start (moved || moved') (inside' ++ inside) final where
  within := h.within.trans h'.within
  opened_eq := by rw [h'.opened_eq, h.opened_eq, List.append_assoc]
  follows := h.follows.trans h'.follows
  settles := h.settles.trans h'.settles
  progress hmoved := by
    rcases Bool.or_eq_true_iff.1 hmoved with hmoved | hmoved
    · exact Nat.lt_of_lt_of_le (h.progress hmoved) h'.within.le
    · exact Nat.lt_of_le_of_lt h.within.le (h'.progress hmoved)

/-- What is known to have moved may be forgotten. -/
theorem weaken (h : set.Reached start moved inside state) :
    set.Reached start false inside state :=
  { h with progress := Bool.noConfusion }

/-- A parser that gives up later on has given up from the start on. -/
theorem stops {abort : Abort} (h : set.Reached start moved inside state)
    (h' : set.Stops state abort final) : set.Stops start abort final where
  within := h.within.trans h'.within
  follows := h.follows.trans h'.follows
  allowed := h'.allowed
  settles habort := h.settles.trans (h'.settles habort)
  reports habort hmuted :=
    Nat.lt_of_le_of_lt h.follows.count_le
      (h'.reports habort (h.follows.muted_eq.trans hmuted))

end Reached

/-! ### Running parsers -/

section

variable {parser : Parser α} {next : α → Parser β} {state : ParserState}
  {returns returns' : α → ParserState → Prop} {stops stops' : Abort → ParserState → Prop}

theorem Runs.mono (h : set.Runs parser state returns stops)
    (hreturns : ∀ answer final, returns answer final → returns' answer final)
    (hstops : ∀ abort final, stops abort final → stops' abort final) :
    set.Runs parser state returns' stops' := by
  unfold Runs at h ⊢
  split
  · next answer final heq =>
    rw [heq] at h
    exact hreturns answer final h
  · next abort final heq =>
    rw [heq] at h
    exact hstops abort final h

/-- Two things that hold of a run hold together. -/
theorem Runs.and (h : set.Runs parser state returns stops)
    (h' : set.Runs parser state returns' stops') :
    set.Runs parser state (fun answer final => returns answer final ∧ returns' answer final)
      fun abort final => stops abort final ∧ stops' abort final := by
  unfold Runs at h h' ⊢
  split <;> rename_i heq <;> rw [heq] at h h' <;> exact ⟨h, h'⟩

/-- What has been shown of a run holds of what it gives. -/
theorem Runs.elim (h : set.Runs parser state returns stops)
    {motive : Except Abort α → ParserState → Prop}
    (hreturns : ∀ answer final, returns answer final → motive (.ok answer) final)
    (hstops : ∀ abort final, stops abort final → motive (.error abort) final) :
    motive (parser set.stream state).1 (parser set.stream state).2 := by
  unfold Runs at h
  cases hrun : parser set.stream state with
  | mk result final =>
    rw [hrun] at h
    cases result with
    | ok answer => exact hreturns answer final h
    | error abort => exact hstops abort final h

theorem Runs.pure {answer : α} (h : returns answer state) :
    set.Runs (pure answer) state returns stops := h

theorem bind_apply (stream : TokenStream) :
    (parser >>= next) stream state =
      match parser stream state with
      | (.ok answer, final) => next answer stream final
      | (.error abort, final) => (.error abort, final) := by
  show (ExceptT.bindCont (fun answer => next answer stream) (parser stream state).1 :
    StateM ParserState (Except Abort β)) (parser stream state).2 = _
  cases parser stream state with
  | mk result final => cases result <;> rfl

theorem map_apply (function : α → β) (stream : TokenStream) :
    (function <$> parser) stream state =
      match parser stream state with
      | (.ok answer, final) => (.ok (function answer), final)
      | (.error abort, final) => (.error abort, final) := by
  cases hrun : parser stream state with
  | mk result final =>
    simp only [Functor.map, ExceptT.map, ExceptT.mk, bind, StateT.bind]
    rw [hrun]
    cases result <;> rfl

theorem Runs.bind {returns : β → ParserState → Prop}
    (h : set.Runs parser state (fun answer final => set.Runs (next answer) final returns stops)
      stops) : set.Runs (parser >>= next) state returns stops := by
  unfold Runs at h ⊢
  rw [bind_apply]
  cases hrun : parser set.stream state with
  | mk result final =>
    rw [hrun] at h
    cases result <;> exact h

theorem Runs.map {function : α → β} {returns : β → ParserState → Prop}
    (h : set.Runs parser state (fun answer final => returns (function answer) final) stops) :
    set.Runs (function <$> parser) state returns stops := by
  unfold Runs at h ⊢
  rw [map_apply]
  cases hrun : parser set.stream state with
  | mk result final =>
    rw [hrun] at h
    cases result <;> exact h

theorem Runs.throw {abort : Abort} (h : stops abort state) :
    set.Runs (throw abort : Parser α) state returns stops := h

theorem Runs.ite {c : Prop} [Decidable c] {first second : Parser α}
    (hpos : c → set.Runs first state returns stops)
    (hneg : ¬c → set.Runs second state returns stops) :
    set.Runs (if c then first else second) state returns stops := by
  split
  · exact hpos ‹_›
  · exact hneg ‹_›

end

end Setting

end SableFrontend
