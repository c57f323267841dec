import SableFrontend.Proofs.Grammar.Loops
import SableFrontend.Proofs.Tree.Relocation
import SableFrontend.Token.BracketForm

/-!
Two streams side by side. A stretch of one stream reads like a stretch of another: the same tokens
at other places, with the same gaps between them and the same delimiters around them, up to a token
at which an item may end. In the other stream a colon or the sign of a value may stand there instead:
expressions, patterns and types end in front of it as well, though not every search ahead does
(`Guarded`, `Clear`). A parser that is run on both, from the same place in the stretch, then does the same on both, as long as it does not
look past the end of the stretch.

What it may see of that end is what the productions of the grammar are careful about. Three cases
occur. The streams may both end there, or the delimiters around both stretches be closed (`final`), so
nothing is looked past. Or the token at the end is the same, but not what follows it (`exact`); or it
is only known that an item may end there. A parser that moved on is lost, and nothing is claimed of it (`Lost`). Nor is anything
claimed of one that failed at a token that is not the same in both streams, since its report shows
the token, and of one that reported a conditional without its last branch, because it looked at the
next line to find out.

`Agrees` says of two parsers that the second does on the other stream what the first one does, as
far as that is seen, and that the first one moves forward and takes nothing back.
-/

namespace SableFrontend

/-- The form that the token in front of a square bracket settles, if it does. -/
def TokenStream.formBefore? (stream : TokenStream) (position : Nat) : Option BracketForm :=
  BracketForm.ofNeighbour?
    (if 0 < position then some (stream.token (position - 1)) else none) (stream.token position)

/-- Only a name of a constructor or a point in front of a square bracket settles its form. -/
theorem TokenStream.formBefore?_eq_none {stream : TokenStream} {position : Nat}
    (hname : stream.kind (position - 1) ≠ .typeIdentifier)
    (hpoint : stream.kind (position - 1) ≠ .dot) : stream.formBefore? position = none := by
  rcases Nat.eq_zero_or_pos position with rfl | hpos
  · rfl
  · unfold formBefore? BracketForm.ofNeighbour?
    rw [if_pos hpos]
    dsimp only
    split
    · split
      · next heq => exact absurd heq hname
      · next heq => exact absurd heq hpoint
      · rfl
    · rfl

/-- Whether an item may end at a token of a kind, or a part of an item in front of a colon or of the
sign of a value. -/
def TokenKind.isLimit (kind : TokenKind) : Bool :=
  kind.isBoundary || kind == .colon || kind == .assign

theorem TokenKind.isLimit_of_isBoundary {kind : TokenKind} (h : kind.isBoundary = true) :
    kind.isLimit = true := by
  rw [isLimit, h, Bool.true_or, Bool.true_or]

theorem TokenKind.eq_or_of_isLimit {kind : TokenKind} (h : kind.isLimit = true)
    (hnot : ¬kind.isBoundary = true) : kind = .colon ∨ kind = .assign := by
  rw [isLimit, Bool.eq_false_iff.2 hnot, Bool.false_or, Bool.or_eq_true] at h
  exact h.imp beq_iff_eq.1 beq_iff_eq.1

/-- A token at which an item may end is of none of the other kinds. -/
theorem TokenKind.ne_of_isBoundary {kind other : TokenKind} (h : kind.isBoundary = true)
    (hother : other.isBoundary = false) : kind ≠ other := by
  rintro rfl
  rw [h] at hother
  cases hother

/-- Where an item may not end, and neither a colon nor the sign of a value stands, is none of them
either. -/
theorem TokenKind.ne_of_isLimit {kind other : TokenKind} (h : kind.isLimit = true)
    (hother : other.isLimit = false) : kind ≠ other := by
  rintro rfl
  rw [h] at hother
  cases hother

theorem TokenKind.isBoundary_of_isLimit {kind : TokenKind} (h : kind.isLimit = false) :
    kind.isBoundary = false :=
  (Bool.or_eq_false_iff.1 (Bool.or_eq_false_iff.1 h).1).1

theorem TokenKind.eq_of_isLimit {kind : TokenKind} (h : kind.isLimit = true) :
    kind = .newline ∨ kind = .semicolon ∨ (∃ bracket, kind = .closer bracket) ∨
      kind = .endOfFile ∨ kind = .colon ∨ kind = .assign := by
  by_cases hboundary : kind.isBoundary = true
  · rcases TokenKind.eq_of_isBoundary hboundary with rfl | rfl | hcloser | rfl
    · exact Or.inl rfl
    · exact Or.inr (Or.inl rfl)
    · exact Or.inr (Or.inr (Or.inl hcloser))
    · exact Or.inr (Or.inr (Or.inr (Or.inl rfl)))
  · exact Or.inr (Or.inr (Or.inr (Or.inr (TokenKind.eq_or_of_isLimit h hboundary))))

/-- Whether a group of delimiters, or the whole source, ends at a token of a kind. -/
def TokenKind.endsGroup (kind : TokenKind) : Bool := kind == .endOfFile || kind.isCloser

/-- A stretch of a stream and one of another stream that reads like it. -/
structure Parallel (set : Setting) where
  other : TokenStream
  relocation : Relocation
  /-- Where the stretches begin, and how long they are. -/
  base : Nat
  otherBase : Nat
  reach : Nat
  /-- How many more delimiters lie around the other stretch. -/
  lift : Nat
  exact : Bool
  final : Bool
  /-- What was reported before the stretches. -/
  reported : List Diagnostic
  otherReported : List Diagnostic
  within : set.stream.Within base (base + reach)
  opened_eq : set.stream.opened (base + reach) = set.stream.opened base
  other_lt : otherBase + reach < other.size
  token_add_eq : ∀ k < reach,
    other.token (otherBase + k) = (set.stream.token (base + k)).relocate relocation
  touches_add_eq : ∀ k, k + 1 < reach →
    (other.token (otherBase + k)).touches (other.token (otherBase + (k + 1))) =
      (set.stream.token (base + k)).touches (set.stream.token (base + (k + 1)))
  depth_add_eq : ∀ k ≤ reach,
    other.depth (otherBase + k) = set.stream.depth (base + k) + lift
  formBefore_eq : set.stream.kind base = .opener .square →
    other.formBefore? otherBase = set.stream.formBefore? base
  boundary : (set.stream.kind (base + reach)).isBoundary = true
  other_limit : (other.kind (otherBase + reach)).isLimit = true
  last_eq : exact = true →
    other.token (otherBase + reach) = (set.stream.token (base + reach)).relocate relocation
  last_ne_newline : exact = false → set.stream.kind (base + reach) ≠ .newline
  ends : final = true → exact = true ∧ (set.stream.kind (base + reach)).endsGroup = true

namespace Parallel

variable {set : Setting} (P : Parallel set) {α β : Type}

/-- The end of the stretch. -/
def stop : Nat := P.base + P.reach

/-- The place in the other stream that corresponds to a place in the stretch. -/
def place (position : Nat) : Nat := P.otherBase + (position - P.base)

/-- The token at a position is the same in both streams. -/
structure Live (position : Nat) : Prop where
  base_le : P.base ≤ position
  lt_or : position < P.stop ∨ position = P.stop ∧ P.exact = true

/-- A position from which nothing past the end of the stretch can be seen over line breaks alone:
it lies in a pair of delimiters that the end lies outside of, or what surrounds it ends there. -/
def Sheltered (position : Nat) : Prop :=
  P.final = true ∨ (set.stream.opened P.base).length < (set.stream.opened position).length

/-- A position in a pair of delimiters that what surrounds the stretch does not lie in: they are closed
at its end at the latest. -/
def Surrounds (position : Nat) : Prop :=
  set.stream.kind P.stop = .endOfFile ∨
    (position ≤ P.stop → (set.stream.opened P.base).length ≤ (set.stream.opened position).length)

/-! ### Related states -/

/-- An item may end at the end of the other stretch as well. -/
def Closed : Prop := (P.other.kind (P.otherBase + P.reach)).isBoundary = true

/-- A position from which a search for something other than a colon or the sign of a value finds the
same: it is sheltered, or neither stands at the end of the other stretch. -/
def Guarded (position : Nat) : Prop := P.Closed ∨ P.Sheltered position

/-- A position from which a search that the sign of a value ends finds the same: it is sheltered, or no
colon stands at the end of the other stretch. -/
def Clear (position : Nat) : Prop :=
  P.other.kind (P.otherBase + P.reach) ≠ .colon ∨ P.Sheltered position

/-- States at corresponding places, in which the same has been reported since the beginning. -/
structure Related (left right : ParserState) : Prop where
  base_le : P.base ≤ left.position
  le_stop : left.position ≤ P.stop
  position_eq : right.position = P.place left.position
  reports : ∃ reports : List Diagnostic,
    left.log.diagnostics.toList = P.reported ++ reports ∧
      right.log.diagnostics.toList = P.otherReported ++ P.relocation.move reports
  muted_eq : right.log.muted = left.log.muted

/-- No line break leads past the end of the stretch: what surrounds it ends there, or the same token,
which is no line break, stands in both streams. -/
def Fixed : Prop := P.final = true ∨ P.exact = true ∧ set.stream.kind P.stop ≠ .newline

/-- A state that has gone past the end of the stretch, or has reported that it looked there. -/
def Lost (state : ParserState) : Prop :=
  P.stop < state.position ∨ ¬P.Fixed ∧ state.log.muted = 0 ∧
    ∃ diagnostic ∈ state.log.diagnostics.toList.drop P.reported.length,
      diagnostic.kind = .missingElseBranch

/-- A run of which something is claimed. Of some answers nothing may be claimed. -/
def Seen (waived : α → ParserState → Prop) : Except Abort α × ParserState → Prop
  | (.ok answer, final) => ¬P.Lost final ∧ ¬waived answer final
  | (.error _, final) => ¬P.Lost final ∧ (P.exact = true ∨ final.position < P.stop)

/-- There are no answers of which nothing is claimed. -/
def never (_ : α) (_ : ParserState) : Prop := False

/-- What a parser does on the stretch, another one does on the other stream. -/
structure Agrees [Relocatable α] (waived : α → ParserState → Prop) (parser other : Parser α)
    (state : ParserState) : Prop where
  forward : state.position ≤ (parser set.stream state).2.position
  grows : state.log.diagnostics.toList <+: (parser set.stream state).2.log.diagnostics.toList
  muted_eq : (parser set.stream state).2.log.muted = state.log.muted
  mirrored : ∀ right, P.Related state right → P.Seen waived (parser set.stream state) →
    ∃ final, other P.other right =
        ((parser set.stream state).1.map P.relocation.move, final) ∧
      P.Related (parser set.stream state).2 final

/-! ### Places -/

variable {P} {position : Nat} {state right final : ParserState}

@[simp] theorem place_base : P.place P.base = P.otherBase := by simp [place]

@[simp] theorem place_stop : P.place P.stop = P.otherBase + P.reach := by simp [place, stop]

theorem place_succ (h : P.base ≤ position) : P.place (position + 1) = P.place position + 1 := by
  unfold place
  omega

theorem place_pred (h : P.base < position) : P.place (position - 1) = P.place position - 1 := by
  unfold place
  omega

theorem place_lt (h : position ≤ P.stop) : P.place position < P.other.size := by
  have hlt := P.other_lt
  unfold place
  unfold stop at h
  omega

theorem stop_lt : P.stop < set.stream.size := P.within.lt

theorem Live.le_stop (h : P.Live position) : position ≤ P.stop := by
  rcases h.lt_or with hlt | heq
  · exact Nat.le_of_lt hlt
  · exact Nat.le_of_eq heq.1

theorem Live.token_eq (h : P.Live position) :
    P.other.token (P.place position) = (set.stream.token position).relocate P.relocation := by
  have hbase := h.base_le
  rcases h.lt_or with hlt | ⟨rfl, hexact⟩
  · have htoken := P.token_add_eq (position - P.base) (by unfold stop at hlt; omega)
    rwa [show P.base + (position - P.base) = position by omega] at htoken
  · rw [place_stop]
    exact P.last_eq hexact

theorem Live.kind_eq (h : P.Live position) :
    P.other.kind (P.place position) = set.stream.kind position := by
  rw [TokenStream.kind, h.token_eq]
  rfl

theorem live_of_lt (hbase : P.base ≤ position) (hlt : position < P.stop) : P.Live position :=
  ⟨hbase, Or.inl hlt⟩

/-- A token at which no item ends lies in front of the end of the stretch. -/
theorem lt_stop_of_not_boundary (hle : position ≤ P.stop)
    (hkind : (set.stream.kind position).isBoundary = false) : position < P.stop := by
  rcases Nat.lt_or_eq_of_le hle with hlt | rfl
  · exact hlt
  · have hboundary := P.boundary
    rw [show P.base + P.reach = P.stop from rfl, hkind] at hboundary
    cases hboundary

/-- Where more is open than at the beginning, the end has not been reached. -/
theorem lt_stop_of_opened (hle : position ≤ P.stop)
    (hopened : (set.stream.opened P.base).length < (set.stream.opened position).length) :
    position < P.stop := by
  rcases Nat.lt_or_eq_of_le hle with hlt | rfl
  · exact hlt
  · have hsame : set.stream.opened P.stop = set.stream.opened P.base := P.opened_eq
    rw [hsame] at hopened
    exact absurd hopened (Nat.lt_irrefl _)

theorem Sheltered.live (h : P.Sheltered position) (hbase : P.base ≤ position)
    (hle : position ≤ P.stop) : P.Live position := by
  rcases h with hfinal | hopened
  · refine ⟨hbase, (Nat.lt_or_eq_of_le hle).imp_right fun heq => ⟨heq, (P.ends hfinal).1⟩⟩
  · exact live_of_lt hbase (lt_stop_of_opened hle hopened)

/-- Positions with the same delimiters around them are sheltered alike. -/
theorem Sheltered.of_suffix {start : Nat} (h : P.Sheltered start)
    (hsuffix : set.stream.opened start <:+ set.stream.opened position) : P.Sheltered position :=
  h.imp_right fun hlt => Nat.lt_of_lt_of_le hlt hsuffix.length_le

/-- What surrounds a stretch surrounds every place in it. -/
theorem surrounds_of_base_le (h : P.base ≤ position) : P.Surrounds position :=
  Or.inr fun hle => (P.within.suffix position h hle).length_le

theorem Sheltered.guarded (h : P.Sheltered position) : P.Guarded position := Or.inr h

theorem Closed.guarded (h : P.Closed) : P.Guarded position := Or.inl h

theorem Guarded.clear (h : P.Guarded position) : P.Clear position :=
  h.imp_left fun hclosed heq => by
    rw [Closed, heq] at hclosed
    cases hclosed

theorem Sheltered.clear (h : P.Sheltered position) : P.Clear position := Or.inr h

/-- What is the same at the end of both stretches is a token at which an item may end. -/
theorem closed_of_exact (h : P.exact = true) : P.Closed := by
  have hkind := P.boundary
  rw [Closed, TokenStream.kind, P.last_eq h]
  exact hkind

theorem closed_of_final (h : P.final = true) : P.Closed := closed_of_exact (P.ends h).1

theorem Fixed.exact (h : P.Fixed) : P.exact = true := h.elim (fun hfinal => (P.ends hfinal).1) And.left

/-! ### Related states -/

namespace Related

theorem place_lt (h : P.Related state right) : right.position < P.other.size := by
  rw [h.position_eq]
  exact Parallel.place_lt h.le_stop

theorem lt_size (h : P.Related state right) : state.position < set.stream.size :=
  Nat.lt_of_le_of_lt h.le_stop stop_lt

/-- The end of the stretch has been reached, and its token need not be the same. -/
theorem live_or (h : P.Related state right) :
    P.Live state.position ∨ P.exact = false ∧ state.position = P.stop := by
  rcases Nat.lt_or_eq_of_le h.le_stop with hlt | heq
  · exact Or.inl (live_of_lt h.base_le hlt)
  · cases hexact : P.exact with
    | true => exact Or.inl ⟨h.base_le, Or.inr ⟨heq, hexact⟩⟩
    | false => exact Or.inr ⟨rfl, heq⟩

theorem token_eq (h : P.Related state right) (hlive : P.Live state.position) :
    P.other.token right.position = (set.stream.token state.position).relocate P.relocation := by
  rw [h.position_eq, hlive.token_eq]

theorem kind_eq (h : P.Related state right) (hlive : P.Live state.position) :
    P.other.kind right.position = set.stream.kind state.position := by
  rw [h.position_eq, hlive.kind_eq]

/-- As much has been reported since the beginning. -/
theorem count_eq (h : P.Related state right) :
    state.log.count + P.otherReported.length = right.log.count + P.reported.length := by
  obtain ⟨reports, hleft, hright⟩ := h.reports
  rw [Log.count, Log.count, ← Array.length_toList, ← Array.length_toList, hleft, hright,
    List.length_append, List.length_append]
  simp only [Relocation.move, Relocatable.relocate, List.length_map]
  omega

/-- Both move to corresponding places. -/
theorem moveTo (h : P.Related state right) (hbase : P.base ≤ position) (hle : position ≤ P.stop) :
    P.Related { state with position := position }
      { right with position := P.place position } where
  base_le := hbase
  le_stop := hle
  position_eq := rfl
  reports := h.reports
  muted_eq := h.muted_eq

/-- The history is not compared. -/
theorem withHistory (h : P.Related state right) (history history' : List ParserEvent) :
    P.Related { state with history := history } { right with history := history' } :=
  ⟨h.base_le, h.le_stop, h.position_eq, h.reports, h.muted_eq⟩

/-- Both report the same. -/
theorem report (h : P.Related state right) (diagnostic : Diagnostic) :
    P.Related { state with log := state.log.report diagnostic }
      { right with log := right.log.report (diagnostic.relocate P.relocation) } where
  base_le := h.base_le
  le_stop := h.le_stop
  position_eq := h.position_eq
  reports := by
    obtain ⟨reports, hleft, hright⟩ := h.reports
    by_cases hmuted : state.log.muted = 0
    · have hmuted' : right.log.muted = 0 := h.muted_eq.trans hmuted
      refine ⟨reports ++ [diagnostic], ?_, ?_⟩
      · simp only [Log.report, hmuted, if_true, Array.toList_push, hleft, List.append_assoc]
      · simp only [Log.report, hmuted', if_true, Array.toList_push, hright, List.append_assoc,
          Relocation.move, Relocatable.relocate, List.map_append, List.map_singleton]
    · have hmuted' : right.log.muted ≠ 0 := fun heq => hmuted (h.muted_eq.symm.trans heq)
      refine ⟨reports, ?_, ?_⟩
      · simp only [Log.report, hmuted, if_false, hleft]
      · simp only [Log.report, hmuted', if_false, hright]
  muted_eq := by rw [Log.report_muted, Log.report_muted, h.muted_eq]

end Related

/-! ### Lost states -/

/-- A parser that goes on from a lost state is still lost. -/
theorem Lost.mono (h : P.Lost state) (hforward : state.position ≤ final.position)
    (hgrows : state.log.diagnostics.toList <+: final.log.diagnostics.toList)
    (hmuted : final.log.muted = state.log.muted) : P.Lost final := by
  rcases h with hpast | ⟨hfixed, hzero, diagnostic, hmem, hkind⟩
  · exact Or.inl (Nat.lt_of_lt_of_le hpast hforward)
  · obtain ⟨more, hmore⟩ := hgrows
    refine Or.inr ⟨hfixed, hmuted.trans hzero, diagnostic, ?_, hkind⟩
    rw [← hmore, List.drop_append]
    exact List.mem_append_left _ hmem

theorem Seen.not_lost {waived : α → ParserState → Prop} {run : Except Abort α × ParserState}
    (h : P.Seen waived run) : ¬P.Lost run.2 := by
  obtain ⟨result, final⟩ := run
  cases result with
  | ok answer => exact h.1
  | error abort => exact h.1

/-! ### Composing parsers -/

namespace Agrees

variable [Relocatable α] [Relocatable β] {waived : α → ParserState → Prop}
  {waived' : β → ParserState → Prop} {parser other : Parser α} {next next' : α → Parser β}

/-- Nothing is claimed of more answers. -/
theorem mono {more : α → ParserState → Prop} (h : P.Agrees waived parser other state)
    (hmore : ∀ answer final, waived answer final → more answer final) :
    P.Agrees more parser other state where
  forward := h.forward
  grows := h.grows
  muted_eq := h.muted_eq
  mirrored right hrelated hseen := by
    refine h.mirrored right hrelated ?_
    revert hseen
    generalize parser set.stream state = run
    obtain ⟨result, final⟩ := run
    cases result with
    | ok answer => exact fun hseen => ⟨hseen.1, fun hwaived => hseen.2 (hmore answer final hwaived)⟩
    | error abort => exact id

theorem pure {answer answer' : α} (h : P.relocation.move answer = answer') :
    P.Agrees waived (Pure.pure answer) (Pure.pure answer') state where
  forward := Nat.le_refl _
  grows := List.prefix_rfl
  muted_eq := rfl
  mirrored right hrelated _ := by
    rw [← h]
    exact ⟨right, rfl, hrelated⟩

theorem throw {abort : Abort} :
    P.Agrees waived (MonadExcept.throw abort) (MonadExcept.throw abort) state where
  forward := Nat.le_refl _
  grows := List.prefix_rfl
  muted_eq := rfl
  mirrored right hrelated _ := ⟨right, rfl, hrelated⟩

/-- One parser after another. What is known of the state in between comes from what is known of
the first parser alone. After an answer of which nothing is claimed, nothing may be claimed of what
follows. -/
theorem bind_waived {stops : Abort → ParserState → Prop} (h : P.Agrees waived parser other state)
    (hnext : set.Runs parser state
      (fun answer final => P.Agrees waived' (next answer) (next' (P.relocation.move answer)) final ∧
        (waived answer final → ¬P.Seen waived' (next answer set.stream final))) stops) :
    P.Agrees waived' (parser >>= next) (other >>= next') state := by
  have hforward := h.forward
  have hgrows := h.grows
  have hmuted := h.muted_eq
  have hmirrored := h.mirrored
  unfold Setting.Runs at hnext
  cases hrun : parser set.stream state with
  | mk result middle =>
    rw [hrun] at hforward hgrows hmuted hmirrored hnext
    cases result with
    | error abort =>
      refine ⟨?_, ?_, ?_, fun right hrelated hseen => ?_⟩
      · rw [Setting.bind_apply, hrun]
        exact hforward
      · rw [Setting.bind_apply, hrun]
        exact hgrows
      · rw [Setting.bind_apply, hrun]
        exact hmuted
      · rw [Setting.bind_apply, hrun] at hseen
        obtain ⟨final, heq, hfinal⟩ := hmirrored right hrelated hseen
        refine ⟨final, ?_, ?_⟩
        · rw [Setting.bind_apply, Setting.bind_apply, hrun, heq]
          rfl
        · rw [Setting.bind_apply, hrun]
          exact hfinal
    | ok answer =>
      obtain ⟨hnext, hunseen⟩ := hnext
      refine ⟨?_, ?_, ?_, fun right hrelated hseen => ?_⟩
      · rw [Setting.bind_apply, hrun]
        exact Nat.le_trans hforward hnext.forward
      · rw [Setting.bind_apply, hrun]
        exact hgrows.trans hnext.grows
      · rw [Setting.bind_apply, hrun]
        exact hnext.muted_eq.trans hmuted
      · rw [Setting.bind_apply, hrun] at hseen
        -- what is lost in between is lost in the end
        have hmiddle : ¬P.Lost middle := fun hlost =>
          hseen.not_lost (hlost.mono hnext.forward hnext.grows hnext.muted_eq)
        obtain ⟨middle', heq, hrelated'⟩ :=
          hmirrored right hrelated ⟨hmiddle, fun hwaived => hunseen hwaived hseen⟩
        obtain ⟨final, heq', hfinal⟩ := hnext.mirrored middle' hrelated' hseen
        refine ⟨final, ?_, ?_⟩
        · rw [Setting.bind_apply, Setting.bind_apply, hrun, heq]
          exact heq'
        · rw [Setting.bind_apply, hrun]
          exact hfinal

theorem bind {stops : Abort → ParserState → Prop} (h : P.Agrees never parser other state)
    (hnext : set.Runs parser state
      (fun answer final => P.Agrees waived' (next answer) (next' (P.relocation.move answer)) final)
      stops) : P.Agrees waived' (parser >>= next) (other >>= next') state :=
  bind_waived h (hnext.mono (fun _ _ hagrees => ⟨hagrees, False.elim⟩) fun _ _ hstops => hstops)

/-- After a step whose failures are of no interest. -/
theorem step (h : P.Agrees never parser other state)
    (hnext : set.Runs parser state
      (fun answer final => P.Agrees waived' (next answer) (next' (P.relocation.move answer)) final)
      fun _ _ => True) : P.Agrees waived' (parser >>= next) (other >>= next') state :=
  bind h hnext

theorem map {function function' : α → β} (h : P.Agrees never parser other state)
    (hfunction : ∀ answer, P.relocation.move (function answer) =
      function' (P.relocation.move answer)) :
    P.Agrees waived' (function <$> parser) (function' <$> other) state := by
  have hbind : ∀ (function : α → β) (parser : Parser α), function <$> parser =
      parser >>= fun answer => Pure.pure (function answer) := fun _ _ => rfl
  rw [hbind, hbind]
  refine step h ?_
  unfold Setting.Runs
  split
  · exact pure (hfunction _)
  · trivial

/-- Both take the same branch. -/
theorem ite_iff {c c' : Prop} [Decidable c] [Decidable c'] {first second first' second' : Parser α}
    (hiff : c ↔ c') (hpos : c → P.Agrees waived first first' state)
    (hneg : ¬c → P.Agrees waived second second' state) :
    P.Agrees waived (if c then first else second) (if c' then first' else second') state := by
  by_cases hc : c
  · rw [if_pos hc, if_pos (hiff.1 hc)]
    exact hpos hc
  · rw [if_neg hc, if_neg (mt hiff.2 hc)]
    exact hneg hc

theorem ite {c : Prop} [Decidable c] {first second first' second' : Parser α}
    (hpos : c → P.Agrees waived first first' state)
    (hneg : ¬c → P.Agrees waived second second' state) :
    P.Agrees waived (if c then first else second) (if c then first' else second') state :=
  ite_iff Iff.rfl hpos hneg

end Agrees

end Parallel

end SableFrontend
