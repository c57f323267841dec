import SableFrontend.Proofs.Grammar.Declaration
import SableFrontend.Proofs.Parallel.Stream

/-!
The steps of productions, taken on two streams. Looking at a token shows the same if the token is
the same. At the end of a stretch it need not be, but there the token is one at which an item may
end, or a colon in the other stream, and nearly every test of the grammar fails at such a token,
whichever it is.

Where a production cannot go on from such a token it gives up without moving (`Rejects`). It does so
on both streams, though not with the same report, and nothing is claimed of that.
-/

namespace SableFrontend

open TokenStream Parser Setting

variable {set : Setting} {α β : Type}

/-- A parser gives up where it is started. -/
def Setting.Rejects (set : Setting) (parser : Parser α) (state : ParserState) : Prop :=
  set.Runs parser state (fun _ _ => False) fun _ final => final.position = state.position

/-- It does so wherever an item may end. -/
def Setting.RejectsEnds (set : Setting) (parser : Parser α) : Prop :=
  ∀ state, (set.stream.kind state.position).isBoundary = true → set.Rejects parser state

theorem Setting.rejects_unexpected {state : ParserState} {expected : List String}
    {context : String} : set.Rejects (unexpected expected context : Parser α) state :=
  rfl

theorem Setting.Rejects.bind {parser : Parser α} {next : α → Parser β} {state : ParserState}
    (h : set.Rejects parser state) : set.Rejects (parser >>= next) state :=
  Setting.Runs.bind (h.mono (fun _ _ => False.elim) fun _ _ heq => heq)

theorem Setting.rejects_expect {state : ParserState} {kind : TokenKind} {context : String}
    (h : set.stream.kind state.position ≠ kind) : set.Rejects (expect kind context) state :=
  Runs.bind (.isAt (.ite (fun hat => absurd (beq_iff_eq.1 hat) h) fun _ => rejects_unexpected))

theorem Setting.rejects_expectOperator {state : ParserState} {spelling context : String}
    (h : (set.stream.kind state.position).isBoundary = true) :
    set.Rejects (expectOperator spelling context) state := by
  refine Runs.bind (.isAtOperator (.ite (fun hat => ?_) fun _ => rejects_unexpected))
  rw [Token.isOperator, Bool.and_eq_true, beq_iff_eq] at hat
  exact absurd hat.1 (TokenKind.ne_of_isBoundary h rfl)

/-- A token that is expected is all that is consumed. -/
theorem Setting.runs_expect {kind : TokenKind} {context : String} {state : ParserState} :
    set.Runs (expect kind context) state
      (fun token final => token = set.stream.token state.position ∧ token.kind = kind ∧
        final.position ≤ state.position + 1 ∧ final.log = state.log)
      fun _ _ => True := by
  refine .bind (.isAt (.ite (fun hkind => ?_) fun _ => trivial))
  have hkind := beq_iff_eq.1 hkind
  refine .bind (.read (.bind (.get (.ite (fun _ => ?_) fun _ => ?_))))
  · exact .bind (.moveTo (.pure ⟨rfl, hkind, Nat.le_refl _, rfl⟩))
  · exact .pure ⟨rfl, hkind, Nat.le_succ _, rfl⟩

theorem TokenKind.isPlain_of_newline (kind : TokenKind) (h : (kind == .newline) = true) :
    kind.isPlain = true := by
  rw [beq_iff_eq.1 h]
  rfl

namespace Parallel

variable {P : Parallel set} {start state right final : ParserState} {moved : Bool}
  {inside : List Bracket} {position : Nat} [Relocatable α] [Relocatable β]
  {waived : α → ParserState → Prop} {parser other : Parser α}

/-! ### In the stretch -/

/-- More delimiters are open than at the beginning. -/
def Deep (P : Parallel set) (position : Nat) : Prop :=
  (set.stream.opened P.base).length < (set.stream.opened position).length

theorem Deep.sheltered (h : P.Deep position) : P.Sheltered position := Or.inr h

/-- Inside of delimiters that a production has opened. -/
theorem deep_of_reached {bracket : Bracket}
    (h : set.Reached start moved (bracket :: inside) state) (hlive : P.Live start.position) :
    P.Deep state.position := by
  have hsuffix := (P.within.suffix start.position hlive.base_le hlive.le_stop).length_le
  rw [Deep, h.opened_eq, List.cons_append, List.length_cons, List.length_append]
  omega

theorem Sheltered.reached (h : P.Sheltered start.position)
    (hreached : set.Reached start moved inside state) : P.Sheltered state.position :=
  h.of_suffix hreached.within.last

/-- Behind a plain token in a sheltered place. -/
theorem Sheltered.succ (h : P.Sheltered position) (hlt : position < set.stream.size)
    (hplain : (set.stream.kind position).isPlain = true) : P.Sheltered (position + 1) :=
  h.of_suffix (opened_succ_plain hlt hplain ▸ List.suffix_rfl)

theorem Guarded.reached (h : P.Guarded start.position)
    (hreached : set.Reached start moved inside state) : P.Guarded state.position :=
  h.imp_right fun hsheltered => hsheltered.reached hreached

theorem Clear.reached (h : P.Clear start.position)
    (hreached : set.Reached start moved inside state) : P.Clear state.position :=
  h.imp_right fun hsheltered => hsheltered.reached hreached

theorem base_lt_of_reached (h : set.Reached start true inside state)
    (hlive : P.Live start.position) : P.base < state.position :=
  Nat.lt_of_le_of_lt hlive.base_le (h.progress rfl)

theorem base_le_of_reached (h : set.Reached start moved inside state)
    (hlive : P.Live start.position) : P.base ≤ state.position :=
  Nat.le_trans hlive.base_le h.within.le

/-- A position from which the next one is still in the stretch. -/
def Inner (P : Parallel set) (position : Nat) : Prop := position ≤ P.stop → position < P.stop

theorem inner_of_not_boundary (h : (set.stream.kind position).isBoundary = false) :
    P.Inner position :=
  fun hle => lt_stop_of_not_boundary hle h

theorem inner_of_kind {kind : TokenKind} (hkind : set.stream.kind position = kind)
    (h : kind.isBoundary = false) : P.Inner position :=
  inner_of_not_boundary (hkind ▸ h)

theorem Deep.inner (h : P.Deep position) : P.Inner position := fun hle => lt_stop_of_opened hle h

/-- The token at a position is the same in both streams, if the position is in the stretch. -/
def Shown (P : Parallel set) (position : Nat) : Prop :=
  P.base ≤ position → position ≤ P.stop → P.Live position

theorem Live.shown (h : P.Live position) : P.Shown position := fun _ _ => h

theorem Sheltered.shown (h : P.Sheltered position) : P.Shown position := h.live

theorem Inner.shown (h : P.Inner position) : P.Shown position :=
  fun hbase hle => live_of_lt hbase (h hle)

/-- A property of tokens that no token has at which an item or a part of one may end, and that does
not depend on places. -/
structure Firm (property : Token → Bool) : Prop where
  relocate : ∀ r token, property (token.relocate r) = property token
  limit : ∀ token, token.kind.isLimit = true → property token = false

/-- A test of the kind alone. -/
theorem Firm.ofKind {isMember : TokenKind → Bool}
    (h : ∀ kind, kind.isLimit = true → isMember kind = false) :
    Firm fun token => isMember token.kind :=
  ⟨fun _ _ => rfl, fun token => h token.kind⟩

theorem Firm.ofEq (kind : TokenKind) (h : kind.isLimit = false) :
    Firm fun token => token.kind == kind :=
  .ofKind fun _ hother => beq_eq_false_iff_ne.2 (TokenKind.ne_of_isLimit hother h)

theorem Firm.isOperator (spelling : String) : Firm (·.isOperator spelling) where
  relocate _ _ := rfl
  limit token h := by
    rw [Token.isOperator, beq_eq_false_iff_ne.2 (TokenKind.ne_of_isLimit h rfl), Bool.false_and]

theorem Firm.boundary {property : Token → Bool} (h : Firm property) (token : Token)
    (hboundary : token.kind.isBoundary = true) : property token = false :=
  h.limit token (TokenKind.isLimit_of_isBoundary hboundary)

theorem Related.test (h : P.Related state right) {property : Token → Bool}
    (hfirm : Firm property) :
    property (P.other.token right.position) = property (set.stream.token state.position) := by
  rcases h.live_or with hlive | ⟨-, hstop⟩
  · rw [h.token_eq hlive, hfirm.relocate]
  · rw [h.position_eq, hstop, hfirm.boundary _ kind_stop, hfirm.limit _ other_kind_stop]

/-- The token after the one under both cursors. -/
theorem Related.next (h : P.Related state right) (hinner : P.Inner state.position) :
    P.Live (state.position + 1) ∧ P.other.token (right.position + 1) =
        (set.stream.token (state.position + 1)).relocate P.relocation ∨
      (set.stream.kind (state.position + 1)).isBoundary = true ∧
        (P.other.kind (right.position + 1)).isLimit = true := by
  have hlt := hinner h.le_stop
  have hplace : right.position + 1 = P.place (state.position + 1) := by
    rw [h.position_eq, place_succ h.base_le]
  rw [hplace]
  rcases Nat.lt_or_eq_of_le (show state.position + 1 ≤ P.stop from hlt) with hlt | heq
  · have hlive : P.Live (state.position + 1) := live_of_lt (Nat.le_succ_of_le h.base_le) hlt
    exact Or.inl ⟨hlive, hlive.token_eq⟩
  · rw [heq]
    exact Or.inr ⟨kind_stop, other_kind_stop⟩

theorem Related.test_next (h : P.Related state right) (hinner : P.Inner state.position)
    {property : Token → Bool} (hfirm : Firm property) :
    property (P.other.token (right.position + 1)) =
      property (set.stream.token (state.position + 1)) := by
  rcases h.next hinner with ⟨-, heq⟩ | ⟨hleft, hright⟩
  · rw [heq, hfirm.relocate]
  · rw [hfirm.boundary _ hleft, hfirm.limit _ hright]

theorem Related.previous (h : P.Related state right) (hbase : P.base < state.position) :
    P.other.token (right.position - 1) =
      (set.stream.token (state.position - 1)).relocate P.relocation := by
  have hlive : P.Live (state.position - 1) :=
    live_of_lt (by omega) (Nat.lt_of_lt_of_le (by omega) h.le_stop)
  rw [h.position_eq, ← place_pred hbase, hlive.token_eq]

/-- Neighbours touch in both streams or in none. -/
theorem touches_place (hbase : P.base ≤ position) (hlt : position + 1 < P.stop) :
    (P.other.token (P.place position)).touches (P.other.token (P.place position + 1)) =
      (set.stream.token position).touches (set.stream.token (position + 1)) := by
  have htouches := P.touches_add_eq (position - P.base) (by unfold stop at hlt; omega)
  rwa [show P.base + (position - P.base) = position by omega,
    show P.base + (position - P.base + 1) = position + 1 by omega] at htouches

theorem touches_relocate (hlive : P.Live position)
    (hkind : (set.stream.kind position).isBoundary = false)
    (hnext : (set.stream.kind (position + 1)).isBoundary = false) :
    ((set.stream.token position).relocate P.relocation).touches
        ((set.stream.token (position + 1)).relocate P.relocation) =
      (set.stream.token position).touches (set.stream.token (position + 1)) := by
  have hlt := lt_stop_of_not_boundary hlive.le_stop hkind
  have hlt' := lt_stop_of_not_boundary hlt hnext
  have htouches := touches_place hlive.base_le hlt'
  rwa [← place_succ hlive.base_le, hlive.token_eq,
    (live_of_lt (Nat.le_succ_of_le hlive.base_le) hlt').token_eq] at htouches

/-- Whether a token of a kind touches the one before it, where an item may end instead. -/
theorem touching_iff {kind : TokenKind} (hlive : P.Live position)
    (hkind : (set.stream.kind position).isBoundary = false) (hlimit : kind.isLimit = false)
    {next : Token} (hnext : next = (set.stream.token (position + 1)).relocate P.relocation ∨
      (set.stream.kind (position + 1)).isBoundary = true ∧ next.kind.isLimit = true) :
    ((set.stream.token (position + 1)).kind == kind &&
        (set.stream.token position).touches (set.stream.token (position + 1))) = true ↔
      (next.kind == kind && ((set.stream.token position).relocate P.relocation).touches next) =
        true := by
  rcases hnext with rfl | ⟨hleft, hright⟩
  · rw [Token.relocate_kind, Bool.and_eq_true, Bool.and_eq_true]
    refine and_congr_right fun hat => ?_
    rw [touches_relocate hlive hkind (by
      rw [TokenStream.kind, beq_iff_eq.1 hat]
      exact TokenKind.isBoundary_of_isLimit hlimit)]
  · have hne : (set.stream.token (position + 1)).kind ≠ kind :=
      TokenKind.ne_of_isBoundary hleft (TokenKind.isBoundary_of_isLimit hlimit)
    rw [beq_eq_false_iff_ne.2 hne,
      beq_eq_false_iff_ne.2 (TokenKind.ne_of_isLimit hright hlimit)]
    simp

/-- A token that touches the one before it, as long as it is not the end of the stretch. -/
theorem Related.touches_next (h : P.Related state right)
    (hlt : state.position + 1 < P.stop) :
    (P.other.token right.position).touches (P.other.token (right.position + 1)) =
      (set.stream.token state.position).touches (set.stream.token (state.position + 1)) := by
  rw [h.position_eq]
  exact touches_place h.base_le hlt

theorem Related.touches_previous (h : P.Related state right) (hbase : P.base < state.position)
    (hlt : state.position < P.stop) :
    (P.other.token (right.position - 1)).touches (P.other.token right.position) =
      (set.stream.token (state.position - 1)).touches (set.stream.token state.position) := by
  have htouches := touches_place (show P.base ≤ state.position - 1 by omega) (by omega)
  have hplace := place_pred hbase
  have hpos : 0 < P.place state.position := by unfold place; omega
  rwa [hplace, show P.place state.position - 1 + 1 = P.place state.position by omega,
    show state.position - 1 + 1 = state.position by omega, ← h.position_eq] at htouches

/-! ### Productions -/

/-- Nothing is muted, if that matters. -/
def Loud (loud : Bool) (state : ParserState) : Prop := loud = true → state.log.muted = 0

theorem Loud.reached {loud : Bool} (h : Loud loud start)
    (hreached : set.Reached start moved inside state) : Loud loud state :=
  fun hloud => hreached.follows.muted_eq.trans (h hloud)

/-- A parser does on the other stream what it does on the stretch, wherever it is started. -/
def Mirrors (P : Parallel set) (loud : Bool) (parser : Parser α) : Prop :=
  ∀ state, state.position < set.stream.size → Loud loud state → P.Agrees never parser parser state

/-- It does so where it is guarded. -/
def MirrorsGuarded (P : Parallel set) (loud : Bool) (parser : Parser α) : Prop :=
  ∀ state, state.position < set.stream.size → Loud loud state → P.Guarded state.position →
    P.Agrees never parser parser state

/-- It does so where it is clear. -/
def MirrorsClear (P : Parallel set) (loud : Bool) (parser : Parser α) : Prop :=
  ∀ state, state.position < set.stream.size → Loud loud state → P.Clear state.position →
    P.Agrees never parser parser state

/-- It does so where it is sheltered. -/
def MirrorsInside (P : Parallel set) (loud : Bool) (parser : Parser α) : Prop :=
  ∀ state, state.position < set.stream.size → Loud loud state → P.Sheltered state.position →
    P.Agrees never parser parser state

theorem Mirrors.mirrorsInside {loud : Bool} (h : P.Mirrors loud parser) : P.MirrorsInside loud parser :=
  fun state hlt hloud _ => h state hlt hloud

theorem MirrorsGuarded.mirrorsInside {loud : Bool} (h : P.MirrorsGuarded loud parser) :
    P.MirrorsInside loud parser :=
  fun state hlt hloud hsheltered => h state hlt hloud hsheltered.guarded

theorem MirrorsGuarded.at {loud : Bool} (h : P.MirrorsGuarded loud parser)
    (hloud : Loud loud start) (hguarded : P.Guarded start.position)
    (hreached : set.Reached start moved inside state) : P.Agrees never parser parser state :=
  h state hreached.lt (hloud.reached hreached) (hguarded.reached hreached)

theorem MirrorsClear.mirrorsInside {loud : Bool} (h : P.MirrorsClear loud parser) :
    P.MirrorsInside loud parser :=
  fun state hlt hloud hsheltered => h state hlt hloud hsheltered.clear

theorem MirrorsClear.at {loud : Bool} (h : P.MirrorsClear loud parser)
    (hloud : Loud loud start) (hclear : P.Clear start.position)
    (hreached : set.Reached start moved inside state) : P.Agrees never parser parser state :=
  h state hreached.lt (hloud.reached hreached) (hclear.reached hreached)

/-- Part of a production. -/
theorem Mirrors.at {loud : Bool} (h : P.Mirrors loud parser) (hloud : Loud loud start)
    (hreached : set.Reached start moved inside state) : P.Agrees never parser parser state :=
  h state hreached.lt (hloud.reached hreached)

omit [Relocatable α] in
/-- A failure at the end of the stretch is not seen if the token there need not be the same. -/
theorem not_seen_of_rejects (h : set.Rejects parser state)
    (hexact : P.exact = false) (hstop : state.position = P.stop) :
    ¬P.Seen waived (parser set.stream state) := by
  intro hseen
  unfold Setting.Rejects Setting.Runs at h
  revert h hseen
  generalize parser set.stream state = run
  obtain ⟨result, final⟩ := run
  cases result with
  | ok answer => exact fun h _ => h
  | error abort =>
    intro heq hseen
    have heq : final.position = state.position := heq
    rcases hseen.2 with hexact' | hlt
    · rw [hexact] at hexact'
      cases hexact'
    · omega

omit [Relocatable α] in
/-- A parser that starts from a lost state ends in one. -/
theorem Lost.run (h : P.Lost state) (hproceeds : set.Proceeds moved parser state) :
    P.Lost (parser set.stream state).2 :=
  hproceeds.elim (motive := fun _ final => P.Lost final)
    (fun _ _ hs => h.mono hs.within.le (hs.follows.reports.imp fun _ heq => heq.1.symm)
      hs.follows.muted_eq)
    fun _ _ hs => h.mono hs.within.le (hs.follows.reports.imp fun _ heq => heq.1.symm)
      hs.follows.muted_eq

omit [Relocatable α] in
/-- Of a parser that is lost in the end nothing is seen. -/
theorem not_seen_of_lost (h : set.Runs parser state
    (fun answer final => P.Lost final ∨ waived answer final) fun _ final => P.Lost final) :
    ¬P.Seen waived (parser set.stream state) := by
  intro hseen
  unfold Setting.Runs at h
  revert h hseen
  generalize parser set.stream state = run
  obtain ⟨result, final⟩ := run
  cases result with
  | ok answer => exact fun h hseen => h.elim hseen.1 hseen.2
  | error abort => exact fun h hseen => hseen.1 h

namespace Agrees

/-! ### Where something is claimed -/

/-- What is known of the first parser alone says that it goes forward. -/
theorem of_run (hproceeds : set.Proceeds moved parser state)
    (hmirrored : ∀ right, P.Related state right → P.Seen waived (parser set.stream state) →
      ∃ final, other P.other right =
          ((parser set.stream state).1.map P.relocation.move, final) ∧
        P.Related (parser set.stream state).2 final) : P.Agrees waived parser other state where
  forward := hproceeds.elim (motive := fun _ final => state.position ≤ final.position)
    (fun _ _ h => h.within.le) fun _ _ h => h.within.le
  grows := by
    refine hproceeds.elim (motive := fun _ final => state.log.diagnostics.toList <+:
      final.log.diagnostics.toList) (fun _ _ h => ?_) fun _ _ h => ?_
    · exact h.follows.reports.imp fun _ heq => heq.1.symm
    · exact h.follows.reports.imp fun _ heq => heq.1.symm
  muted_eq := hproceeds.elim (motive := fun _ final => final.log.muted = state.log.muted)
    (fun _ _ h => h.follows.muted_eq) fun _ _ h => h.follows.muted_eq
  mirrored := hmirrored

/-- Nothing is claimed of a parser of which nothing is seen. -/
theorem of_unseen (hproceeds : set.Proceeds moved parser state)
    (h : ¬P.Seen waived (parser set.stream state)) : P.Agrees waived parser other state :=
  of_run hproceeds fun _ _ hseen => absurd hseen h

/-- The parsers may be replaced by others that do the same where they are started. -/
theorem congr (parser' other' : Parser α)
    (hleft : parser set.stream state = parser' set.stream state)
    (hright : ∀ right, P.Related state right → P.Seen waived (parser set.stream state) →
      other P.other right = other' P.other right) (h : P.Agrees waived parser' other' state) :
    P.Agrees waived parser other state where
  forward := hleft ▸ h.forward
  grows := hleft ▸ h.grows
  muted_eq := hleft ▸ h.muted_eq
  mirrored right hrelated hseen := by
    rw [hright right hrelated hseen, hleft]
    exact h.mirrored right hrelated (hleft ▸ hseen)

/-- Less is left open if the answers of which nothing is claimed do not occur. -/
theorem unwaived {less : α → ParserState → Prop} (h : P.Agrees waived parser other state)
    (hnot : set.Runs parser state
      (fun answer final => final.position ≤ P.stop → waived answer final → less answer final)
      fun _ _ => True) : P.Agrees less parser other state where
  forward := h.forward
  grows := h.grows
  muted_eq := h.muted_eq
  mirrored right hrelated hseen := by
    refine h.mirrored right hrelated ?_
    unfold Setting.Runs at hnot
    revert hnot hseen
    generalize parser set.stream state = run
    obtain ⟨result, final⟩ := run
    cases result with
    | ok answer =>
      intro hnot hseen
      refine ⟨hseen.1, fun hwaived => hseen.2 (hnot ?_ hwaived)⟩
      exact Nat.le_of_not_lt fun hlt => hseen.1 (Or.inl hlt)
    | error abort => exact fun _ hseen => hseen

/-- A production that gives up where an item may end only has to be followed where the token is
the same. -/
theorem of_live (hproceeds : set.Proceeds moved parser state)
    (hrejects : (set.stream.kind state.position).isBoundary = true → set.Rejects parser state)
    (h : P.Live state.position → P.Agrees waived parser other state) :
    P.Agrees waived parser other state := by
  by_cases hlive : P.Live state.position
  · exact h hlive
  · refine of_run hproceeds fun right hrelated hseen => ?_
    obtain ⟨hexact, hstop⟩ := hrelated.live_or.resolve_left hlive
    exact absurd hseen (not_seen_of_rejects (hrejects (hstop ▸ kind_stop)) hexact hstop)

/-- A production has only to be followed where the token is the same. -/
theorem of_shown (hproceeds : set.Proceeds moved parser state) (hshown : P.Shown state.position)
    (h : P.Live state.position → P.Agrees waived parser other state) :
    P.Agrees waived parser other state := by
  by_cases hlive : P.Live state.position
  · exact h hlive
  · exact of_run hproceeds fun right hrelated _ =>
      absurd (hshown hrelated.base_le hrelated.le_stop) hlive

/-- A parser that only looks. -/
theorem look {answer : α} (hleft : parser set.stream state = (.ok answer, state))
    (hright : ∀ right, P.Related state right →
      other P.other right = (.ok (P.relocation.move answer), right)) :
    P.Agrees waived parser other state where
  forward := hleft ▸ Nat.le_refl _
  grows := hleft ▸ List.prefix_rfl
  muted_eq := hleft ▸ rfl
  mirrored right hrelated _ := by
    rw [hleft]
    exact ⟨right, hright right hrelated, hrelated⟩

/-- The answer of a parser that only looks does not matter. -/
theorem bind_any {test : Parser Bool} {next next' : Bool → Parser α}
    (hlooks : ∀ (stream : TokenStream) s, ∃ verdict, test stream s = (.ok verdict, s))
    (h : ∀ verdict verdict', P.Agrees waived (next verdict) (next' verdict') state) :
    P.Agrees waived (test >>= next) (test >>= next') state := by
  have happly : ∀ (next : Bool → Parser α) (stream : TokenStream) s, ∃ verdict,
      (test >>= next) stream s = next verdict stream s := by
    intro next stream s
    obtain ⟨verdict, hverdict⟩ := hlooks stream s
    exact ⟨verdict, by rw [bind_apply, hverdict]⟩
  obtain ⟨verdict, hleft⟩ := happly next set.stream state
  have hsome := h verdict verdict
  refine ⟨hleft ▸ hsome.forward, hleft ▸ hsome.grows, hleft ▸ hsome.muted_eq,
    fun right hrelated hseen => ?_⟩
  obtain ⟨verdict', hright⟩ := happly next' P.other right
  rw [hleft] at hseen ⊢
  rw [hright]
  exact (h verdict verdict').mirrored right hrelated hseen

/-! ### Looking -/

theorem current {waived : Token → ParserState → Prop} (hshown : P.Shown state.position) :
    P.Agrees waived Parser.current Parser.current state :=
  look rfl fun right hrelated => by
    have hlive := hshown hrelated.base_le hrelated.le_stop
    rw [← show _ = P.relocation.move (set.stream.token state.position) from
      hrelated.token_eq hlive]
    rfl

/-- Looking at a token that need not be the same: then an item may end there, or a part of one. -/
theorem bind_current {next next' : Token → Parser α}
    (h : P.Agrees waived (next (set.stream.token state.position))
      (next' ((set.stream.token state.position).relocate P.relocation)) state)
    (hstop : (set.stream.kind state.position).isBoundary = true → ∀ token : Token,
      token.kind.isLimit = true →
      P.Agrees waived (next (set.stream.token state.position)) (next' token) state) :
    P.Agrees waived (Parser.current >>= next) (Parser.current >>= next') state where
  forward := h.forward
  grows := h.grows
  muted_eq := h.muted_eq
  mirrored right hrelated hseen := by
    rcases hrelated.live_or with hlive | ⟨-, hend⟩
    · have heq := hrelated.token_eq hlive
      have hmirrored := h.mirrored right hrelated hseen
      rw [← heq] at hmirrored
      exact hmirrored
    · refine (hstop (hend ▸ kind_stop) (P.other.token right.position) ?_).mirrored right hrelated
        hseen
      rw [hrelated.position_eq, hend]
      exact other_kind_stop

theorem bind_peek {next next' : Token → Parser α} (hinner : P.Inner state.position)
    (h : P.Agrees waived (next (set.stream.token (state.position + 1)))
      (next' ((set.stream.token (state.position + 1)).relocate P.relocation)) state)
    (hstop : (set.stream.kind (state.position + 1)).isBoundary = true → ∀ token : Token,
      token.kind.isLimit = true →
      P.Agrees waived (next (set.stream.token (state.position + 1))) (next' token) state) :
    P.Agrees waived (Parser.peek 1 >>= next) (Parser.peek 1 >>= next') state where
  forward := h.forward
  grows := h.grows
  muted_eq := h.muted_eq
  mirrored right hrelated hseen := by
    rcases hrelated.next hinner with ⟨-, heq⟩ | ⟨hleft, hright⟩
    · have hmirrored := h.mirrored right hrelated hseen
      rw [← heq] at hmirrored
      exact hmirrored
    · exact (hstop hleft _ hright).mirrored right hrelated hseen

/-- Looking whether a token of a kind comes next that touches the one before it. -/
theorem bind_touching {kind : TokenKind} {first first' second second' : Parser α}
    (hlive : P.Live position) (hkind : (set.stream.kind position).isBoundary = false)
    (hlimit : kind.isLimit = false) (hposition : state.position = position + 1)
    (hpos : set.stream.kind state.position = kind → P.Agrees waived first first' state)
    (hneg : P.Agrees waived second second' state) :
    P.Agrees waived
      (Parser.current >>= fun next =>
        if next.kind == kind && (set.stream.token position).touches next then first else second)
      (Parser.current >>= fun next =>
        if next.kind == kind && ((set.stream.token position).relocate P.relocation).touches next
        then first' else second') state := by
  refine .bind_current (.ite_iff ?_ (fun htouching => hpos ?_) fun _ => hneg)
    fun hstop token htoken => .ite_iff ?_ (fun htouching => hpos ?_) fun _ => hneg
  · rw [hposition]
    exact touching_iff hlive hkind hlimit (Or.inl rfl)
  · exact beq_iff_eq.1 (Bool.and_eq_true_iff.1 htouching).1
  · rw [hposition] at hstop ⊢
    exact touching_iff hlive hkind hlimit (Or.inr ⟨hstop, htoken⟩)
  · exact beq_iff_eq.1 (Bool.and_eq_true_iff.1 htouching).1

theorem peek {waived : Token → ParserState → Prop} (hinner : P.Inner state.position)
    (hshown : P.Shown (state.position + 1)) :
    P.Agrees waived (Parser.peek 1) (Parser.peek 1) state :=
  look rfl fun right hrelated => by
    have hlive := hshown (Nat.le_succ_of_le hrelated.base_le) (hinner hrelated.le_stop)
    have heq := hlive.token_eq
    rw [place_succ hrelated.base_le, ← hrelated.position_eq] at heq
    exact congrArg (fun token => (Except.ok token, right)) heq

theorem isAt {waived : Bool → ParserState → Prop} {kind : TokenKind}
    (h : kind.isLimit = false ∨ P.Shown state.position) :
    P.Agrees waived (Parser.isAt kind) (Parser.isAt kind) state := by
  refine look rfl fun right hrelated => ?_
  have heq : (P.other.kind right.position == kind) = (set.stream.kind state.position == kind) := by
    rcases h with hkind | hshown
    · exact hrelated.test (.ofEq kind hkind)
    · rw [hrelated.kind_eq (hshown hrelated.base_le hrelated.le_stop)]
  exact congrArg (fun verdict => (Except.ok verdict, right)) heq

/-- Where a search for anything finds the same, so does a test of the current token. -/
theorem isAt_guarded {waived : Bool → ParserState → Prop} {kind : TokenKind}
    (h : kind.isBoundary = false) (hguarded : P.Guarded state.position) :
    P.Agrees waived (Parser.isAt kind) (Parser.isAt kind) state := by
  refine look rfl fun right hrelated => ?_
  have heq : (P.other.kind right.position == kind) = (set.stream.kind state.position == kind) := by
    rw [hrelated.position_eq]
    rcases Nat.lt_or_eq_of_le hrelated.le_stop with hlt | hstop
    · rw [(live_of_lt hrelated.base_le hlt).kind_eq]
    · rw [hstop] at hguarded ⊢
      rw [beq_eq_false_iff_ne.2 (TokenKind.ne_of_isBoundary kind_stop h), beq_eq_false_iff_ne.2
        (TokenKind.ne_of_isBoundary (hguarded.closed rfl).kind_stop h)]
  exact congrArg (fun verdict => (Except.ok verdict, right)) heq

theorem isAtAny {waived : Bool → ParserState → Prop} {isMember : TokenKind → Bool}
    (h : ∀ kind, kind.isLimit = true → isMember kind = false) :
    P.Agrees waived (Parser.isAtAny isMember) (Parser.isAtAny isMember) state := by
  refine look rfl fun right hrelated => ?_
  exact congrArg (fun verdict => (Except.ok verdict, right)) (hrelated.test (.ofKind h))

theorem isAtOperator {waived : Bool → ParserState → Prop} {spelling : String} :
    P.Agrees waived (Parser.isAtOperator spelling) (Parser.isAtOperator spelling) state := by
  refine look rfl fun right hrelated => ?_
  exact congrArg (fun verdict => (Except.ok verdict, right)) (hrelated.test (.isOperator spelling))

theorem spanFrom {waived : Span → ParserState → Prop} {place : Span}
    (hbase : P.base < state.position) :
    P.Agrees waived (Parser.spanFrom place) (Parser.spanFrom (place.relocate P.relocation))
      state := by
  refine look rfl fun right hrelated => ?_
  have heq := hrelated.previous hbase
  show (Except.ok ((place.relocate P.relocation).join
    (P.other.token (right.position - 1)).span), right) = _
  rw [heq]
  rfl

/-- Each stream is read by its own parser. -/
theorem bind_read {next next' : TokenStream → Parser α}
    (h : P.Agrees waived (next set.stream) (next' P.other) state) :
    P.Agrees waived (read >>= next) (read >>= next') state :=
  ⟨h.forward, h.grows, h.muted_eq, h.mirrored⟩

/-- Nothing is used of the state that is compared. -/
theorem bind_get {next next' : ParserState → Parser α}
    (h : ∀ right, P.Agrees waived (next state) (next' right) state) :
    P.Agrees waived (get >>= next) (get >>= next') state where
  forward := (h state).forward
  grows := (h state).grows
  muted_eq := (h state).muted_eq
  mirrored right := (h right).mirrored right

/-- What is used of the state may be compared. -/
theorem bind_get_related {next next' : ParserState → Parser α} {other : Parser α}
    (hsome : P.Agrees waived (next state) other state)
    (h : ∀ right, P.Related state right → P.Agrees waived (next state) (next' right) state) :
    P.Agrees waived (get >>= next) (get >>= next') state :=
  ⟨hsome.forward, hsome.grows, hsome.muted_eq,
    fun right hrelated => (h right hrelated).mirrored right hrelated⟩

/-- The state in between may be compared with the one on the other side, behind a parser after which
nothing is lost that was not lost before. -/
theorem bind_get_after {next next' : α → ParserState → Parser β} {waived' : β → ParserState → Prop}
    (hproceeds : set.Proceeds moved (parser >>= fun answer => get >>= next answer) state)
    (h : P.Agrees never parser other state)
    (hnext : set.Runs parser state
      (fun answer middle => (P.Lost middle → P.Lost state) ∧
        ∀ right, P.Related middle right →
          P.Agrees waived' (next answer middle) (next' (P.relocation.move answer) right) middle)
      fun _ _ => True) :
    P.Agrees waived' (parser >>= fun answer => get >>= next answer)
      (other >>= fun answer => get >>= next' answer) state := by
  refine of_run hproceeds fun right hrelated hseen => ?_
  have hlost : ¬P.Lost state := fun hlost => hseen.not_lost (hlost.run hproceeds)
  have hmirrored := h.mirrored right hrelated
  unfold Setting.Runs at hnext
  rw [bind_apply] at hseen ⊢
  rw [bind_apply]
  cases hrun : parser set.stream state with
  | mk result middle =>
    rw [hrun] at hmirrored hnext hseen
    cases result with
    | error abort =>
      obtain ⟨final, heq, hfinal⟩ := hmirrored hseen
      rw [heq]
      exact ⟨final, rfl, hfinal⟩
    | ok answer =>
      obtain ⟨middle', heq, hmiddle⟩ := hmirrored ⟨mt hnext.1 hlost, id⟩
      rw [heq]
      exact (hnext.2 middle' hmiddle).mirrored middle' hmiddle hseen

/-- The position is all that is used of the state. -/
theorem bind_position {next next' : ParserState → Parser α}
    (h : ∀ right, right.position = P.place state.position →
      P.Agrees waived (next state) (next' right) state) :
    P.Agrees waived (get >>= next) (get >>= next') state :=
  bind_get_related (h { state with position := P.place state.position } rfl)
    fun right hrelated => h right hrelated.position_eq

/-! ### Moving -/

theorem advance {waived : Token → ParserState → Prop} (hinner : P.Inner state.position) :
    P.Agrees waived Parser.advance Parser.advance state := by
  have hmove : ∀ (stream : TokenStream) (s : ParserState), Parser.advance stream s =
      (.ok (stream.token s.position),
        if s.position + 1 < stream.size then { s with position := s.position + 1 } else s) := by
    intro stream s
    show (if s.position + 1 < stream.size then
      moveTo (s.position + 1) >>= fun _ => Pure.pure (stream.token s.position)
      else Pure.pure (stream.token s.position) : Parser Token) stream s = _
    split <;> rfl
  constructor
  · rw [hmove]
    dsimp only
    split
    · exact Nat.le_succ _
    · exact Nat.le_refl _
  · rw [hmove]
    dsimp only
    split <;> exact List.prefix_rfl
  · rw [hmove]
    dsimp only
    split <;> rfl
  · intro right hrelated _
    have hlt := hinner hrelated.le_stop
    have hplace := place_succ hrelated.base_le
    have hmore : state.position + 1 < set.stream.size := Nat.lt_of_le_of_lt hlt stop_lt
    have hmore' : right.position + 1 < P.other.size := by
      rw [hrelated.position_eq, ← hplace]
      exact place_lt hlt
    rw [hmove, hmove, if_pos hmore, if_pos hmore',
      hrelated.token_eq (live_of_lt hrelated.base_le hlt)]
    refine ⟨_, rfl, ?_⟩
    rw [hrelated.position_eq, ← hplace]
    exact hrelated.moveTo (Nat.le_succ_of_le hrelated.base_le) hlt

theorem skipWhile {waived : Unit → ParserState → Prop} {isMember : TokenKind → Bool}
    (hplain : ∀ kind, isMember kind = true → kind.isPlain = true)
    (hsheltered : P.Sheltered state.position) :
    P.Agrees waived (Parser.skipWhile isMember) (Parser.skipWhile isMember) state where
  forward := le_skipWhile ..
  grows := List.prefix_rfl
  muted_eq := rfl
  mirrored right hrelated _ := by
    have hle := hsheltered.skipWhile_le hplain hrelated.base_le hrelated.le_stop
    have heq := hsheltered.skipWhile_eq hplain hrelated.base_le hrelated.le_stop
    refine ⟨{ right with position := P.other.skipWhile isMember right.position }, rfl, ?_⟩
    rw [hrelated.position_eq, heq]
    exact hrelated.moveTo (Nat.le_trans hrelated.base_le (le_skipWhile ..)) hle

theorem skipNewlines {waived : Unit → ParserState → Prop} (h : P.Sheltered state.position) :
    P.Agrees waived Parser.skipNewlines Parser.skipNewlines state :=
  skipWhile TokenKind.isPlain_of_newline h

theorem skipSeparators {waived : Unit → ParserState → Prop} {commas : Bool}
    (h : P.Sheltered state.position) :
    P.Agrees waived (Parser.skipSeparators commas) (Parser.skipSeparators commas) state :=
  skipWhile (fun _ hkind => TokenKind.isPlain_of_separates hkind) h

/-- Skipping line breaks that may lead up to the end of the stretch. There the one stream may have a
line break that the other one has not, and nothing is claimed. -/
theorem skipNewlines_to_stop :
    P.Agrees (fun _ final => P.exact = false ∧ final.position = P.stop)
      Parser.skipNewlines Parser.skipNewlines state where
  forward := le_skipWhile ..
  grows := List.prefix_rfl
  muted_eq := rfl
  mirrored right hrelated hseen := by
    obtain ⟨hlost, hwaived⟩ := hseen
    have hle : set.stream.skipWhile (· == .newline) state.position ≤ P.stop :=
      Nat.le_of_not_lt fun hlt => hlost (Or.inl hlt)
    have hlt : state.position < set.stream.size := hrelated.lt_size
    refine ⟨{ right with position := P.other.skipWhile (· == .newline) right.position }, rfl, ?_⟩
    rw [hrelated.position_eq, skipWhile_place hrelated.base_le hle fun heq => ?_]
    · exact hrelated.moveTo (Nat.le_trans hrelated.base_le (le_skipWhile ..)) hle
    · -- what comes at the end of the stretch is the same in both streams
      have hexact : P.exact = true := by
        cases hexact : P.exact with
        | true => rfl
        | false => exact absurd ⟨hexact, heq⟩ hwaived
      have hkind : P.other.kind (P.place P.stop) = set.stream.kind P.stop := by
        rw [TokenStream.kind, place_stop, P.last_eq hexact]
        rfl
      rw [hkind, ← heq]
      exact (within_skipWhile TokenKind.isPlain_of_newline hlt).2.2

/-- What gives up at the end of the stretch may follow line breaks that lead up to it. -/
theorem bind_skipNewlines {next next' : Unit → Parser α}
    (hnext : set.Runs Parser.skipNewlines state
      (fun _ final => P.Agrees waived (next ()) (next' ()) final ∧
        ((set.stream.kind final.position).isBoundary = true → set.Rejects (next ()) final))
      fun _ _ => True) :
    P.Agrees waived (Parser.skipNewlines >>= next) (Parser.skipNewlines >>= next') state := by
  refine skipNewlines_to_stop.bind_waived (hnext.mono (fun _ final hfinal => ?_)
    fun _ _ hstops => hstops)
  refine ⟨hfinal.1, fun hwaived => ?_⟩
  exact not_seen_of_rejects (hfinal.2 (hwaived.2 ▸ kind_stop)) hwaived.1 hwaived.2

/-! ### Reporting -/

theorem report {waived : Unit → ParserState → Prop} {diagnostic : Diagnostic} :
    P.Agrees waived (Parser.report diagnostic)
      (Parser.report (diagnostic.relocate P.relocation)) state where
  forward := Nat.le_refl _
  grows := by
    show state.log.diagnostics.toList <+: (state.log.report diagnostic).diagnostics.toList
    unfold Log.report
    split
    · rw [Array.toList_push]
      exact List.prefix_append ..
    · exact List.prefix_rfl
  muted_eq := Log.report_muted ..
  mirrored right hrelated _ := ⟨_, rfl, hrelated.report diagnostic⟩

theorem reportError {waived : Unit → ParserState → Prop} {kind : DiagnosticKind}
    {message : String} {span : Span} {notes : List String} :
    P.Agrees waived (Parser.reportError kind message span notes)
      (Parser.reportError kind message (span.relocate P.relocation) notes) state :=
  report

theorem failWith {kind : DiagnosticKind} {message : String} {span : Span} {notes : List String} :
    P.Agrees waived (Parser.failWith kind message span notes)
      (Parser.failWith kind message (span.relocate P.relocation) notes) state :=
  .step reportError (.report .throw)

/-- The token that does not fit is named in the report, so it has to be the same. -/
theorem unexpected {expected : List String} {context : String} :
    P.Agrees waived (Parser.unexpected expected context) (Parser.unexpected expected context)
      state := by
  by_cases hlive : P.Live state.position
  · exact .step (.current hlive.shown)
      (.current (.step report (.report .throw)))
  · have hreport : P.Agrees (α := Unit) never
        (Parser.report (.errorAt .unexpectedToken
          (unexpectedMessage expected (set.stream.token state.position) context)
          (set.stream.token state.position).span [] expected)) _ state := report
    refine ⟨hreport.forward, hreport.grows, hreport.muted_eq, fun right hrelated hseen => ?_⟩
    obtain ⟨hexact, hstop⟩ := hrelated.live_or.resolve_left hlive
    exact absurd hseen (not_seen_of_rejects rejects_unexpected hexact hstop)

/-- What would follow a failure does not matter. -/
theorem unexpected_bind {expected : List String} {context : String} {next next' : β → Parser α} :
    P.Agrees waived (Parser.unexpected expected context >>= next)
      (Parser.unexpected expected context >>= next') state :=
  .step .unexpected trivial

theorem failWith_bind {kind : DiagnosticKind} {message : String} {span : Span}
    {notes : List String} {next next' : β → Parser α} :
    P.Agrees waived (Parser.failWith kind message span notes >>= next)
      (Parser.failWith kind message (span.relocate P.relocation) notes >>= next') state :=
  .step .failWith trivial

/-! ### Expecting a token -/

section

variable {waived : Token → ParserState → Prop} {context : String}

theorem expect {kind : TokenKind} (hkind : kind.isBoundary = false) :
    P.Agrees waived (Parser.expect kind context) (Parser.expect kind context) state := by
  have hother : ∀ (stream : TokenStream) (s : ParserState), stream.kind s.position ≠ kind →
      Parser.expect kind context stream s =
        Parser.unexpected [kind.describe] context stream s := by
    intro stream s hne
    show (if (stream.kind s.position == kind) = true then Parser.advance
      else Parser.unexpected [kind.describe] context : Parser Token) stream s = _
    rw [beq_eq_false_iff_ne.2 hne]
    rfl
  by_cases hat : set.stream.kind state.position = kind
  · have hin : P.Inner state.position := inner_of_kind hat hkind
    exact .step (.isAt (Or.inr hin.shown)) (.isAt (.ite (fun _ => .advance hin) fun _ => .unexpected))
  · refine .congr _ _ (hother _ _ hat) (fun right hrelated hseen => hother _ _ ?_) .unexpected
    rcases hrelated.live_or with hlive | ⟨hexact, hstop⟩
    · rwa [hrelated.kind_eq hlive]
    · exact absurd hseen (not_seen_of_rejects (rejects_expect hat) hexact hstop)

/-- A closer is expected inside of delimiters that have been opened. -/
theorem expectCloser {bracket : Bracket} (hdeep : P.Deep state.position) :
    P.Agrees waived (Parser.expect (.closer bracket) context)
      (Parser.expect (.closer bracket) context) state := by
  refine .step (.isAt (Or.inr hdeep.sheltered.shown)) (.isAt ?_)
  exact .ite (fun _ => .advance hdeep.inner) fun _ => .unexpected

theorem expectOperator {spelling : String} :
    P.Agrees waived (Parser.expectOperator spelling context)
      (Parser.expectOperator spelling context) state := by
  refine .step .isAtOperator (.isAtOperator ?_)
  refine .ite (fun hat => ?_) fun _ => .unexpected
  rw [Token.isOperator, Bool.and_eq_true, beq_iff_eq] at hat
  exact .advance (inner_of_kind hat.1 rfl)

end

theorem literalOf {waived : Literal → ParserState → Prop} {token : Token} :
    P.Agrees waived (Parser.literalOf token) (Parser.literalOf (token.relocate P.relocation))
      state := by
  have hliteral : Literal.ofToken (token.relocate P.relocation) =
      (Literal.ofToken token).map (Literal.relocate P.relocation) := by
    unfold Literal.ofToken
    simp only [Token.relocate_kind, Token.relocate_value, Token.relocate_span]
    split
    · cases Numeral.integerValue token.value.toList <;> rfl
    all_goals rfl
  unfold Parser.literalOf
  rw [hliteral]
  cases Literal.ofToken token with
  | ok literal => exact .pure rfl
  | error digits => exact .throw

/-- The history is not compared. -/
theorem note {waived : Unit → ParserState → Prop} {event event' : ParserEvent} :
    P.Agrees waived (Parser.note event) (Parser.note event') state where
  forward := Nat.le_refl _
  grows := List.prefix_rfl
  muted_eq := rfl
  mirrored _ hrelated _ := ⟨_, rfl, hrelated.withHistory _ _⟩

end Agrees

end Parallel

end SableFrontend
