import SableFrontend.Proofs.Parallel.Expr

/-!
Conditionals on two streams. After each of its branches a conditional looks over line breaks, for
another branch or for the keyword of the last one, and so it may look past the end of the stretch.
What it sees there decides nothing as long as the conditional goes on in the stretch, or as long as
neither a branch nor the keyword comes next in either stream (`Settled`). A colon at the end of the
other stretch could make a branch of what is none, too. In all these cases
(`Uncertain`) the conditional ends without a last branch. Where it must have one, this is reported,
and nothing is claimed of what follows; as a statement it is answered like that, and nothing is
claimed of the answer.
-/

namespace SableFrontend

open TokenStream Parser Setting

/-- A conditional without a last branch. -/
def Expr.lacksElse : Expr → Bool
  | conditional _ none _ => true
  | _ => false

/-! ### Lines ahead -/

namespace TokenStream

variable (stream : TokenStream) (position : Nat)

/-- Whether the next line, or the rest of this one, can be a condition and a branch. -/
def branchFollows : Bool :=
  let next := stream.skipWhile (· == .newline) position
  let kind := stream.kind next
  !(kind.isKeyword || kind.isCloser || kind.isSeparator || endsStatementHead kind ||
      kind == .endOfFile) &&
    (stream.firstStop (fun kind => endsStatementHead kind || kind == .colon) 0 next).kind == .colon

/-- Whether a conditional goes on with another branch on the next line. -/
def continuesIf : Bool := stream.kind position == .newline && stream.branchFollows position

/-- Whether a conditional goes on with its last branch, here or on the next line. -/
def elseFollows : Bool :=
  stream.kind position == .keyword .elseWord ||
    (stream.kind position == .newline &&
      stream.kind (stream.skipWhile (· == .newline) position) == .keyword .elseWord)

variable {stream position}

/-- The keyword of the last branch begins no other branch. -/
theorem continuesIf_eq_false (h : stream.elseFollows position = true) :
    stream.continuesIf position = false := by
  rcases Bool.or_eq_true_iff.1 h with hhere | hnext
  · rw [continuesIf, beq_iff_eq.1 hhere]
    rfl
  · have hkind := beq_iff_eq.1 (Bool.and_eq_true_iff.1 hnext).2
    simp [continuesIf, branchFollows, hkind, TokenKind.isKeyword]

end TokenStream

theorem Parser.continuesIf_apply (stream : TokenStream) (state : ParserState) :
    (do return (← isAt .newline) && (← newlineContinuesIf) : Parser Bool) stream state =
      (.ok (stream.continuesIf state.position), state) := by
  have hline : newlineContinuesIf stream state =
      (.ok (stream.branchFollows state.position), state) := by
    show (if _ then return false else Pure.pure _ : Parser Bool) stream state = _
    unfold branchFollows
    dsimp only
    split
    · next hother =>
      rw [hother]
      rfl
    · next hother =>
      rw [Bool.eq_false_iff.2 hother]
      rfl
  show (newlineContinuesIf >>= fun follows =>
    (Pure.pure (stream.kind state.position == .newline && follows) : Parser Bool)) stream state = _
  rw [bind_apply, hline]
  rfl

namespace Parallel

variable {set : Setting} {P : Parallel set} {start state : ParserState} {inner : Nested}
  {position : Nat}

/-- Neither a branch nor the last branch of a conditional comes at the end of the stretch. -/
structure Settled (P : Parallel set) : Prop where
  continuesIf_eq : set.stream.continuesIf P.stop = false
  elseFollows_eq : set.stream.elseFollows P.stop = false
  other_continuesIf_eq : P.other.continuesIf (P.place P.stop) = false
  other_elseFollows_eq : P.other.elseFollows (P.place P.stop) = false

/-- What follows the line breaks at a position need not be the same, or need not end in the same way,
and it may matter. -/
def Uncertain (P : Parallel set) (position : Nat) : Prop :=
  ¬P.Live (set.stream.skipWhile (· == .newline) position) ∧ ¬(position = P.stop ∧ P.Settled) ∨
    ¬P.Guarded position ∧ set.stream.continuesIf position = false ∧
      set.stream.elseFollows position = false

/-- What follows the line breaks at a position decides the same in both streams. -/
theorem follows_place (hbase : P.base ≤ position) (hle : position ≤ P.stop)
    (hcertain : ¬P.Uncertain position) :
    P.other.continuesIf (P.place position) = set.stream.continuesIf position ∧
      P.other.elseFollows (P.place position) = set.stream.elseFollows position := by
  by_cases hlive : P.Live (set.stream.skipWhile (· == .newline) position)
  · have hnext := le_skipWhile set.stream (· == .newline) position
    have hhere : P.Live position := by
      rcases Nat.lt_or_eq_of_le hnext with hlt | heq
      · exact live_of_lt hbase (Nat.lt_of_lt_of_le hlt hlive.le_stop)
      · exact heq ▸ hlive
    have hskip : P.other.skipWhile (· == .newline) (P.place position) =
        P.place (set.stream.skipWhile (· == .newline) position) := by
      refine skipWhile_place hbase hlive.le_stop fun heq => ?_
      rw [heq] at hlive
      rw [hlive.kind_eq, ← heq]
      exact (within_skipWhile TokenKind.isPlain_of_newline
        (Nat.lt_of_le_of_lt hle stop_lt)).2.2
    have helse : P.other.elseFollows (P.place position) = set.stream.elseFollows position := by
      simp only [elseFollows, hskip, hhere.kind_eq, hlive.kind_eq]
    refine ⟨?_, helse⟩
    obtain ⟨found, hfrom, hto, hopened, hleft, hright⟩ := exists_firstStop (P := P)
      (fun kind => endsStatementHead kind || kind == .colon) hlive.base_le hlive.le_stop (Or.inl ⟨rfl, rfl⟩)
    rcases Nat.lt_or_eq_of_le hto with hlt | rfl
    · simp only [continuesIf, branchFollows, hskip, hhere.kind_eq, hlive.kind_eq, hleft, hright,
        (live_of_lt hfrom hlt).token_eq, Token.relocate_kind]
    · -- the search has come to the end of the stretch, where no colon stands in the first stream
      have hnone : set.stream.continuesIf position = false := by
        rw [continuesIf, branchFollows, hleft, beq_eq_false_iff_ne.2 (TokenKind.ne_of_isBoundary
          (show (set.stream.token P.stop).kind.isBoundary = true from kind_stop) rfl)]
        simp
      rw [hnone]
      cases hfollows : set.stream.elseFollows position with
      | true => exact continuesIf_eq_false (helse.trans hfollows)
      | false =>
        have hguarded : P.Guarded position := Classical.byContradiction fun h =>
          hcertain (Or.inr ⟨h, hnone, hfollows⟩)
        have hclosed := hguarded.closed (by
          rw [hopened, (within_skipWhile TokenKind.isPlain_of_newline
            (Nat.lt_of_le_of_lt hle stop_lt)).2.1])
        rw [continuesIf, branchFollows, hskip, hright, beq_eq_false_iff_ne.2
          (TokenKind.ne_of_isBoundary (show (P.other.token (P.place P.stop)).kind.isBoundary = true
            from hclosed.kind_stop) rfl)]
        simp
  · obtain ⟨rfl, hsettled⟩ := Classical.not_not.1 fun h => hcertain (Or.inl ⟨hlive, h⟩)
    rw [hsettled.continuesIf_eq, hsettled.elseFollows_eq, hsettled.other_continuesIf_eq,
      hsettled.other_elseFollows_eq]
    exact ⟨rfl, rfl⟩

theorem follows_kind {stream : TokenStream} (h : stream.elseFollows position = true) :
    stream.kind (stream.skipWhile (· == .newline) position) = .keyword .elseWord := by
  rcases Bool.or_eq_true_iff.1 h with hhere | hnext
  · have hhere := beq_iff_eq.1 hhere
    rw [skipWhile_eq_self (by rw [hhere]; rfl), hhere]
  · exact beq_iff_eq.1 (Bool.and_eq_true_iff.1 hnext).2

theorem branch_kind {stream : TokenStream} (h : stream.continuesIf position = true) :
    (stream.kind (stream.skipWhile (· == .newline) position)).isBoundary = false := by
  have hfollows := (Bool.and_eq_true_iff.1 (Bool.and_eq_true_iff.1 h).2).1
  simp only [Bool.not_eq_true', Bool.or_eq_false_iff] at hfollows
  obtain ⟨⟨⟨⟨-, hcloser⟩, hseparator⟩, -⟩, hend⟩ := hfollows
  rw [TokenKind.isBoundary, hcloser, hseparator, hend]
  rfl

/-- What a conditional goes on with on the next line of an uncertain position lies behind the
stretch. -/
theorem Uncertain.stop_lt (h : P.Uncertain position) (hbase : P.base ≤ position)
    (hfollows : set.stream.continuesIf position = true ∨ set.stream.elseFollows position = true) :
    P.stop < set.stream.skipWhile (· == .newline) position := by
  rcases h with ⟨hlive, -⟩ | ⟨-, hcontinues, helse⟩
  · have hkind : (set.stream.kind (set.stream.skipWhile (· == .newline) position)).isBoundary =
        false := by
      rcases hfollows with hfollows | hfollows
      · exact branch_kind hfollows
      · rw [follows_kind hfollows]
        rfl
    refine Nat.lt_of_not_le fun hle => hlive ?_
    exact live_of_lt (Nat.le_trans hbase (le_skipWhile ..)) (lt_stop_of_not_boundary hle hkind)
  · rw [hcontinues, helse] at hfollows
    simp at hfollows

theorem Sheltered.certain (h : P.Sheltered position) (hbase : P.base ≤ position)
    (hle : position ≤ P.stop) : ¬P.Uncertain position := by
  have hskip := within_skipWhile TokenKind.isPlain_of_newline (Nat.lt_of_le_of_lt hle Parallel.stop_lt)
  rintro (⟨hlive, -⟩ | ⟨hguarded, -⟩)
  · refine hlive (Sheltered.live ?_ (Nat.le_trans hbase (le_skipWhile ..)) ?_)
    · exact h.of_suffix (hskip.2.1 ▸ List.suffix_rfl)
    · exact h.skipWhile_le TokenKind.isPlain_of_newline hbase hle
  · exact hguarded h.guarded

/-- Where the end of the stretch is firm, nothing is uncertain in front of it. -/
theorem Fixed.certain (h : P.Fixed) (hbase : P.base ≤ position) (hle : position ≤ P.stop) :
    ¬P.Uncertain position := by
  rcases h with hfinal | ⟨hexact, hnewline⟩
  · exact Sheltered.certain (Or.inl hfinal) hbase hle
  · rintro (⟨hlive, -⟩ | ⟨hguarded, -⟩)
    · refine hlive ⟨Nat.le_trans hbase (le_skipWhile ..), ?_⟩
      have hskip : set.stream.skipWhile (· == .newline) position ≤ P.stop :=
        Nat.le_of_not_lt fun hlt => hnewline (beq_iff_eq.1 (isMember_of_lt_skipWhile hle hlt))
      exact (Nat.lt_or_eq_of_le hskip).imp_right fun heq => ⟨heq, hexact⟩
    · exact hguarded (closed_of_exact hexact).guarded

/-! ### The last branch -/

/-- What stands behind the keyword of the last branch. -/
def elseBranch (inner : Nested) (branches : List GuardedBranch) (start : Span) : Parser Expr := do
  let _ ← advance
  skipNewlines
  let otherwise ← inner.expression 0
  return .conditional branches (some otherwise) (← spanFrom start)

/-- The end of a conditional without a last branch. -/
def withoutElse (asStatement : Bool) (branches : List GuardedBranch) (start : Span) :
    Parser Expr := do
  if !asStatement then
    reportError .missingElseBranch "`if` used as an expression needs a final `else` branch"
      (← spanFrom start) []
  return .conditional branches none (← spanFrom start)

/-- The end of a conditional, whose branches have been read. -/
def lastBranch (inner : Nested) (asStatement : Bool) (branches : List GuardedBranch)
    (start : Span) : Parser Expr := do
  let stream ← read
  if stream.elseFollows (← get).position then
    skipNewlines
    elseBranch inner branches start
  else withoutElse asStatement branches start

theorem conditional_eq (inner : Nested) (asStatement : Bool) :
    conditional inner asStatement = (do
      let start := (← expect (.keyword .ifWord) "").span
      let first ← guardedBranch inner start
      let more ← collectWhile (do return (← isAt .newline) && (← newlineContinuesIf)) do
        skipNewlines
        guardedBranch inner (← current).span
      lastBranch inner asStatement (first :: more) start) := rfl

section

variable (hinner : set.Nests inner) (hmirrors : P.NestsAlike inner)

theorem agrees_withoutElse {asStatement : Bool} {branches : List GuardedBranch} {span : Span}
    {waived : Expr → ParserState → Prop} (hbase : P.base < state.position) :
    P.Agrees waived (withoutElse asStatement branches span)
      (withoutElse asStatement (P.relocation.move branches) (span.relocate P.relocation)) state := by
  have hend : ∀ s, P.base < s.position → P.Agrees waived
      (do
        let place ← spanFrom span
        return Expr.conditional branches none place)
      (do
        let place ← spanFrom (span.relocate P.relocation)
        return Expr.conditional (P.relocation.move branches) none place) s :=
    fun s hbase => .step (.spanFrom hbase) (.spanFrom fun _ => .pure (by simp))
  refine .ite (fun _ => .step (.spanFrom hbase) (.spanFrom fun _ => ?_)) fun _ => hend state hbase
  exact .step .reportError (.report (hend _ hbase))

include hinner hmirrors

theorem agrees_elseBranch {branches : List GuardedBranch} {span : Span}
    {waived : Expr → ParserState → Prop} (hloud : Loud true state)
    (hlt : state.position < set.stream.size) (hbase : P.base < state.position)
    (hkind : set.stream.kind state.position = .keyword .elseWord) :
    P.Agrees waived (elseBranch inner branches span)
      (elseBranch inner (P.relocation.move branches) (span.relocate P.relocation)) state := by
  refine .step (.advance (inner_of_kind hkind rfl))
    ((Reached.refl hlt).advancePlain hkind rfl fun s₁ h₁ _ => ?_)
  refine .bind_skipNewlines (h₁.skipNewlines fun s₂ h₂ _ => ⟨?_, fun hboundary =>
    (hmirrors.rejects 0 s₂ hboundary).bind⟩)
  refine .bind ((hmirrors.expression 0).at hloud h₂)
    (h₂.call (hinner.expression 0 s₂ h₂.lt) fun otherwise s₃ h₃ => ?_)
  exact .step (.spanFrom (Nat.lt_of_lt_of_le hbase h₃.within.le)) (.spanFrom fun _ => .pure (by simp))

/-- At an uncertain place either the last branch lies behind the stretch, or there is none, and
what is wrong with that has been reported. -/
theorem not_seen_lastBranch {asStatement : Bool} {branches : List GuardedBranch} {span : Span}
    (hloud : Loud true state) (hlt : state.position < set.stream.size)
    (hbase : P.base < state.position) (huncertain : P.Uncertain state.position)
    (hreports : P.reported.length ≤ state.log.count) :
    ¬P.Seen (fun answer final => asStatement = true ∧ answer.lacksElse = true ∧
        P.Uncertain final.position)
      (lastBranch inner asStatement branches span set.stream state) := by
  refine not_seen_of_lost (.bind (.read (.bind (.get (.ite (fun hfollows => ?_) fun _ => ?_)))))
  · have hkind := follows_kind hfollows
    refine .bind ((Reached.refl hlt).skipNewlines fun s₁ h₁ hposition => ?_)
    have hpast : P.stop < s₁.position := by
      rw [hposition]
      exact huncertain.stop_lt (Nat.le_of_lt hbase) (Or.inr hfollows)
    have hbranch : P.Agrees never (elseBranch inner branches span) _ s₁ :=
      agrees_elseBranch hinner hmirrors (hloud.reached h₁) h₁.lt
        (Nat.lt_of_lt_of_le hbase h₁.within.le) (hposition ▸ hkind)
    have hforward := Nat.lt_of_lt_of_le hpast hbranch.forward
    unfold Setting.Runs
    revert hforward
    generalize elseBranch inner branches span set.stream s₁ = run
    obtain ⟨result, final⟩ := run
    cases result with
    | ok answer => exact fun hforward => Or.inl (Or.inl hforward)
    | error abort => exact fun hforward => Or.inl hforward
  · refine .ite (fun hasked => ?_) fun hstatement => ?_
    · refine .bind (.spanFrom fun place => .bind (.report (.bind (.spanFrom fun _ => .pure ?_))))
      rcases Nat.lt_or_ge P.stop state.position with hpast | hle
      · exact Or.inl (Or.inl hpast)
      · have hfixed : ¬P.Fixed := fun hfixed =>
          hfixed.certain (Nat.le_of_lt hbase) hle huncertain
        have hmuted : state.log.muted = 0 := hloud rfl
        refine Or.inl (Or.inr ⟨hfixed, (Log.report_muted ..).trans hmuted, .errorAt
          .missingElseBranch "`if` used as an expression needs a final `else` branch" place [] [], ?_,
          rfl⟩)
        rw [Log.count, ← Array.length_toList] at hreports
        simp only [Log.report, hmuted, if_true, Array.toList_push]
        rw [List.drop_append_of_le_length hreports]
        exact List.mem_append_right _ (List.mem_singleton.2 rfl)
    · refine .bind (.spanFrom fun _ => .pure (Or.inr ⟨?_, rfl, huncertain⟩))
      simpa using hstatement

theorem agrees_lastBranch {asStatement : Bool} {branches : List GuardedBranch} {span : Span}
    (hloud : Loud true state) (hlt : state.position < set.stream.size)
    (hbase : P.base < state.position) (hreports : P.reported.length ≤ state.log.count) :
    P.Agrees (fun answer final => asStatement = true ∧ answer.lacksElse = true ∧
        P.Uncertain final.position)
      (lastBranch inner asStatement branches span)
      (lastBranch inner asStatement (P.relocation.move branches) (span.relocate P.relocation))
      state := by
  -- what is seen on the other side is the same, or nothing is claimed of what follows
  refine .congr
    (if set.stream.elseFollows state.position then do
      skipNewlines
      elseBranch inner branches span
    else withoutElse asStatement branches span)
    (if set.stream.elseFollows state.position then do
      skipNewlines
      elseBranch inner (P.relocation.move branches) (span.relocate P.relocation)
    else withoutElse asStatement (P.relocation.move branches) (span.relocate P.relocation))
    rfl (fun right hrelated hseen => ?_) (.ite (fun hfollows => ?_) fun _ => ?_)
  · have hcertain : ¬P.Uncertain state.position := fun huncertain =>
      not_seen_lastBranch hinner hmirrors hloud hlt hbase huncertain hreports hseen
    rw [← (follows_place hrelated.base_le hrelated.le_stop hcertain).2, ← hrelated.position_eq]
    rfl
  · have hkind := follows_kind hfollows
    refine .bind_skipNewlines ((Reached.refl hlt).skipNewlines fun s₁ h₁ hposition =>
      ⟨?_, fun hboundary => ?_⟩)
    · exact agrees_elseBranch hinner hmirrors (hloud.reached h₁) h₁.lt
        (Nat.lt_of_lt_of_le hbase h₁.within.le) (hposition ▸ hkind)
    · rw [hposition, hkind] at hboundary
      cases hboundary
  · exact agrees_withoutElse hbase

/-! ### Branches -/

theorem agrees_guardedBranch {span : Span} {waived : GuardedBranch → ParserState → Prop}
    (hloud : Loud true state) (hlt : state.position < set.stream.size)
    (hbase : P.base ≤ state.position) :
    P.Agrees waived (guardedBranch inner span) (guardedBranch inner (span.relocate P.relocation))
      state := by
  refine .bind (hmirrors.expression 0 state hlt hloud)
    ((Reached.refl hlt).call (hinner.expression 0 state hlt) fun condition s₁ h₁ => ?_)
  refine .bind (.expect rfl) (h₁.expectPlain rfl fun _ s₂ h₂ => ?_)
  refine .bind_skipNewlines (h₂.skipNewlines fun s₃ h₃ _ => ⟨?_, fun hboundary =>
    (hmirrors.rejects 0 s₃ hboundary).bind⟩)
  refine .bind ((hmirrors.expression 0).at hloud h₃)
    (h₃.call (hinner.expression 0 s₃ h₃.lt) fun body s₄ h₄ => ?_)
  exact .step (.spanFrom (Nat.lt_of_le_of_lt hbase (h₄.progress rfl)))
    (.spanFrom fun _ => .pure (by simp))

omit hinner hmirrors in
/-- The test whether another branch follows. -/
theorem runs_continuesIf (hlt : state.position < set.stream.size) :
    set.Runs (do return (← isAt .newline) && (← newlineContinuesIf)) state
      (fun more final => set.Reached state false [] final ∧
        if more = true then set.stream.continuesIf final.position = true else True)
      (set.Stops state) := by
  unfold Setting.Runs
  rw [continuesIf_apply]
  refine ⟨.refl hlt, ?_⟩
  split
  · assumption
  · trivial

omit hinner hmirrors in
theorem agrees_continuesIf (hlt : state.position < set.stream.size) :
    P.Agrees (fun _ final => P.Uncertain final.position)
      (do return (← isAt .newline) && (← newlineContinuesIf))
      (do return (← isAt .newline) && (← newlineContinuesIf)) state := by
  by_cases huncertain : P.Uncertain state.position
  · have hproceeds : set.Proceeds false _ state :=
      (runs_continuesIf hlt).mono (fun _ _ h => h.1) fun _ _ h => h
    refine .of_unseen hproceeds (not_seen_of_lost ?_)
    unfold Setting.Runs
    rw [continuesIf_apply]
    exact Or.inr huncertain
  · refine .look (continuesIf_apply ..) fun right hrelated => ?_
    rw [continuesIf_apply, hrelated.position_eq,
      (follows_place hrelated.base_le hrelated.le_stop huncertain).1]
    rfl

theorem agrees_conditional {asStatement : Bool} (hloud : Loud true state)
    (hlt : state.position < set.stream.size) :
    P.Agrees (fun answer final => asStatement = true ∧ answer.lacksElse = true ∧
        P.Uncertain final.position)
      (conditional inner asStatement) (conditional inner asStatement) state := by
  have hobeys : set.Proceeds true (conditional inner asStatement) state :=
    obeys_conditional hinner state hlt
  rcases Nat.lt_or_ge state.log.count P.reported.length with hfewer | hreports
  · refine .of_run hobeys fun right hrelated _ => ?_
    obtain ⟨reports, heq, -⟩ := hrelated.reports
    rw [Log.count, ← Array.length_toList, heq, List.length_append] at hfewer
    omega
  refine .of_live hobeys
    (fun hboundary => (rejects_expect (TokenKind.ne_of_isBoundary hboundary rfl)).bind)
    fun hlive => ?_
  have hbranch : ∀ {span}, set.Obeys true (guardedBranch inner span) :=
    obeys_guardedBranch hinner
  rw [conditional_eq]
  refine .bind (.expect rfl) ((Reached.refl hlt).expectPlain rfl fun _ s₁ h₁ => ?_)
  refine .bind (agrees_guardedBranch hinner hmirrors (hloud.reached h₁) h₁.lt
    (base_le_of_reached h₁ hlive)) (h₁.call (hbranch s₁ h₁.lt) fun first s₂ h₂ => ?_)
  have hline : ∀ s, set.Reached s₂ false [] s → set.stream.continuesIf s.position = true →
      set.Proceeds true (do
        skipNewlines
        guardedBranch inner (← current).span) s := fun s hs _ => by
    refine .bind ((Reached.refl hs.lt).skipNewlines fun s₃ h₃ _ => ?_)
    exact .bind (.current (h₃.call (hbranch s₃ h₃.lt) fun _ _ h₄ => h₄))
  refine .bind_waived (.collect _ (fun _ => False)
    (fun s hs => runs_continuesIf hs.lt) hline (fun s hs => agrees_continuesIf hs.lt)
    (fun s hs hcontinues => ?_) (fun s hs hcontinues huncertain => ?_) (fun _ _ => False.elim)
    h₂.lt (base_le_of_reached h₂ hlive))
    (h₂.loop (runs_collectWhile (fun s hs => runs_continuesIf hs.lt) hline h₂.lt)
      fun more s₃ h₃ _ => ⟨?_, fun huncertain => ?_⟩)
  · have hkind := branch_kind hcontinues
    refine .bind_skipNewlines ((Reached.refl hs.lt).skipNewlines fun s₃ h₃ hposition =>
      ⟨?_, fun hboundary => ?_⟩)
    · rw [← hposition] at hkind
      refine .step (.current (inner_of_not_boundary hkind).shown) (.current ?_)
      exact agrees_guardedBranch hinner hmirrors (((hloud.reached h₂).reached hs).reached h₃) h₃.lt
        (base_le_of_reached (h₂.trans (hs.trans h₃)) hlive)
    · rw [hposition, hkind] at hboundary
      cases hboundary
  · refine .bind ((Reached.refl hs.lt).skipNewlines fun s₃ h₃ hposition => ?_)
    have hpast : P.stop < s₃.position := by
      rw [hposition]
      exact huncertain.stop_lt (base_le_of_reached (h₂.trans hs) hlive) (Or.inl hcontinues)
    exact .bind (.current ((hbranch s₃ h₃.lt).mono
      (fun _ _ h₄ => Nat.lt_of_lt_of_le hpast h₄.within.le)
      fun _ _ hstops => Nat.lt_of_lt_of_le hpast hstops.within.le))
  · exact agrees_lastBranch hinner hmirrors (hloud.reached h₃) h₃.lt
      (base_lt_of_reached h₃ hlive) (Nat.le_trans hreports h₃.follows.count_le)
  · exact not_seen_lastBranch hinner hmirrors (hloud.reached h₃) h₃.lt
      (base_lt_of_reached h₃ hlive) huncertain (Nat.le_trans hreports h₃.follows.count_le)

end

end Parallel

end SableFrontend
