import SableFrontend.Proofs.Parallel.Conditional

/-!
Cases, applications and operators on two streams, given that what they nest does the same on both.
-/

namespace SableFrontend.Parallel

open TokenStream Parser Setting

variable {set : Setting} {P : Parallel set} {start state : ParserState} {inner : Nested}
  (hinner : set.Nests inner) (hmirrors : P.NestsAlike inner)

/-! ### Cases -/

theorem agrees_checkArity {waived : Unit → ParserState → Prop} {scrutinees : Nat} {clause : Clause} :
    P.Agrees waived (checkArity scrutinees clause)
      (checkArity scrutinees (clause.relocate P.relocation)) state := by
  unfold checkArity
  rw [Clause.relocate_patterns, Clause.relocate_span, List.length_map]
  exact .ite (fun _ => .pure rfl) fun _ => .reportError

theorem rejects_scrutinee (hmirrors : P.NestsAlike inner)
    (hboundary : (set.stream.kind state.position).isBoundary = true) :
    set.Rejects (scrutinee inner) state :=
  (hmirrors.rejects 0 state hboundary).bind

/-- The test for another scrutinee succeeds wherever an item may end. -/
theorem rejects_scrutinees (hmirrors : P.NestsAlike inner)
    (hboundary : (set.stream.kind state.position).isBoundary = true) :
    set.Runs (do return !(← isAt (.opener .square))) state
      (fun more final => more = true ∧ final.position = state.position ∧
        set.Rejects (scrutinee inner) final) fun _ _ => False := by
  refine .bind (.isAt (.pure ⟨?_, rfl, rejects_scrutinee hmirrors hboundary⟩))
  rw [beq_eq_false_iff_ne.2 (TokenKind.ne_of_isBoundary hboundary rfl)]
  rfl

include hinner hmirrors

/-- Behind a scrutinee nothing is claimed of the end of the stretch, if it need not be the same. -/
theorem agrees_scrutinee (hloud : Loud true state) (hlt : state.position < set.stream.size) :
    P.Agrees (fun _ final => P.exact = false ∧ final.position = P.stop) (scrutinee inner)
      (scrutinee inner) state := by
  refine .bind (hmirrors.expression 0 state hlt hloud)
    ((Reached.refl hlt).call (hinner.expression 0 state hlt) fun value s₁ h₁ => ?_)
  refine .bind (.expect rfl) (h₁.expectPlain rfl fun _ s₂ h₂ => ?_)
  have hend : set.Runs skipNewlines s₂
      (fun _ final => P.Agrees (fun _ final => P.exact = false ∧ final.position = P.stop)
        (pure value) (pure (P.relocation.move value)) final ∧
        (P.exact = false ∧ final.position = P.stop → ¬P.Seen
          (fun _ final => P.exact = false ∧ final.position = P.stop)
          ((pure value : Parser Expr) set.stream final))) (set.Stops state) :=
    h₂.skipNewlines fun s₃ h₃ _ => ⟨.pure rfl, fun hwaived hseen => hseen.2 hwaived⟩
  exact .bind_waived .skipNewlines_to_stop hend

theorem mirrors_caseExpr : P.Mirrors true (caseExpr inner) := by
  intro state hlt hloud
  refine .of_live (obeys_caseExpr hinner state hlt)
    (fun hboundary => (rejects_expect (TokenKind.ne_of_isBoundary hboundary rfl)).bind)
    fun hlive => ?_
  have hdeep := fun {moved s} (h : set.Reached state moved [.square] s) => deep_of_reached h hlive
  have hscrutinee := obeys_scrutinee hinner
  refine .bind (.expect rfl) ((Reached.refl hlt).expectPlain rfl fun _ s₁ h₁ => ?_)
  refine .bind_waived (agrees_scrutinee hinner hmirrors (hloud.reached h₁) h₁.lt)
    (h₁.call (hscrutinee s₁ h₁.lt) fun first s₂ h₂ => ⟨?_, fun hhidden => ?_⟩)
  · refine .bind (.mono (.collect (fun _ => False) _
      (fun _ hs => runs_isNotAt hs.lt) (fun s hs _ => hscrutinee s hs.lt)
      (fun _ _ => agrees_isNotAt rfl)
      (fun s hs _ => agrees_scrutinee hinner hmirrors ((hloud.reached h₂).reached hs) hs.lt)
      (fun _ _ _ => False.elim) (fun s hs hhidden => ⟨hhidden.1, hhidden.2,
        rejects_scrutinees hmirrors (hhidden.2 ▸ kind_stop)⟩) h₂.lt (base_le_of_reached h₂ hlive))
      fun _ _ => False.elim)
      (h₂.loop (runs_collectWhile (fun _ hs => runs_isNotAt hs.lt)
        (fun s hs _ => hscrutinee s hs.lt) h₂.lt) fun more s₃ h₃ hopener => ?_)
    refine .step (.advance (inner_of_kind hopener rfl))
      (h₃.advanceOpener hopener fun s₄ h₄ hopens _ => ?_)
    refine .bind (.items h₄.lt hopens (obeys_clause hinner) (mirrorsInside_clause hinner hmirrors)
      (hloud.reached h₄) (base_le_of_reached h₄ hlive) (hdeep h₄).sheltered)
      (h₄.items hopens (obeys_clause hinner) fun clauses s₅ h₅ _ => ?_)
    refine .bind (.expectCloser (hdeep h₅)) (h₅.expectCloser fun _ s₆ h₆ => ?_)
    have hcount : (P.relocation.move first :: P.relocation.move more).length =
        (first :: more).length := congrArg (· + 1) (List.length_map _)
    dsimp only
    rw [hcount]
    refine .step (.forM fun clause s => agrees_checkArity)
      (h₆.forM (fun clause _ _ _ hs next => hs.checkArity next) fun s₇ h₇ => ?_)
    exact .step (.spanFrom (base_lt_of_reached h₇ hlive)) (.spanFrom fun _ => .pure (by simp))
  · exact not_seen_of_rejects (rejects_collectWhile (rejects_scrutinees hmirrors
      (hhidden.2 ▸ kind_stop))).bind hhidden.1 hhidden.2

/-! ### Applications -/

omit hinner hmirrors in
theorem rejects_application (hboundary : (set.stream.kind state.position).isBoundary = true) :
    set.Rejects (application inner) state := by
  have hword : ∀ {word : Keyword}, (set.stream.kind state.position == .keyword word) = false :=
    beq_eq_false_iff_ne.2 (TokenKind.ne_of_isBoundary hboundary rfl)
  refine Runs.bind (.current (.ite (fun hif => ?_) fun _ => .ite (fun hcase => ?_) fun _ => ?_))
  · exact nomatch hword.symm.trans hif
  · exact nomatch hword.symm.trans hcase
  · exact (rejects_postfixExpr hboundary).bind

theorem mirrors_application (hwarns : set.Warns) : P.Mirrors true (application inner) := by
  intro state hlt hloud
  refine .of_live (obeys_application hwarns hinner state hlt) rejects_application fun hlive => ?_
  have hpostfixed := obeys_postfixExpr hwarns hinner
  have hmirrored := mirrors_postfixExpr hinner hmirrors hwarns
  refine .step (.current hlive.shown) (.current (.ite (fun _ => ?_) fun _ => .ite (fun _ => ?_)
    fun _ => ?_))
  · exact (agrees_conditional hinner hmirrors hloud hlt).mono fun _ _ hwaived => nomatch hwaived.1
  · exact mirrors_caseExpr hinner hmirrors state hlt hloud
  · refine .bind (hmirrored state hlt hloud)
      ((Reached.refl hlt).call (hpostfixed state hlt) fun function s₁ h₁ => ?_)
    refine .repeatWhile (fun s hs => (obeys_startsArgument s hs.lt).test) (fun function s hs _ => ?_)
      (fun s hs => agrees_startsArgument (base_lt_of_reached (h₁.trans hs) hlive))
      (fun function s hs _ => ?_) h₁.lt (base_le_of_reached h₁ hlive)
    · exact .bind ((Reached.refl hs.lt).call (hpostfixed s hs.lt) fun argument s₂ h₂ => .pure h₂)
    · refine .bind (hmirrored.at (hloud.reached h₁) hs)
        ((Reached.refl hs.lt).call (hpostfixed s hs.lt) fun argument s₂ h₂ => .pure ?_)
      simp [Relocation.move, Relocatable.relocate]

/-! ### Operators -/

omit hinner hmirrors in
theorem rejects_operand (hboundary : (set.stream.kind state.position).isBoundary = true) :
    set.Rejects (operand inner) state := by
  refine Runs.bind (.current (.ite (fun hprefix => ?_) fun _ => rejects_application hboundary))
  exact absurd (beq_iff_eq.1 (Bool.and_eq_true_iff.1 hprefix).1)
    (TokenKind.ne_of_isBoundary hboundary rfl)

theorem mirrors_operand (hwarns : set.Warns) : P.Mirrors true (operand inner) := by
  intro state hlt hloud
  refine .of_live (obeys_operand hwarns hinner state hlt) rejects_operand fun hlive => ?_
  refine .step (.current hlive.shown) (.current (.ite (fun hprefix => ?_) fun _ => ?_))
  · have hkind := beq_iff_eq.1 (Bool.and_eq_true_iff.1 hprefix).1
    refine .step (.advance (inner_of_kind hkind rfl))
      ((Reached.refl hlt).advancePlain hkind rfl fun s₁ h₁ _ => ?_)
    exact .bind (hmirrors.operand.at hloud h₁)
      (h₁.call (hinner.operand s₁ h₁.lt) fun value s₂ h₂ => .pure (by simp))
  · exact mirrors_application hinner hmirrors hwarns state hlt hloud

theorem agrees_climb {soFar : Climb} (hloud : Loud true state)
    (hlt : state.position < set.stream.size) (hkind : set.stream.kind state.position = .operator) :
    P.Agrees never (climb inner soFar) (climb inner (soFar.relocate P.relocation)) state := by
  have hin : P.Inner state.position := inner_of_kind hkind rfl
  refine .step (.current hin.shown) (.current (.ite (fun _ => .failWith_bind) fun _ => ?_))
  refine .step (.advance hin) ((Reached.refl hlt).advancePlain hkind rfl fun s₁ h₁ _ => ?_)
  refine .bind_skipNewlines (h₁.skipNewlines fun s₂ h₂ _ => ⟨?_, fun hboundary =>
    (hmirrors.rejects _ s₂ hboundary).bind⟩)
  refine .bind ((hmirrors.expression _).at hloud h₂)
    (h₂.call (hinner.expression _ s₂ h₂.lt) fun right s₃ h₃ => .pure ?_)
  simp [Climb.relocate]

omit hinner hmirrors in
theorem rejects_expression {minPower : Nat}
    (hboundary : (set.stream.kind state.position).isBoundary = true) :
    set.Rejects (expression inner minPower) state :=
  (rejects_operand hboundary).bind

theorem mirrors_expression (hwarns : set.Warns) {minPower : Nat} :
    P.Mirrors true (expression inner minPower) := by
  intro state hlt hloud
  refine .of_live (obeys_expression hwarns hinner state hlt) rejects_expression fun hlive => ?_
  refine .bind (mirrors_operand hinner hmirrors hwarns state hlt hloud)
    ((Reached.refl hlt).call (obeys_operand hwarns hinner state hlt) fun first s₁ h₁ => ?_)
  have hclimb : ∀ (soFar : Climb) s, set.Reached s₁ false [] s →
      set.stream.kind s.position = .operator → set.Proceeds true (climb inner soFar) s :=
    fun _ s hs hkind => proceeds_climb hinner hs.lt hkind
  refine .bind (.repeatWhile (fun _ hs => runs_startsOperator hs.lt) hclimb
    (fun _ _ => agrees_startsOperator)
    (fun _ s hs hkind => agrees_climb hinner hmirrors ((hloud.reached h₁).reached hs) hs.lt hkind)
    h₁.lt (base_le_of_reached h₁ hlive))
    (h₁.loop (runs_repeatWhile (fun _ hs => runs_startsOperator hs.lt) hclimb h₁.lt)
      fun whole s₂ h₂ _ => .pure rfl)

end SableFrontend.Parallel
