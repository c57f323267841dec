import SableFrontend.Proofs.Parallel.Loops

/-!
The productions of patterns on two streams. A pattern looks at most one token ahead, and skips line
breaks only inside of brackets, so it sees nothing of what is behind the stretch that it ends in.
-/

namespace SableFrontend

/-- No number may end an item. -/
theorem TokenKind.isNumeric_of_isLimit {kind : TokenKind} (h : kind.isLimit = true) :
    kind.isNumeric = false := by
  rcases TokenKind.eq_of_isLimit h with rfl | rfl | ⟨bracket, rfl⟩ | rfl | rfl | rfl <;> rfl

theorem TokenKind.isNumeric_of_isBoundary {kind : TokenKind} (h : kind.isBoundary = true) :
    kind.isNumeric = false :=
  isNumeric_of_isLimit (isLimit_of_isBoundary h)

namespace Parallel

open TokenStream Parser Setting

variable {set : Setting} {P : Parallel set} {state : ParserState} {inner : Parser Pattern}

/-! ### What begins a pattern -/

/-- The kinds that begin a pattern atom by themselves. -/
def opensPatternAtom : TokenKind → Bool
  | .literal _ | .identifier | .typeIdentifier | .opener .round | .opener .curly => true
  | _ => false

theorem startsPatternAtom_apply (stream : TokenStream) :
    startsPatternAtom stream state =
      (.ok (opensPatternAtom (stream.token state.position).kind ||
        (stream.token state.position).isOperator "-" &&
          (stream.token (state.position + 1)).kind.isNumeric), state) := by
  show (match (stream.token state.position).kind with
    | .literal _ | .identifier | .typeIdentifier | .opener .round | .opener .curly => return true
    | _ => return (stream.token state.position).isOperator "-" && (← peek 1).kind.isNumeric
      : Parser Bool) stream state = _
  cases (stream.token state.position).kind with
  | opener bracket => cases bracket <;> rfl
  | _ => rfl

theorem agrees_startsPatternAtom {waived : Bool → ParserState → Prop} :
    P.Agrees waived startsPatternAtom startsPatternAtom state := by
  refine .look (startsPatternAtom_apply _) fun right hrelated => ?_
  have hopens : opensPatternAtom (P.other.token right.position).kind =
      opensPatternAtom (set.stream.token state.position).kind :=
    hrelated.test (.ofKind fun kind h => by
      rcases TokenKind.eq_of_isLimit h with rfl | rfl | ⟨bracket, rfl⟩ | rfl | rfl | rfl <;> rfl)
  have hminus : (P.other.token right.position).isOperator "-" =
      (set.stream.token state.position).isOperator "-" := hrelated.test (.isOperator "-")
  rw [startsPatternAtom_apply, hopens, hminus]
  cases hoperator : (set.stream.token state.position).isOperator "-" with
  | false => rfl
  | true =>
    have hkind := Bool.and_eq_true_iff.1 hoperator
    have hnumeric := hrelated.test_next (inner_of_kind (beq_iff_eq.1 hkind.1) rfl)
      (.ofKind fun _ => TokenKind.isNumeric_of_isLimit)
    rw [hnumeric]
    rfl

theorem rejects_patternAtom (hboundary : (set.stream.kind state.position).isBoundary = true) :
    set.Rejects (patternAtom inner) state := by
  have hne := fun {kind : TokenKind} (hkind : set.stream.kind state.position = kind)
    (hother : kind.isBoundary = false) => TokenKind.ne_of_isBoundary hboundary hother hkind
  refine Runs.bind (.current ?_)
  split
  · next hkind => exact (hne hkind rfl).elim
  · next hkind => exact (hne hkind rfl).elim
  · next hkind => exact (hne hkind rfl).elim
  · next hkind => exact (hne hkind rfl).elim
  · next hkind => exact (hne hkind rfl).elim
  · refine .ite (fun hminus => ?_) fun _ => rejects_unexpected
    exact (hne (beq_iff_eq.1 (Bool.and_eq_true_iff.1 hminus).1) rfl).elim

theorem rejects_pattern (hboundary : (set.stream.kind state.position).isBoundary = true) :
    set.Rejects (pattern inner) state := by
  refine Runs.bind (.current (.bind (.bind (.peek (.bind (.current (.pure ?_)))))))
  refine .ite (fun hconstructor => ?_) fun _ => rejects_patternAtom hboundary
  have hkind := beq_iff_eq.1 (Bool.and_eq_true_iff.1 hconstructor).1
  exact (TokenKind.ne_of_isBoundary hboundary rfl hkind).elim

/-! ### Atoms -/

theorem agrees_negativeLiteral (sign : Token) (hlt : state.position < set.stream.size)
    {waived : Pattern → ParserState → Prop} :
    P.Agrees waived (negativeLiteral sign) (negativeLiteral (sign.relocate P.relocation))
      state := by
  refine .bind_current (.ite (fun _ => .unexpected_bind) fun hnumeric => ?_)
    fun hboundary token htoken => ?_
  · have h : set.Reached state false [] state := .refl hlt
    have hnumber : (set.stream.token state.position).kind.isNumeric = true := by
      simpa using hnumeric
    have hinner : P.Inner state.position := inner_of_not_boundary (by
      refine Bool.eq_false_iff.2 fun hboundary => ?_
      cases hnumber.symm.trans (TokenKind.isNumeric_of_isBoundary hboundary))
    have hplain := TokenKind.isPlain_of_isNumeric hnumber
    refine .step (.advance hinner) (h.advancePlain rfl hplain fun s₁ h₁ _ => ?_)
    refine .bind .literalOf (h₁.literalOf (TokenStream.token_mem hlt) fun literal => .pure ?_)
    simp
  · have hleft := TokenKind.isNumeric_of_isBoundary hboundary
    have hright := TokenKind.isNumeric_of_isLimit htoken
    rw [TokenStream.kind] at hleft
    refine .ite_iff (by rw [hleft, hright]) (fun _ => .unexpected_bind) fun hnumeric => ?_
    rw [hleft] at hnumeric
    exact absurd rfl hnumeric

variable {loud : Bool} (hinner : set.Obeys true inner) (hmirrors : P.Mirrors loud inner)
  (hloud : Loud loud state) (hlive : P.Live state.position)
  (hlt : state.position < set.stream.size)

include hinner hmirrors hloud hlive hlt

theorem agrees_roundPattern (hkind : set.stream.kind state.position = .opener .round) :
    P.Agrees never (roundPattern inner) (roundPattern inner) state := by
  have h : set.Reached state false [] state := .refl hlt
  refine .step (.advance (inner_of_kind hkind rfl)) (h.advanceOpener hkind fun s₁ h₁ _ _ => ?_)
  have hdeep := deep_of_reached h₁ hlive
  refine .step (.isAt (Or.inr hdeep.sheltered.shown)) (.isAt (.ite (fun hclose => ?_) fun _ => ?_))
  · refine .step (.advance hdeep.inner) (h₁.advanceCloser (beq_iff_eq.1 hclose) fun s₂ h₂ => ?_)
    exact .step (.spanFrom (base_lt_of_reached h₂ hlive)) (.spanFrom fun span => .pure (by simp))
  · refine .bind (hmirrors.at hloud h₁) (h₁.call (hinner s₁ h₁.lt) fun first s₂ h₂ => ?_)
    refine .step (.isAt (Or.inl rfl)) (.isAt (.ite (fun _ => ?_) fun _ => ?_))
    · exact .bind (.expectCloser (deep_of_reached h₂ hlive)) (h₂.expectCloser fun _ s₃ h₃ => .pure rfl)
    · refine .bind (.collectBehind rfl rfl hinner (fun _ hs => hmirrors.at (hloud.reached h₂) hs) h₂.lt
        (base_le_of_reached h₂ hlive)) (h₂.collectBehind rfl hinner fun more s₃ h₃ => ?_)
      refine .bind (.expectCloser (deep_of_reached h₃ hlive)) (h₃.expectCloser fun _ s₄ h₄ => ?_)
      exact .step (.spanFrom (base_lt_of_reached h₄ hlive)) (.spanFrom fun _ => .pure (by simp))

theorem agrees_curlyPattern (hkind : set.stream.kind state.position = .opener .curly) :
    P.Agrees never (curlyPattern inner) (curlyPattern inner) state := by
  have h : set.Reached state false [] state := .refl hlt
  refine .step (.advance (inner_of_kind hkind rfl)) (h.advanceOpener hkind fun s₁ h₁ _ _ => ?_)
  have hdeep := deep_of_reached h₁ hlive
  refine .step (.skipNewlines hdeep.sheltered) (h₁.skipNewlines fun s₂ h₂ _ => ?_)
  have hdeep₂ := deep_of_reached h₂ hlive
  refine .step (.isAt (Or.inr hdeep₂.sheltered.shown)) (.isAt (.ite (fun hclose => ?_) fun _ => ?_))
  · refine .step (.advance hdeep₂.inner) (h₂.advanceCloser (beq_iff_eq.1 hclose) fun s₃ h₃ => ?_)
    exact .step (.spanFrom (base_lt_of_reached h₃ hlive)) (.spanFrom fun _ => .pure (by simp))
  · refine .bind (hmirrors.at hloud h₂) (h₂.call (hinner s₂ h₂.lt) fun first s₃ h₃ => ?_)
    refine .step (.skipNewlines (deep_of_reached h₃ hlive).sheltered)
      (h₃.skipNewlines fun s₄ h₄ _ => ?_)
    refine .bind (.collectOnLines rfl rfl hinner (fun _ hs => hmirrors.at (hloud.reached h₄) hs) h₄.lt
      (base_le_of_reached h₄ hlive) (deep_of_reached h₄ hlive).sheltered)
      (h₄.collectOnLines rfl hinner fun more s₅ h₅ => ?_)
    refine .step (.isAt (Or.inl rfl)) (.isAt (.ite (fun hpipe => ?_) fun _ => ?_))
    · refine .step (.advance (inner_of_kind (beq_iff_eq.1 hpipe) rfl))
        (h₅.advancePlain (beq_iff_eq.1 hpipe) rfl fun s₆ h₆ _ => ?_)
      refine .step (.skipNewlines (deep_of_reached h₆ hlive).sheltered)
        (h₆.skipNewlines fun s₇ h₇ _ => ?_)
      refine .bind (hmirrors.at hloud h₇) (h₇.call (hinner s₇ h₇.lt) fun tail s₈ h₈ => ?_)
      refine .step (.skipNewlines (deep_of_reached h₈ hlive).sheltered)
        (h₈.skipNewlines fun s₉ h₉ _ => ?_)
      refine .bind (.expectCloser (deep_of_reached h₉ hlive)) (h₉.expectCloser fun _ s₁₀ h₁₀ => ?_)
      exact .step (.spanFrom (base_lt_of_reached h₁₀ hlive)) (.spanFrom fun _ => .pure (by simp))
    · refine .bind (.expectCloser (deep_of_reached h₅ hlive)) (h₅.expectCloser fun _ s₆ h₆ => ?_)
      exact .step (.spanFrom (base_lt_of_reached h₆ hlive)) (.spanFrom fun _ => .pure (by simp))

theorem agrees_recordPatternItem (hsheltered : P.Sheltered state.position) :
    P.Agrees never (recordPatternItem inner) (recordPatternItem inner) state := by
  have h : set.Reached state false [] state := .refl hlt
  have hpositional : P.Agrees (α := FieldPattern ⊕ Pattern) never
      (do return .inr (← inner)) (do return .inr (← inner)) state :=
    .bind (hmirrors.at hloud h) (h.call (hinner state hlt) fun _ _ _ => .pure rfl)
  refine .step (.current hsheltered.shown) (.current (.ite (fun hname => ?_) fun _ => hpositional))
  have hkind : set.stream.kind state.position = .identifier :=
    beq_iff_eq.1 (Bool.and_eq_true_iff.1 hname).1
  have hin : P.Inner state.position := inner_of_kind hkind rfl
  refine .step (.peek hin (hsheltered.succ hlt (hkind ▸ rfl)).shown)
    (.peek (.ite (fun hassign => ?_) fun _ => .ite (fun _ => ?_) fun _ => hpositional))
  · refine .step (.advance hin) (h.advancePlain hkind rfl fun s₁ h₁ hposition => ?_)
    have hassign : set.stream.kind s₁.position = .assign := by
      rw [hposition]
      exact beq_iff_eq.1 hassign
    refine .step (.advance (inner_of_kind hassign rfl))
      (h₁.advancePlain hassign rfl fun s₂ h₂ _ => ?_)
    refine .step (.skipNewlines (hsheltered.reached h₂)) (h₂.skipNewlines fun s₃ h₃ _ => ?_)
    refine .bind (hmirrors.at hloud h₃) (h₃.call (hinner s₃ h₃.lt) fun pattern s₄ h₄ => ?_)
    exact .step (.spanFrom (base_lt_of_reached h₄ hlive)) (.spanFrom fun _ => .pure (by simp))
  · exact .step (.advance hin) (h.advancePlain hkind rfl fun s₁ h₁ _ => .pure (by simp))

theorem agrees_recordPattern {constructor : Token}
    (hkind : set.stream.kind state.position = .opener .square) :
    P.Agrees never (recordPattern inner constructor)
      (recordPattern inner (constructor.relocate P.relocation)) state := by
  have h : set.Reached state false [] state := .refl hlt
  have hitem : P.MirrorsInside loud (recordPatternItem inner) :=
    fun s hs hloud hsheltered => .of_shown (obeys_recordPatternItem hinner s hs) hsheltered.shown
      fun hlive => agrees_recordPatternItem hinner hmirrors hloud hlive hs hsheltered
  refine .step (.advance (inner_of_kind hkind rfl)) (h.advanceOpener hkind fun s₁ h₁ hopens _ => ?_)
  refine .bind (.items h₁.lt hopens (obeys_recordPatternItem hinner) hitem (hloud.reached h₁)
    (base_le_of_reached h₁ hlive) (deep_of_reached h₁ hlive).sheltered)
    (h₁.items hopens (obeys_recordPatternItem hinner) fun entries s₂ h₂ _ => ?_)
  refine .bind (.expectCloser (deep_of_reached h₂ hlive)) (h₂.expectCloser fun _ s₃ h₃ => ?_)
  refine .step (.spanFrom (base_lt_of_reached h₃ hlive)) (.spanFrom fun span => ?_)
  dsimp only
  rw [P.relocation.move_getLeft, P.relocation.move_getRight]
  generalize entries.filterMap Sum.getLeft? = fields
  generalize entries.filterMap Sum.getRight? = arguments
  cases fields with
  | nil => exact .pure (by simp)
  | cons field fields =>
    cases arguments with
    | nil => exact .pure (by simp)
    | cons argument arguments =>
      simp only [Relocation.move, Relocatable.relocate, List.map_cons, Pattern.relocate_span]
      exact .step .reportError (.report (.pure (by simp)))

omit hlive hloud hlt in
theorem mirrors_patternAtom : P.Mirrors loud (patternAtom inner) := by
  intro state hlt hloud
  refine .of_live (obeys_patternAtom hinner state hlt) rejects_patternAtom fun hlive => ?_
  have h : set.Reached state false [] state := .refl hlt
  refine .step (.current hlive.shown) (.current ?_)
  dsimp only [Relocation.move, Relocatable.relocate, Token.relocate_kind, Token.relocate_value,
    Token.relocate_span, Token.relocate_isOperator]
  split
  · next hkind =>
    refine .step (.advance (inner_of_kind hkind rfl)) (h.advancePlain hkind rfl fun s₁ h₁ _ => ?_)
    exact .ite (fun _ => .pure (by simp)) fun _ => .pure (by simp)
  · next hkind =>
    refine .step (.advance (inner_of_kind hkind rfl)) (h.advancePlain hkind rfl fun s₁ h₁ _ => ?_)
    exact .bind .literalOf (h₁.literalOf (TokenStream.token_mem hlt) fun _ => .pure (by simp))
  · next hkind =>
    have hnot : (set.stream.kind state.position).isBoundary = false := by
      rw [TokenStream.kind, hkind]
      rfl
    refine .step (.advance (inner_of_kind hkind rfl))
      (h.advancePlain hkind rfl fun s₁ h₁ hposition => ?_)
    refine .bind_touching hlive hnot rfl hposition (fun hopener => ?_) (.pure (by simp))
    refine .of_shown (proceeds_recordPattern hinner h₁.lt hopener)
      (inner_of_kind hopener rfl).shown fun hlive => ?_
    exact agrees_recordPattern hinner hmirrors (hloud.reached h₁) hlive h₁.lt hopener
  · next hkind => exact agrees_roundPattern hinner hmirrors hloud hlive hlt hkind
  · next hkind => exact agrees_curlyPattern hinner hmirrors hloud hlive hlt hkind
  · refine .ite (fun hminus => ?_) fun _ => .unexpected
    have hkind : set.stream.kind state.position = .operator :=
      beq_iff_eq.1 (Bool.and_eq_true_iff.1 hminus).1
    refine .step (.advance (inner_of_kind hkind rfl)) (h.advancePlain hkind rfl fun s₁ h₁ _ => ?_)
    exact agrees_negativeLiteral _ h₁.lt

omit hlive hloud hlt in
theorem mirrors_pattern : P.Mirrors loud (pattern inner) := by
  intro state hlt hloud
  refine .of_live (obeys_pattern hinner state hlt) rejects_pattern fun hlive => ?_
  have h : set.Reached state false [] state := .refl hlt
  have hatom := mirrors_patternAtom hinner hmirrors
  refine .step (.current hlive.shown) (.current ?_)
  by_cases hkind : set.stream.kind state.position = .typeIdentifier
  · have hbracket : P.Agrees never recordBracketFollows recordBracketFollows state := by
      refine .look rfl fun right hrelated => ?_
      have hnot : (set.stream.kind state.position).isBoundary = false := hkind ▸ rfl
      have htouching := touching_iff hlive hnot (show (TokenKind.opener .square).isLimit = false from rfl)
        ((hrelated.next (inner_of_kind hkind rfl)).imp And.right id)
      rw [← hrelated.token_eq hlive, ← Bool.eq_iff_iff] at htouching
      exact congrArg (fun verdict => (Except.ok verdict, right)) htouching.symm
    refine .step hbracket (.bind (.peek (.bind (.current (.pure ?_)))))
    refine .ite (fun _ => ?_) fun _ => hatom.at hloud h
    refine .step (.advance (inner_of_kind hkind rfl)) (h.advancePlain hkind rfl fun s₁ h₁ _ => ?_)
    refine .bind (.collectWhile (fun _ hs => (obeys_startsPatternAtom _ hs.lt).test)
      (fun _ hs _ => obeys_patternAtom hinner _ hs.lt) (fun _ _ => agrees_startsPatternAtom)
      (fun _ hs _ => hatom.at (hloud.reached h₁) hs) h₁.lt (base_le_of_reached h₁ hlive))
      (h₁.collectWhile obeys_startsPatternAtom (obeys_patternAtom hinner) fun arguments s₂ h₂ => ?_)
    exact .step (.spanFrom (base_lt_of_reached h₂ hlive)) (.spanFrom fun _ => .pure (by simp))
  · refine .bind_any (fun _ _ => ⟨_, rfl⟩) fun _ _ => ?_
    have hnot : ∀ {other}, ((set.stream.kind state.position == .typeIdentifier) && other) = true →
        False := fun hand => hkind (beq_iff_eq.1 (Bool.and_eq_true_iff.1 hand).1)
    refine .ite_iff ⟨fun hand => (hnot hand).elim, fun hand => (hnot hand).elim⟩
      (fun hand => (hnot hand).elim) fun _ => hatom.at hloud h

omit hinner hmirrors hloud hlive hlt in
/-- Patterns do the same on both streams, however deep they may nest. -/
theorem mirrors_patternAt (hdeep : set.allows .tooDeep) (budget : Nat) :
    P.Mirrors loud (patternAt budget) := by
  induction budget with
  | zero => exact fun state _ _ => .throw
  | succ budget ih => exact mirrors_pattern (obeys_patternAt hdeep budget) ih

end Parallel

end SableFrontend
