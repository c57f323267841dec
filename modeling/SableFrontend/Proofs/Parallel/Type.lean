import SableFrontend.Proofs.Parallel.Loops

/-!
The productions of types on two streams. The sign of a context is looked for ahead of the type, but
not past what ends the item that the type stands in; a colon does not end it, so nothing is claimed
of a type in front of one (`Clear`). Behind an arrow line breaks are skipped; if they lead up to the
end of the stretch, no type can follow.
-/

namespace SableFrontend.Parallel

open TokenStream Parser Setting

variable {set : Setting} {P : Parallel set} {state : ParserState}
  {inner : TypeRule → Parser TypeExpr}

/-! ### Looking -/

theorem opensTypeAtom_of_isLimit {kind : TokenKind} (h : kind.isLimit = true) :
    opensTypeAtom kind = false := by
  rcases TokenKind.eq_of_isLimit h with rfl | rfl | ⟨bracket, rfl⟩ | rfl | rfl | rfl <;> rfl

theorem agrees_startsTypeAtom {waived : Bool → ParserState → Prop} :
    P.Agrees waived startsTypeAtom startsTypeAtom state :=
  .isAtAny fun _ => opensTypeAtom_of_isLimit

theorem agrees_contextAhead {waived : Bool → ParserState → Prop}
    (hclear : P.Clear state.position) :
    P.Agrees waived contextAhead contextAhead state := by
  refine .look rfl fun right hrelated => ?_
  have hahead := arrowAhead_place hrelated.base_le hrelated.le_stop hclear
  rw [← hrelated.position_eq] at hahead
  exact congrArg (fun verdict => (Except.ok verdict, right)) hahead

/-! ### Where no type can begin -/

section

variable (hboundary : (set.stream.kind state.position).isBoundary = true)

include hboundary

theorem rejects_typeAtom : set.Rejects (typeAtom inner) state := by
  have hne := fun {kind : TokenKind} (hkind : set.stream.kind state.position = kind)
    (hother : kind.isBoundary = false) => TokenKind.ne_of_isBoundary hboundary hother hkind
  refine Runs.bind (.current ?_)
  split
  · next hkind => exact (hne hkind rfl).elim
  · next hkind => exact (hne hkind rfl).elim
  · next hkind => exact (hne hkind rfl).elim
  · exact rejects_unexpected

theorem rejects_appliedType : set.Rejects (appliedType inner) state :=
  Runs.bind (.current (rejects_typeAtom hboundary).bind)

theorem rejects_typeApplication : set.Rejects (typeApplication inner) state := by
  refine Runs.bind (.isAt (.ite (fun hopener => ?_) fun _ => rejects_appliedType hboundary))
  exact (TokenKind.ne_of_isBoundary hboundary rfl (beq_iff_eq.1 hopener)).elim

theorem rejects_arrowType : set.Rejects (arrowType inner) state :=
  Runs.bind (.current (rejects_typeApplication hboundary).bind)

theorem rejects_constraint : set.Rejects (constraint inner) state :=
  (rejects_expect (TokenKind.ne_of_isBoundary hboundary rfl)).bind

theorem rejects_context : set.Rejects (context inner) state := by
  refine Runs.bind (.isAt (.ite (fun hopener => ?_) fun _ => (rejects_constraint hboundary).bind))
  exact (TokenKind.ne_of_isBoundary hboundary rfl (beq_iff_eq.1 hopener)).elim

theorem rejects_typeExpr : set.Rejects (typeExpr inner) state := by
  refine Runs.bind (.current (.bind (.contextAhead fun _ => .ite (fun _ => ?_) fun _ => ?_)))
  · exact (rejects_context hboundary).bind
  · exact rejects_arrowType hboundary

end

/-! ### Productions -/

variable {loud : Bool} (hinner : ∀ rule, set.Obeys true (inner rule))
  (hmirrors : ∀ rule, P.MirrorsClear loud (inner rule))

include hinner hmirrors

theorem agrees_roundType (hloud : Loud loud state) (hlive : P.Live state.position)
    (hlt : state.position < set.stream.size)
    (hkind : set.stream.kind state.position = .opener .round) :
    P.Agrees never (roundType inner) (roundType inner) state := by
  have h : set.Reached state false [] state := .refl hlt
  refine .step (.advance (inner_of_kind hkind rfl)) (h.advanceOpener hkind fun s₁ h₁ _ _ => ?_)
  have hdeep := deep_of_reached h₁ hlive
  refine .step (.isAt (Or.inr hdeep.sheltered.shown)) (.isAt (.ite (fun hclose => ?_) fun _ => ?_))
  · refine .step (.advance hdeep.inner) (h₁.advanceCloser (beq_iff_eq.1 hclose) fun s₂ h₂ => ?_)
    exact .step (.spanFrom (base_lt_of_reached h₂ hlive)) (.spanFrom fun _ => .pure (by simp))
  · refine .bind ((hmirrors .type).mirrorsInside s₁ h₁.lt (hloud.reached h₁) hdeep.sheltered)
      (h₁.call (hinner .type s₁ h₁.lt) fun first s₂ h₂ => ?_)
    refine .step (.isAt (Or.inl rfl)) (.isAt (.ite (fun _ => ?_) fun _ => ?_))
    · exact .bind (.expectCloser (deep_of_reached h₂ hlive)) (h₂.expectCloser fun _ s₃ h₃ => .pure rfl)
    · refine .bind (.collectBehind rfl rfl (hinner .type)
        (fun _ hs => (hmirrors .type).at (hloud.reached h₂)
          (deep_of_reached h₂ hlive).sheltered.clear hs) h₂.lt
        (base_le_of_reached h₂ hlive)) (h₂.collectBehind rfl (hinner .type) fun more s₃ h₃ => ?_)
      refine .bind (.expectCloser (deep_of_reached h₃ hlive)) (h₃.expectCloser fun _ s₄ h₄ => ?_)
      exact .step (.spanFrom (base_lt_of_reached h₄ hlive)) (.spanFrom fun _ => .pure (by simp))

theorem mirrors_typeAtom : P.MirrorsClear loud (typeAtom inner) := by
  intro state hlt hloud hclear
  refine .of_live (obeys_typeAtom hinner state hlt) rejects_typeAtom fun hlive => ?_
  have h : set.Reached state false [] state := .refl hlt
  refine .step (.current hlive.shown) (.current ?_)
  dsimp only [Relocation.move, Relocatable.relocate, Token.relocate_kind, Token.relocate_value,
    Token.relocate_span]
  split
  · next hkind =>
    exact .step (.advance (inner_of_kind hkind rfl))
      (h.advancePlain hkind rfl fun s₁ h₁ _ => .pure (by simp))
  · next hkind =>
    exact .step (.advance (inner_of_kind hkind rfl))
      (h.advancePlain hkind rfl fun s₁ h₁ _ => .pure (by simp))
  · next hkind => exact agrees_roundType hinner hmirrors hloud hlive hlt hkind
  · exact .unexpected

theorem mirrors_appliedType : P.MirrorsClear loud (appliedType inner) := by
  intro state hlt hloud hclear
  refine .of_live (obeys_appliedType hinner state hlt) rejects_appliedType fun hlive => ?_
  have h : set.Reached state false [] state := .refl hlt
  have hobeys := obeys_typeAtom hinner
  have hatom := mirrors_typeAtom hinner hmirrors
  refine .step (.current hlive.shown) (.current (.bind (hatom.at hloud hclear h)
    (h.call (hobeys state hlt) fun head s₁ h₁ => ?_)))
  refine .repeatWhile (fun _ hs => (obeys_startsTypeAtom _ hs.lt).test)
    (fun function s hs _ => ?_) (fun _ _ => agrees_startsTypeAtom) (fun function s hs _ => ?_) h₁.lt
    (base_le_of_reached h₁ hlive)
  · refine .bind ((Reached.refl hs.lt).call (hobeys s hs.lt) fun argument s₂ h₂ => ?_)
    exact .bind (.spanFrom fun _ => .pure h₂)
  · refine .bind (hatom.at (hloud.reached h₁) (hclear.reached h₁) hs)
      ((Reached.refl hs.lt).call (hobeys s hs.lt) fun argument s₂ h₂ => ?_)
    refine .step (.spanFrom ?_) (.spanFrom fun _ => .pure (by simp))
    exact Nat.lt_of_le_of_lt (base_le_of_reached h₁ hlive)
      (Nat.lt_of_le_of_lt hs.within.le (h₂.progress rfl))

omit hinner hmirrors in
theorem agrees_checkRow {waived : Unit → ParserState → Prop} (entries : List TypeExpr) :
    P.Agrees waived (checkRow entries) (checkRow (P.relocation.move entries)) state := by
  have hrows : (P.relocation.move entries).filterMap TypeExpr.asRowVariable? =
      P.relocation.move (entries.filterMap TypeExpr.asRowVariable?) :=
    P.relocation.move_filterMap TypeExpr.relocate_asRowVariable? entries
  have hlast : ((P.relocation.move entries).getLast?.bind TypeExpr.asRowVariable?).isNone =
      (entries.getLast?.bind TypeExpr.asRowVariable?).isNone := by
    show ((entries.map P.relocation.move).getLast?.bind TypeExpr.asRowVariable?).isNone = _
    rw [List.getLast?_map]
    cases entries.getLast? with
    | none => rfl
    | some entry =>
      rw [Option.map_some, Option.bind_some, Option.bind_some,
        show (P.relocation.move entry).asRowVariable? = _ from entry.relocate_asRowVariable?]
      cases entry.asRowVariable? <;> rfl
  unfold checkRow
  rw [hrows, hlast]
  cases entries.filterMap TypeExpr.asRowVariable? with
  | nil => exact .pure rfl
  | cons row rows =>
    cases rows with
    | nil => exact .ite (fun _ => .reportError) fun _ => .pure rfl
    | cons second rest => exact .report

theorem agrees_effectEntries (hloud : Loud loud state) (hbase : P.base ≤ state.position)
    (hsheltered : P.Sheltered state.position) (hlt : state.position < set.stream.size) :
    P.Agrees never (effectEntries inner) (effectEntries inner) state := by
  have h : set.Reached state false [] state := .refl hlt
  refine .step (.skipNewlines hsheltered) (h.skipNewlines fun s₁ h₁ _ => ?_)
  refine .step (.isAt (Or.inr (hsheltered.reached h₁).shown))
    (.isAt (.ite (fun _ => .pure rfl) fun _ => ?_))
  refine .bind ((hmirrors .application).at hloud hsheltered.clear h₁)
    (h₁.call (hinner .application s₁ h₁.lt) fun first s₂ h₂ => ?_)
  refine .step (.skipNewlines (hsheltered.reached h₂)) (h₂.skipNewlines fun s₃ h₃ _ => ?_)
  refine .bind (.collectOnLines rfl rfl (hinner .application)
    (fun _ hs => (hmirrors .application).at (hloud.reached h₃) (hsheltered.reached h₃).clear hs)
    h₃.lt (Nat.le_trans hbase h₃.within.le) (hsheltered.reached h₃))
    (h₃.collectOnLines rfl (hinner .application) fun more s₄ h₄ => .pure ?_)
  simp

theorem agrees_effectType (hloud : Loud loud state) (hclear : P.Clear state.position)
    (hlive : P.Live state.position)
    (hlt : state.position < set.stream.size)
    (hkind : set.stream.kind state.position = .opener .square) :
    P.Agrees never (effectType inner) (effectType inner) state := by
  have h : set.Reached state false [] state := .refl hlt
  refine .step (.advance (inner_of_kind hkind rfl)) (h.advanceOpener hkind fun s₁ h₁ _ _ => ?_)
  refine .bind (agrees_effectEntries hinner hmirrors (hloud.reached h₁)
    (base_le_of_reached h₁ hlive) (deep_of_reached h₁ hlive).sheltered h₁.lt)
    (h₁.call (obeys_effectEntries hinner s₁ h₁.lt) fun entries s₂ h₂ => ?_)
  refine .bind (.expectCloser (deep_of_reached h₂ hlive)) (h₂.expectCloser fun _ s₃ h₃ => ?_)
  refine .bind (agrees_checkRow entries) (h₃.call (obeys_checkRow s₃ h₃.lt) fun _ s₄ h₄ => ?_)
  have hrow : ((P.relocation.move entries).filterMap TypeExpr.asRowVariable?).head? =
      P.relocation.move (entries.filterMap TypeExpr.asRowVariable?).head? := by
    rw [P.relocation.move_filterMap TypeExpr.relocate_asRowVariable?]
    exact List.head?_map
  have heffects : (P.relocation.move entries).filter (·.asRowVariable?.isNone) =
      P.relocation.move (entries.filter (·.asRowVariable?.isNone)) := by
    refine P.relocation.move_filter (fun entry => ?_) entries
    rw [show (P.relocation.move entry).asRowVariable? = _ from entry.relocate_asRowVariable?]
    cases entry.asRowVariable? <;> rfl
  refine .step agrees_startsTypeAtom (.isAtAny (.ite (fun _ => ?_) fun _ => ?_))
  · refine .bind (.map ((mirrors_appliedType hinner hmirrors).at hloud hclear h₄) fun _ => rfl)
      (.map (h₄.call (obeys_appliedType hinner s₄ h₄.lt) fun result s₅ h₅ => ?_))
    refine .step (.spanFrom (base_lt_of_reached h₅ hlive)) (.spanFrom fun _ => .pure ?_)
    rw [hrow, heffects]
    exact TypeExpr.relocate_effectful ..
  · refine .step (.pure rfl) (.pure ?_)
    refine .step (.spanFrom (base_lt_of_reached h₄ hlive)) (.spanFrom fun _ => .pure ?_)
    rw [hrow, heffects]
    exact TypeExpr.relocate_effectful ..

theorem mirrors_typeApplication : P.MirrorsClear loud (typeApplication inner) := by
  intro state hlt hloud hclear
  refine .of_live (obeys_typeApplication hinner state hlt) rejects_typeApplication fun hlive => ?_
  refine .step (.isAt (Or.inl rfl)) (.isAt (.ite (fun hopener => ?_) fun _ => ?_))
  · exact agrees_effectType hinner hmirrors hloud hclear hlive hlt (beq_iff_eq.1 hopener)
  · exact mirrors_appliedType hinner hmirrors state hlt hloud hclear

theorem mirrors_arrowType (hrejects : ∀ rule, set.RejectsEnds (inner rule)) :
    P.MirrorsClear loud (arrowType inner) := by
  intro state hlt hloud hclear
  refine .of_live (obeys_arrowType hinner state hlt) rejects_arrowType fun hlive => ?_
  have h : set.Reached state false [] state := .refl hlt
  refine .step (.current hlive.shown) (.current (.bind
    ((mirrors_typeApplication hinner hmirrors).at hloud hclear h)
    (h.call (obeys_typeApplication hinner state hlt) fun parameter s₁ h₁ => ?_)))
  refine .step .isAtOperator (.isAtOperator (.ite (fun harrow => ?_) fun _ => .pure rfl))
  have hkind : set.stream.kind s₁.position = .operator :=
    beq_iff_eq.1 (Bool.and_eq_true_iff.1 harrow).1
  refine .step (.advance (inner_of_kind hkind rfl)) (h₁.advancePlain hkind rfl fun s₂ h₂ _ => ?_)
  refine .bind_skipNewlines (h₂.skipNewlines fun s₃ h₃ _ =>
    ⟨?_, fun hboundary => (hrejects .arrow s₃ hboundary).bind⟩)
  refine .bind ((hmirrors .arrow).at hloud hclear h₃)
    (h₃.call (hinner .arrow s₃ h₃.lt) fun result s₄ h₄ => ?_)
  exact .step (.spanFrom (base_lt_of_reached h₄ hlive)) (.spanFrom fun _ => .pure (by simp))

theorem mirrors_constraint : P.MirrorsClear loud (constraint inner) := by
  intro state hlt hloud hclear
  refine .of_live (obeys_constraint hinner state hlt) rejects_constraint fun hlive => ?_
  have hatom := mirrors_typeAtom hinner hmirrors
  refine .bind (.expect rfl) ((Reached.refl hlt).expectPlain rfl fun name s₁ h₁ => ?_)
  refine .bind (.collectWhile (fun _ hs => (obeys_startsTypeAtom _ hs.lt).test)
    (fun _ hs _ => obeys_typeAtom hinner _ hs.lt) (fun _ _ => agrees_startsTypeAtom)
    (fun _ hs _ => hatom.at (hloud.reached h₁) (hclear.reached h₁) hs) h₁.lt
    (base_le_of_reached h₁ hlive))
    (h₁.collectWhile obeys_startsTypeAtom (obeys_typeAtom hinner) fun arguments s₂ h₂ => ?_)
  refine .ite_iff (by simp) (fun _ => .unexpected_bind) fun _ => ?_
  exact .step (.spanFrom (base_lt_of_reached h₂ hlive)) (.spanFrom fun _ => .pure (by simp))

theorem mirrors_context : P.MirrorsClear loud (context inner) := by
  intro state hlt hloud hclear
  refine .of_live (obeys_context hinner state hlt) rejects_context fun hlive => ?_
  have h : set.Reached state false [] state := .refl hlt
  have hobeys := obeys_constraint hinner
  have hconstraint := mirrors_constraint hinner hmirrors
  refine .step (.isAt (Or.inl rfl)) (.isAt (.ite (fun hopener => ?_) fun _ => ?_))
  · have hkind := beq_iff_eq.1 hopener
    refine .step (.advance (inner_of_kind hkind rfl)) (h.advanceOpener hkind fun s₁ h₁ _ _ => ?_)
    refine .bind (hconstraint.at hloud hclear h₁) (h₁.call (hobeys s₁ h₁.lt) fun first s₂ h₂ => ?_)
    refine .bind (.collectBehind rfl rfl hobeys
      (fun _ hs => hconstraint.at (hloud.reached h₂) (hclear.reached h₂) hs) h₂.lt
      (base_le_of_reached h₂ hlive)) (h₂.collectBehind rfl hobeys fun more s₃ h₃ => ?_)
    exact .bind (.expectCloser (deep_of_reached h₃ hlive))
      (h₃.expectCloser fun _ s₄ h₄ => .pure rfl)
  · exact .bind (hconstraint.at hloud hclear h) (h.call (hobeys state hlt) fun _ _ _ => .pure rfl)

theorem mirrors_typeExpr (hrejects : ∀ rule, set.RejectsEnds (inner rule)) :
    P.MirrorsClear loud (typeExpr inner) := by
  intro state hlt hloud hclear
  refine .of_live (obeys_typeExpr hinner state hlt) rejects_typeExpr fun hlive => ?_
  have h : set.Reached state false [] state := .refl hlt
  have harrow := mirrors_arrowType hinner hmirrors hrejects
  refine .step (.current hlive.shown) (.current (.step (agrees_contextAhead hclear)
    (.contextAhead fun _ => .ite (fun _ => ?_) fun _ => harrow.at hloud hclear h)))
  refine .bind ((mirrors_context hinner hmirrors).at hloud hclear h)
    (h.call (obeys_context hinner state hlt) fun constraints s₁ h₁ => ?_)
  refine .bind .expectOperator (h₁.expectOperator fun _ s₂ h₂ => ?_)
  refine .bind_skipNewlines (h₂.skipNewlines fun s₃ h₃ _ =>
    ⟨?_, fun hboundary => (rejects_arrowType hboundary).bind⟩)
  refine .bind (harrow.at hloud hclear h₃)
    (h₃.call (obeys_arrowType hinner s₃ h₃.lt) fun body s₄ h₄ => ?_)
  exact .step (.spanFrom (base_lt_of_reached h₄ hlive)) (.spanFrom fun _ => .pure (by simp))

omit hinner hmirrors

theorem rejectsEnds_typeAt (budget : Nat) (rule : TypeRule) :
    set.RejectsEnds (typeAt budget rule) := by
  intro state hboundary
  cases budget with
  | zero => rfl
  | succ budget =>
    cases rule with
    | type => exact rejects_typeExpr hboundary
    | arrow => exact rejects_arrowType hboundary
    | application => exact rejects_typeApplication hboundary

/-- Types do the same on both streams, however deep they may nest. -/
theorem mirrors_typeAt (hdeep : set.allows .tooDeep) (budget : Nat) :
    ∀ rule, P.MirrorsClear loud (typeAt budget rule) := by
  induction budget with
  | zero => exact fun _ _ _ _ _ => .throw
  | succ budget ih =>
    intro rule
    have hinner := obeys_typeAt hdeep budget
    have hrejects : ∀ rule, set.RejectsEnds (typeAt budget rule) := fun rule => rejectsEnds_typeAt budget rule
    cases rule with
    | type => exact mirrors_typeExpr hinner ih hrejects
    | arrow => exact mirrors_arrowType hinner ih hrejects
    | application => exact mirrors_typeApplication hinner ih

end SableFrontend.Parallel
