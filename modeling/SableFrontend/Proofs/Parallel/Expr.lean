import SableFrontend.Proofs.Parallel.Pattern
import SableFrontend.Proofs.Parallel.Type

/-!
The productions of expressions on two streams, given that what they nest does the same on both.
-/

namespace SableFrontend

open TokenStream Parser Setting

namespace Parallel

variable {set : Setting} {P : Parallel set} {start state : ParserState} {inner : Nested}
  {position : Nat}

/-- What is nested does the same on both streams. A statement is nested inside of a block only. -/
structure NestsAlike (P : Parallel set) (inner : Nested) : Prop where
  pattern : P.Mirrors false inner.pattern
  patternAtom : P.Mirrors false inner.patternAtom
  typeExpr : P.MirrorsClear true inner.typeExpr
  typeAtom : P.MirrorsClear true inner.typeAtom
  context : P.MirrorsClear true inner.context
  expression : ∀ minPower, P.Mirrors true (inner.expression minPower)
  operand : P.Mirrors true inner.operand
  statement : P.MirrorsInside true inner.statement
  rejects : ∀ minPower, set.RejectsEnds (inner.expression minPower)

theorem Mirrors.weaken {α : Type} [Relocatable α] {parser : Parser α} (h : P.Mirrors false parser)
    {loud : Bool} : P.Mirrors loud parser :=
  fun state hlt _ => h state hlt Bool.noConfusion

/-! ### Looking -/

theorem opensArgument_of_isLimit {kind : TokenKind} (h : kind.isLimit = true) :
    opensArgument kind = false := by
  rcases TokenKind.eq_of_isLimit h with rfl | rfl | ⟨bracket, rfl⟩ | rfl | rfl | rfl <;> rfl

theorem agrees_startsArgument {waived : Bool → ParserState → Prop}
    (hbase : P.base < state.position) :
    P.Agrees waived startsArgument startsArgument state := by
  refine .look (startsArgument_apply _) fun right hrelated => ?_
  have hopens := hrelated.test (.ofKind fun _ => opensArgument_of_isLimit)
  have hdot := hrelated.test (.ofEq .dot rfl)
  rw [startsArgument_apply, hopens, hdot]
  by_cases hkind : set.stream.kind state.position = .dot
  · have hin : P.Inner state.position := inner_of_kind hkind rfl
    have hnext := hrelated.test_next hin (.ofEq (.opener .square) rfl)
    have hprevious := hrelated.touches_previous hbase (hin hrelated.le_stop)
    rw [hnext, hprevious]
    by_cases hopener : set.stream.kind (state.position + 1) = .opener .square
    · rw [hrelated.touches_next
        (lt_stop_of_not_boundary (hin hrelated.le_stop) (by rw [hopener]; rfl))]
      rfl
    · rw [show ((set.stream.token (state.position + 1)).kind == .opener .square) = false from
        beq_eq_false_iff_ne.2 hopener]
      simp
  · rw [show ((set.stream.token state.position).kind == .dot) = false from
      beq_eq_false_iff_ne.2 hkind]
    simp

theorem agrees_startsSuffix {waived : Bool → ParserState → Prop}
    (hbase : P.base < state.position) :
    P.Agrees waived startsSuffix startsSuffix state := by
  have hleft : startsSuffix set.stream state =
      (.ok ((set.stream.token state.position).kind == .dot &&
        (set.stream.token (state.position - 1)).touches (set.stream.token state.position)),
        state) := rfl
  refine .look hleft fun right hrelated => ?_
  have hdot := hrelated.test (.ofEq .dot rfl)
  refine congrArg (fun verdict => (Except.ok verdict, right))
    (show ((P.other.token right.position).kind == .dot &&
      (P.other.token (right.position - 1)).touches (P.other.token right.position)) = _ from ?_)
  rw [hdot]
  by_cases hkind : set.stream.kind state.position = .dot
  · rw [hrelated.touches_previous hbase
      (lt_stop_of_not_boundary hrelated.le_stop (by rw [hkind]; rfl))]
    rfl
  · rw [show ((set.stream.token state.position).kind == .dot) = false from
      beq_eq_false_iff_ne.2 hkind]
    rfl

theorem agrees_startsOperator {waived : Bool → ParserState → Prop} {minPower : Nat} :
    P.Agrees waived (startsOperator minPower) (startsOperator minPower) state := by
  refine .look rfl fun right hrelated => ?_
  have hfirm : Firm fun token => token.kind == .operator &&
      decide (minPower ≤ (Fixity.ofOperator token.value).leftPower) :=
    ⟨fun _ _ => rfl, fun token h => by
      rw [beq_eq_false_iff_ne.2 (TokenKind.ne_of_isLimit h rfl), Bool.false_and]⟩
  exact congrArg (fun verdict => (Except.ok verdict, right)) (hrelated.test hfirm)

theorem agrees_isNotAt {waived : Bool → ParserState → Prop} {kind : TokenKind}
    (hkind : kind.isLimit = false) :
    P.Agrees waived (do return !(← isAt kind)) (do return !(← isAt kind)) state :=
  .step (.isAt (Or.inl hkind)) (.isAt (.pure rfl))

/-- The first stop ahead of a sheltered place. -/
theorem agrees_firstStop {waived : Token → ParserState → Prop} {stops : TokenKind → Bool}
    (hsheltered : P.Sheltered state.position) :
    P.Agrees waived (Parser.firstStop stops) (Parser.firstStop stops) state := by
  refine .look rfl fun right hrelated => ?_
  obtain ⟨found, hbase, hle, hopened, hleft, hright⟩ := exists_firstStop stops hrelated.base_le
    hrelated.le_stop (Or.inr hsheltered.guarded)
  have hfound : P.Sheltered found := hsheltered.imp_right fun hdeep => hopened ▸ hdeep
  rw [(hfound.live hbase hle).token_eq, ← hrelated.position_eq] at hright
  refine congrArg (fun token => (Except.ok token, right)) (hright.trans ?_)
  rw [hleft]
  rfl

theorem inner_of_isName (h : ¬(!((set.stream.token position).kind == .identifier ||
    (set.stream.token position).kind == .typeIdentifier)) = true) : P.Inner position := by
  refine inner_of_not_boundary (?_ : (set.stream.token position).kind.isBoundary = false)
  simp only [Bool.not_eq_true, Bool.not_eq_false', Bool.or_eq_true, beq_iff_eq] at h
  rcases h with h | h <;> rw [h] <;> rfl

/-! ### Square brackets without clauses or items -/

theorem agrees_ambiguousBracket (hlive : P.Live state.position)
    (hlt : state.position < set.stream.size)
    (hkind : set.stream.kind state.position = .opener .square) :
    P.Agrees never ambiguousBracket ambiguousBracket state := by
  have hin : P.Inner state.position := inner_of_kind hkind rfl
  have hdeep : P.Deep (state.position + 1) := by
    have hsuffix := (P.within.suffix _ hlive.base_le hlive.le_stop).length_le
    rw [Deep, opened_succ_opener hlt hkind, List.length_cons]
    omega
  exact .step (.current hlive.shown) (.current (.step (.peek hin hdeep.sheltered.shown)
    (.peek .failWith)))

theorem mirrors_tokenValue {loud : Bool} {kind : TokenKind} (hkind : kind.isBoundary = false)
    (hplain : kind.isPlain = true) {context : String} :
    P.Mirrors loud (do return (← expect kind context).value) :=
  fun _ hlt _ => .bind (.expect hkind) ((Reached.refl hlt).expectPlain hplain fun _ _ _ => .pure rfl)

theorem mirrors_accessor {loud : Bool} : P.Mirrors loud accessor := by
  intro state hlt hloud
  refine .of_live (obeys_accessor state hlt)
    (fun hboundary => (rejects_expect (TokenKind.ne_of_isBoundary hboundary rfl)).bind)
    fun hlive => ?_
  refine .bind (.expect rfl) ((Reached.refl hlt).expectOpener fun opener s₁ h₁ _ _ => ?_)
  refine .step (.skipNewlines (deep_of_reached h₁ hlive).sheltered)
    (h₁.skipNewlines fun s₂ h₂ _ => ?_)
  refine .bind (.collectBehind rfl rfl (obeys_tokenValue rfl)
    (fun _ hs => (mirrors_tokenValue rfl rfl).at (hloud.reached h₂) hs) h₂.lt
    (base_le_of_reached h₂ hlive))
    (h₂.collectBehind rfl (obeys_tokenValue rfl) fun path s₃ h₃ => ?_)
  refine .step (.skipNewlines (deep_of_reached h₃ hlive).sheltered)
    (h₃.skipNewlines fun s₄ h₄ _ => ?_)
  refine .bind (.expectCloser (deep_of_reached h₄ hlive)) (h₄.expectCloser fun _ s₅ h₅ => ?_)
  exact .step (.spanFrom (base_lt_of_reached h₅ hlive)) (.spanFrom fun _ => .pure (by simp))

theorem rejects_tokenOperand (hboundary : (set.stream.kind state.position).isBoundary = true) :
    set.Rejects tokenOperand state := by
  have hne := fun {kind : TokenKind} (hkind : set.stream.kind state.position = kind)
    (hother : kind.isBoundary = false) => TokenKind.ne_of_isBoundary hboundary hother hkind
  refine Runs.bind (.current ?_)
  split
  · next hkind => exact (hne hkind rfl).elim
  · next hkind => exact (hne hkind rfl).elim
  · next hkind => exact (hne hkind rfl).elim
  · exact rejects_unexpected

theorem mirrors_tokenOperand {loud : Bool} : P.Mirrors loud tokenOperand := by
  intro state hlt hloud
  refine .of_live (obeys_tokenOperand state hlt) rejects_tokenOperand fun hlive => ?_
  have h : set.Reached state false [] state := .refl hlt
  refine .step (.current hlive.shown) (.current ?_)
  dsimp only [Relocation.move, Relocatable.relocate, Token.relocate_kind, Token.relocate_value,
    Token.relocate_span]
  split
  · next hkind =>
    refine .step (.advance (inner_of_kind hkind rfl)) (h.advancePlain hkind rfl fun s₁ h₁ _ => ?_)
    exact .bind .literalOf (h₁.literalOf (TokenStream.token_mem hlt) fun _ => .pure (by simp))
  · next hkind =>
    exact .step (.advance (inner_of_kind hkind rfl))
      (h.advancePlain hkind rfl fun s₁ h₁ _ => .pure (by simp))
  · next hkind =>
    exact .step (.advance (inner_of_kind hkind rfl))
      (h.advancePlain hkind rfl fun s₁ h₁ _ => .pure (by simp))
  · exact .unexpected

theorem mirrors_leftSection {loud : Bool} : P.Mirrors loud leftSection := by
  intro state hlt hloud
  refine .of_live (obeys_leftSection state hlt)
    (fun hboundary => (rejects_expect (TokenKind.ne_of_isBoundary hboundary rfl)).bind)
    fun hlive => ?_
  refine .bind (.expect rfl) ((Reached.refl hlt).expectOpener fun opener s₁ h₁ _ _ => ?_)
  refine .bind (mirrors_tokenOperand.at hloud h₁)
    (h₁.call (obeys_tokenOperand s₁ h₁.lt) fun left s₂ h₂ => ?_)
  refine .bind (.expect rfl) (h₂.expectPlain rfl fun op s₃ h₃ => ?_)
  refine .bind (.expectCloser (deep_of_reached h₃ hlive)) (h₃.expectCloser fun _ s₄ h₄ => ?_)
  exact .step (.spanFrom (base_lt_of_reached h₄ hlive)) (.spanFrom fun _ => .pure (by simp))

/-! ### Records -/

theorem repeatedFields_relocate (r : Relocation) (seen : List String) (fields : List FieldAssign) :
    repeatedFields seen (r.move fields) = r.move (repeatedFields seen fields) := by
  induction fields generalizing seen with
  | nil => rfl
  | cons field rest ih =>
    show repeatedFields seen (field.relocate r :: r.move rest) = _
    unfold repeatedFields
    rw [FieldAssign.relocate_name, ih, ih]
    split <;> rfl

theorem agrees_checkRepeatedFields {waived : Unit → ParserState → Prop}
    (fields : List FieldAssign) :
    P.Agrees waived (checkRepeatedFields fields) (checkRepeatedFields (P.relocation.move fields))
      state := by
  unfold checkRepeatedFields
  rw [repeatedFields_relocate]
  refine .forM fun field s => ?_
  dsimp only [Relocation.move, Relocatable.relocate]
  rw [FieldAssign.relocate_name, FieldAssign.relocate_span]
  exact .reportError

theorem agrees_recordValue (value : Expr) :
    P.Agrees never (recordValue value) (recordValue (P.relocation.move value)) state := by
  unfold recordValue
  cases value with
  | field target name span =>
    simp only [Relocation.move, Relocatable.relocate, Expr.relocate]
    exact .step .reportError (.report (.pure (by simp)))
  | conditional branches otherwise span =>
    simp only [Relocation.move, Relocatable.relocate, Expr.relocate_conditional]
    exact .pure (by simp)
  | operatorSection op left right span =>
    simp only [Relocation.move, Relocatable.relocate, Expr.relocate_operatorSection]
    exact .pure (by simp)
  | _ =>
    simp only [Relocation.move, Relocatable.relocate, Expr.relocate]
    exact .pure (by simp)

section

variable (hinner : set.Nests inner) (hmirrors : P.NestsAlike inner)

include hinner hmirrors

theorem mirrorsInside_recordItem : P.MirrorsInside true (recordItem inner) := by
  intro state hlt hloud hsheltered
  refine .of_shown (obeys_recordItem hinner state hlt) hsheltered.shown fun hlive => ?_
  have h : set.Reached state false [] state := .refl hlt
  have hvalue : ∀ {next next' : Expr → Parser (FieldAssign ⊕ Expr)},
      (∀ value final, P.Agrees never (next value) (next' (P.relocation.move value)) final) →
      P.Agrees never (inner.expression 0 >>= next) (inner.expression 0 >>= next') state :=
    fun hnext => .bind_always ((hmirrors.expression 0).at hloud h) hnext
  refine .step (.current hlive.shown) (.current (.ite (fun hname => ?_)
    fun _ => hvalue fun value _ => agrees_recordValue value))
  have hkind : set.stream.kind state.position = .identifier := beq_iff_eq.1 hname
  have hin : P.Inner state.position := inner_of_kind hkind rfl
  refine .step (.peek hin (hsheltered.succ hlt (hkind ▸ rfl)).shown)
    (.peek (.ite (fun hassign => ?_) fun _ => .ite (fun _ => ?_)
      fun _ => hvalue fun value _ => agrees_recordValue value))
  · refine .step (.advance hin) (h.advancePlain hkind rfl fun s₁ h₁ hposition => ?_)
    have hassign : set.stream.kind s₁.position = .assign := by
      rw [hposition]
      exact beq_iff_eq.1 hassign
    refine .step (.advance (inner_of_kind hassign rfl))
      (h₁.advancePlain hassign rfl fun s₂ h₂ _ => ?_)
    refine .step (.skipNewlines (hsheltered.reached h₂)) (h₂.skipNewlines fun s₃ h₃ _ => ?_)
    refine .bind ((hmirrors.expression 0).at hloud h₃)
      (h₃.call (hinner.expression 0 s₃ h₃.lt) fun value s₄ h₄ => ?_)
    exact .step (.spanFrom (base_lt_of_reached h₄ hlive)) (.spanFrom fun _ => .pure (by simp))
  · exact .step (.advance hin) (h.advancePlain hkind rfl fun s₁ h₁ _ => .pure (by simp))

theorem agrees_recordExpr {constructor : Token} (hloud : Loud true state)
    (hlive : P.Live state.position) (hlt : state.position < set.stream.size)
    (hkind : set.stream.kind state.position = .opener .square) :
    P.Agrees never (recordExpr inner constructor)
      (recordExpr inner (constructor.relocate P.relocation)) state := by
  have h : set.Reached state false [] state := .refl hlt
  have hitem := mirrorsInside_recordItem hinner hmirrors
  refine .step (.advance (inner_of_kind hkind rfl)) (h.advanceOpener hkind fun s₁ h₁ hopens _ => ?_)
  refine .bind (.items h₁.lt hopens (obeys_recordItem hinner) hitem (hloud.reached h₁)
    (base_le_of_reached h₁ hlive) (deep_of_reached h₁ hlive).sheltered)
    (h₁.items hopens (obeys_recordItem hinner) fun entries s₂ h₂ _ => ?_)
  refine .bind (.expectCloser (deep_of_reached h₂ hlive)) (h₂.expectCloser fun _ s₃ h₃ => ?_)
  refine .step (.spanFrom (base_lt_of_reached h₃ hlive)) (.spanFrom fun span => ?_)
  dsimp only
  rw [P.relocation.move_getLeft, P.relocation.move_getRight]
  generalize entries.filterMap Sum.getLeft? = fields
  generalize entries.filterMap Sum.getRight? = arguments
  cases fields with
  | nil => exact .pure (by simp)
  | cons field fields =>
    have hfields : P.Agrees never (checkRepeatedFields (field :: fields))
        (checkRepeatedFields (P.relocation.move (field :: fields))) s₃ :=
      agrees_checkRepeatedFields _
    cases arguments with
    | nil => exact .bind_always hfields fun _ _ => .pure (by simp)
    | cons argument arguments =>
      simp only [Relocation.move, Relocatable.relocate, List.map_cons, Expr.relocate_span]
      refine .bind_always .reportError fun _ s₄ => ?_
      exact .bind_always (agrees_checkRepeatedFields (field :: fields)) fun _ _ => .pure (by simp)

omit hinner hmirrors in
theorem agrees_updateField (entry : FieldAssign ⊕ Expr) :
    P.Agrees never (updateField entry) (updateField (P.relocation.move entry)) state := by
  cases entry with
  | inl field => exact .pure rfl
  | inr value =>
    simp only [Relocation.move, Relocatable.relocate, Sum.map_inr, updateField, Expr.relocate_span]
    exact .step .reportError (.report (.pure rfl))

theorem mirrors_updateFields : P.Mirrors true (updateFields inner) := by
  intro state hlt hloud
  refine .of_live (obeys_updateFields hinner state hlt)
    (fun hboundary => (rejects_expect (TokenKind.ne_of_isBoundary hboundary rfl)).bind)
    fun hlive => ?_
  have hitem := mirrorsInside_recordItem hinner hmirrors
  refine .bind (.expect rfl) ((Reached.refl hlt).expectOpener fun opener s₁ h₁ hopens _ => ?_)
  refine .bind (.items h₁.lt hopens (obeys_recordItem hinner) hitem (hloud.reached h₁)
    (base_le_of_reached h₁ hlive) (deep_of_reached h₁ hlive).sheltered)
    (h₁.items hopens (obeys_recordItem hinner) fun entries s₂ h₂ _ => ?_)
  refine .bind (.expectCloser (deep_of_reached h₂ hlive)) (h₂.expectCloser fun _ s₃ h₃ => ?_)
  refine .bind_always (.mapM fun entry s => agrees_updateField entry) fun fields s₄ => ?_
  dsimp only
  rw [P.relocation.move_filterMap (f := id) fun _ => rfl]
  exact .bind_always (agrees_checkRepeatedFields _) fun _ _ => .pure rfl

/-! ### Clauses -/

theorem mirrorsInside_patternThenColon : P.MirrorsInside true (patternThenColon inner) := by
  intro state hlt hloud hsheltered
  have h : set.Reached { state with log := state.log.mute } false []
      { state with log := state.log.mute } := .refl hlt
  refine .speculate ?_ (?_ : set.Proceeds true _ _) hsheltered
  · refine .bind (hmirrors.pattern _ hlt Bool.noConfusion)
      (h.call (hinner.pattern _ hlt) fun _ s₁ h₁ =>
        .isAt (Or.inr (hsheltered.of_suffix h₁.within.last).shown))
  · exact .bind (h.call (hinner.pattern _ hlt) fun _ s₁ h₁ => .isAt h₁)

theorem mirrorsInside_clausePattern : P.MirrorsInside true (clausePattern inner) := by
  intro state hlt hloud hsheltered
  have h : set.Reached state false [] state := .refl hlt
  refine .bind (hmirrors.pattern.weaken.at hloud h)
    (h.call (hinner.pattern state hlt) fun pattern s₁ h₁ => ?_)
  refine .bind (.expect rfl) (h₁.expectPlain rfl fun _ s₂ h₂ => ?_)
  exact .step (.skipNewlines (hsheltered.reached h₂)) (h₂.skipNewlines fun s₃ h₃ _ => .pure rfl)

theorem mirrorsInside_clause : P.MirrorsInside true (clause inner) := by
  intro state hlt hloud hsheltered
  refine .of_shown (obeys_clause hinner state hlt) hsheltered.shown fun hlive => ?_
  have h : set.Reached state false [] state := .refl hlt
  have hobeys := obeys_clausePattern hinner
  have hpattern := mirrorsInside_clausePattern hinner hmirrors
  have hcolon := mirrorsInside_patternThenColon hinner hmirrors
  refine .step (.current hlive.shown) (.current (.bind (hpattern state hlt hloud hsheltered)
    (h.call (hobeys state hlt) fun first s₁ h₁ => ?_)))
  refine .bind (.collectWhile (fun _ hs => (obeys_patternThenColon hinner _ hs.lt).test)
    (fun _ hs _ => hobeys _ hs.lt)
    (fun s hs => hcolon s hs.lt ((hloud.reached h₁).reached hs) ((hsheltered.reached h₁).reached hs))
    (fun s hs _ => hpattern s hs.lt ((hloud.reached h₁).reached hs)
      ((hsheltered.reached h₁).reached hs)) h₁.lt (base_le_of_reached h₁ hlive))
    (h₁.collectWhile (obeys_patternThenColon hinner) hobeys fun more s₂ h₂ => ?_)
  refine .bind ((hmirrors.expression 0).at hloud h₂)
    (h₂.call (hinner.expression 0 s₂ h₂.lt) fun body s₃ h₃ => ?_)
  exact .step (.spanFrom (base_lt_of_reached h₃ hlive)) (.spanFrom fun _ => .pure (by simp))

theorem mirrorsInside_operationClause : P.MirrorsInside true (operationClause inner) := by
  intro state hlt hloud hsheltered
  refine .of_shown (obeys_operationClause hinner state hlt) hsheltered.shown fun hlive => ?_
  have h : set.Reached state false [] state := .refl hlt
  refine .step (.current hlive.shown) (.current (.ite (fun _ => .unexpected_bind) fun hname => ?_))
  refine .step (.advance (inner_of_isName hname))
    (h.advancePlain rfl (TokenKind.isPlain_of_isName hname) fun s₁ h₁ _ => ?_)
  refine .bind (.collectWhile (fun _ hs => runs_isNotAt hs.lt)
    (fun _ hs _ => hinner.patternAtom _ hs.lt) (fun _ _ => agrees_isNotAt rfl)
    (fun _ hs _ => hmirrors.patternAtom.weaken.at (hloud.reached h₁) hs) h₁.lt
    (base_le_of_reached h₁ hlive))
    (h₁.loop (runs_collectWhile (fun _ hs => runs_isNotAt hs.lt)
      (fun _ hs _ => hinner.patternAtom _ hs.lt) h₁.lt) fun arguments s₂ h₂ hpipe => ?_)
  refine .step (.advance (inner_of_kind hpipe rfl)) (h₂.advancePlain hpipe rfl fun s₃ h₃ _ => ?_)
  refine .bind (.expect rfl) (h₃.expectPlain rfl fun continuation s₄ h₄ => ?_)
  refine .bind (.expect rfl) (h₄.expectPlain rfl fun _ s₅ h₅ => ?_)
  refine .step (.skipNewlines (hsheltered.reached h₅)) (h₅.skipNewlines fun s₆ h₆ _ => ?_)
  refine .bind ((hmirrors.expression 0).at hloud h₆)
    (h₆.call (hinner.expression 0 s₆ h₆.lt) fun body s₇ h₇ => ?_)
  exact .step (.spanFrom (base_lt_of_reached h₇ hlive)) (.spanFrom fun _ => .pure (by simp))

theorem mirrorsInside_lambdaClause : P.MirrorsInside true (lambdaClause inner) := by
  intro state hlt hloud hsheltered
  have hoperation := mirrorsInside_operationClause hinner hmirrors state hlt hloud hsheltered
  have hclause := mirrorsInside_clause hinner hmirrors state hlt hloud hsheltered
  refine .step (agrees_firstStop hsheltered) (.firstStop (.ite (fun _ => ?_) fun _ => ?_))
  · exact .map hoperation fun _ => rfl
  · exact .map hclause fun _ => rfl

omit hinner hmirrors in
theorem agrees_handlerClause (clause : Clause ⊕ HandlerClause) :
    P.Agrees never (handlerClause clause) (handlerClause (P.relocation.move clause)) state := by
  cases clause with
  | inr operation => exact .pure rfl
  | inl clause =>
    obtain ⟨patterns, body, span⟩ := clause
    simp only [Relocation.move, Relocatable.relocate, Sum.map_inl, Clause.relocate]
    rcases patterns with _ | ⟨binder, _ | ⟨second, rest⟩⟩
    · exact .step .reportError (.report (.pure rfl))
    · simp only [handlerClause, List.map_cons, List.map_nil, Pattern.relocate_isBinder,
        Pattern.relocate_span]
      exact .ite (fun _ => .pure (by simp)) fun _ => .step .reportError (.report (.pure rfl))
    · simp only [handlerClause, List.map_cons, List.length_cons, List.length_map]
      exact .step .reportError (.report (.pure rfl))

theorem mirrors_clauseSet : P.Mirrors true (clauseSet inner) := by
  intro state hlt hloud
  refine .of_live (obeys_clauseSet hinner state hlt)
    (fun hboundary => (rejects_expect (TokenKind.ne_of_isBoundary hboundary rfl)).bind)
    fun hlive => ?_
  have hitem := mirrorsInside_lambdaClause hinner hmirrors
  refine .bind (.expect rfl) ((Reached.refl hlt).expectOpener fun opener s₁ h₁ hopens _ => ?_)
  refine .bind (.items h₁.lt hopens (obeys_lambdaClause hinner) hitem (hloud.reached h₁)
    (base_le_of_reached h₁ hlive) (deep_of_reached h₁ hlive).sheltered)
    (h₁.items hopens (obeys_lambdaClause hinner) fun clauses s₂ h₂ _ => ?_)
  refine .bind (.expectCloser (deep_of_reached h₂ hlive)) (h₂.expectCloser fun _ s₃ h₃ => ?_)
  refine .step (.spanFrom (base_lt_of_reached h₃ hlive)) (.spanFrom fun span => ?_)
  have hany : (P.relocation.move clauses).any Sum.isRight = clauses.any Sum.isRight := by
    show (clauses.map P.relocation.move).any Sum.isRight = _
    rw [List.any_map]
    exact congrArg clauses.any (funext fun clause => by cases clause <;> rfl)
  refine .ite_iff (by rw [hany]) (fun _ => ?_) fun _ => .pure ?_
  · refine .bind_always (.mapM fun clause s => agrees_handlerClause clause) fun kept _ => .pure ?_
    rw [P.relocation.move_filterMap (f := id) fun _ => rfl]
    simp
  · rw [P.relocation.move_getLeft]
    simp

/-! ### Blocks and sections -/

omit hinner hmirrors in
theorem splitResult?_relocate (r : Relocation) (statements : List Item) :
    splitResult? (r.move statements) = r.move (splitResult? statements) := by
  rw [splitResult?, show r.move statements = statements.map r.move from rfl, List.getLast?_map,
    splitResult?]
  cases statements.getLast? with
  | none => rfl
  | some last => cases last <;> simp [Relocation.move, Relocatable.relocate, List.map_dropLast]

theorem agrees_block (hwarns : set.Warns) (hloud : Loud true state) (hlive : P.Live state.position)
    (hlt : state.position < set.stream.size)
    (hkind : set.stream.kind state.position = .opener .square) :
    P.Agrees never (block inner) (block inner) state := by
  have hopener : set.Runs (expect (.opener .square) "") state
      (fun _ s₁ => set.Reached state true [.square] s₁ ∧
        set.stream.Opens s₁.position (.closer .square)) (set.Stops state) :=
    (Reached.refl hlt).expectOpener fun _ s₁ h₁ hopens _ => ⟨h₁, hopens⟩
  have hin : P.Inner state.position := inner_of_kind hkind rfl
  refine .bind_get_after (obeys_block hwarns hinner state hlt) (.expect rfl)
    ((hopener.and runs_expect).mono (fun opener s₁ ⟨⟨h₁, hopens⟩, _, _, hposition, hlog⟩ => ⟨?_, ?_⟩)
      fun _ _ _ => trivial)
  · -- the opener lies in the stretch, and nothing has been reported
    rintro (hpast | ⟨hfinal, hzero, hreported⟩)
    · have hle := hin hlive.le_stop
      omega
    · exact Or.inr ⟨hfinal, hlog ▸ hzero, hlog ▸ hreported⟩
  intro right hright
  have hdeep := fun {s} (h : set.Reached state true [.square] s) => deep_of_reached h hlive
  refine .bind (.items h₁.lt hopens hinner.statement hmirrors.statement (hloud.reached h₁)
    (base_le_of_reached h₁ hlive) (hdeep h₁).sheltered)
    (h₁.items hopens hinner.statement fun groups s₂ h₂ _ => ?_)
  refine .bind (.expectCloser (hdeep h₂)) (h₂.expectCloser fun close s₃ h₃ => ?_)
  dsimp only
  rw [P.relocation.move_flatten, Statement.relocate_group]
  have hreports := Statement.group_reports groups.flatten
  generalize Statement.group groups.flatten = grouped at hreports
  obtain ⟨statements, reported⟩ := grouped
  refine .step (.forM fun diagnostic s => .report)
    (h₃.forM (fun diagnostic hmem _ _ hs next => hs.report ?_ next) fun s₄ h₄ => ?_)
  · exact (hreports diagnostic hmem).elim set.grammatical hwarns
  rw [splitResult?_relocate]
  cases splitResult? statements with
  | none =>
    have hnone : ∀ {c c' : Prop} [Decidable c] [Decidable c'], (c ↔ c') →
        P.Agrees (α := Expr) never
          (if c then do
            reportError .unexpectedToken "block must end with an expression" close.span []
            throw .failed
          else throw .failed)
          (if c' then do
            reportError .unexpectedToken "block must end with an expression"
              (close.span.relocate P.relocation) []
            throw .failed
          else throw .failed) s₄ :=
      fun hiff => .ite_iff hiff (fun _ => .step .reportError (.report .throw)) fun _ => .throw
    refine .bind_get_related (hnone Iff.rfl) fun right' hright' => hnone ?_
    have hcount := hright.count_eq
    have hcount' := hright'.count_eq
    rw [beq_iff_eq, beq_iff_eq]
    omega
  | some split =>
    obtain ⟨before, value⟩ := split
    have hwhole : ∀ s, P.base < s.position → P.Agrees never
        (do
          let span ← spanFrom opener.span
          return Expr.block before value span)
        (do
          let span ← spanFrom (opener.span.relocate P.relocation)
          return Expr.block (P.relocation.move before) (P.relocation.move value) span) s :=
      fun s hbase => .step (.spanFrom hbase) (.spanFrom fun _ => .pure (by simp))
    have hbase : P.base < s₄.position := base_lt_of_reached h₄ hlive
    cases value with
    | conditional branches otherwise span =>
      simp only [Relocation.move, Relocatable.relocate, Option.map_some, Prod.map_apply,
        Expr.relocate_conditional] at hwhole ⊢
      cases otherwise with
      | none => exact .step .reportError (.report (hwhole _ hbase))
      | some otherwise => exact hwhole s₄ hbase
    | operatorSection op left right span =>
      simp only [Relocation.move, Relocatable.relocate, Option.map_some, Prod.map_apply,
        Expr.relocate_operatorSection] at hwhole ⊢
      exact hwhole s₄ hbase
    | _ =>
      simp only [Relocation.move, Relocatable.relocate, Option.map_some, Prod.map_apply,
        Expr.relocate] at hwhole ⊢
      exact hwhole s₄ hbase

theorem mirrors_operatorSection : P.Mirrors true (operatorSection inner) := by
  intro state hlt hloud
  refine .of_live (obeys_operatorSection hinner state hlt)
    (fun hboundary => (rejects_expect (TokenKind.ne_of_isBoundary hboundary rfl)).bind)
    fun hlive => ?_
  have hdeep := fun {moved s} (h : set.Reached state moved [.square] s) => deep_of_reached h hlive
  refine .bind (.expect rfl) ((Reached.refl hlt).expectOpener fun opener s₁ h₁ _ _ => ?_)
  refine .step (.skipNewlines (hdeep h₁).sheltered) (h₁.skipNewlines fun s₂ h₂ _ => ?_)
  refine .bind (.expect rfl) (h₂.expectPlain rfl fun op s₃ h₃ => ?_)
  refine .step (.isAt (Or.inr (hdeep h₃).sheltered.shown)) (.isAt (.ite (fun hclose => ?_)
    fun _ => ?_))
  · refine .step (.advance (hdeep h₃).inner)
      (h₃.advanceCloser (beq_iff_eq.1 hclose) fun s₄ h₄ => ?_)
    exact .step (.spanFrom (base_lt_of_reached h₄ hlive)) (.spanFrom fun _ => .pure (by simp))
  · refine .bind ((hmirrors.expression 0).at hloud h₃)
      (h₃.call (hinner.expression 0 s₃ h₃.lt) fun right s₄ h₄ => ?_)
    refine .step (.skipNewlines (hdeep h₄).sheltered) (h₄.skipNewlines fun s₅ h₅ _ => ?_)
    refine .bind (.expectCloser (hdeep h₅)) (h₅.expectCloser fun _ s₆ h₆ => ?_)
    exact .step (.spanFrom (base_lt_of_reached h₆ hlive)) (.spanFrom fun _ => .pure (by simp))

theorem agrees_squareExpr (hwarns : set.Warns) (hloud : Loud true state)
    (hlive : P.Live state.position) (hlt : state.position < set.stream.size)
    (hkind : set.stream.kind state.position = .opener .square) :
    P.Agrees never (squareExpr inner) (squareExpr inner) state := by
  refine .bind_read (.bind_position fun right hplace => ?_)
  dsimp only
  rw [hplace, atIndex_place hlive.base_le hlive.le_stop hkind]
  split
  · exact agrees_block hinner hmirrors hwarns hloud hlive hlt hkind
  · exact mirrors_clauseSet hinner hmirrors state hlt hloud
  · exact mirrors_clauseSet hinner hmirrors state hlt hloud
  · exact mirrors_operatorSection hinner hmirrors state hlt hloud
  · exact mirrors_leftSection state hlt hloud
  · exact mirrors_accessor state hlt hloud
  · exact agrees_ambiguousBracket hlive hlt hkind

/-! ### Round and curly brackets -/

theorem agrees_roundExpr (hloud : Loud true state) (hlive : P.Live state.position)
    (hlt : state.position < set.stream.size)
    (hkind : set.stream.kind state.position = .opener .round) :
    P.Agrees never (roundExpr inner) (roundExpr inner) state := by
  have hdeep := fun {moved s} (h : set.Reached state moved [.round] s) => deep_of_reached h hlive
  refine .step (.advance (inner_of_kind hkind rfl))
    ((Reached.refl hlt).advanceOpener hkind fun s₁ h₁ _ _ => ?_)
  refine .step (.isAt (Or.inr (hdeep h₁).sheltered.shown)) (.isAt (.ite (fun hclose => ?_)
    fun _ => ?_))
  · refine .step (.advance (hdeep h₁).inner)
      (h₁.advanceCloser (beq_iff_eq.1 hclose) fun s₂ h₂ => ?_)
    exact .step (.spanFrom (base_lt_of_reached h₂ hlive)) (.spanFrom fun _ => .pure (by simp))
  · refine .bind ((hmirrors.expression 0).at hloud h₁)
      (h₁.call (hinner.expression 0 s₁ h₁.lt) fun first s₂ h₂ => ?_)
    refine .step (.isAt (Or.inl rfl)) (.isAt (.ite (fun _ => ?_) fun _ => ?_))
    · exact .bind (.expectCloser (hdeep h₂)) (h₂.expectCloser fun _ s₃ h₃ => .pure rfl)
    · refine .bind (.collectBehind rfl rfl (hinner.expression 0)
        (fun _ hs => (hmirrors.expression 0).at (hloud.reached h₂) hs) h₂.lt
        (base_le_of_reached h₂ hlive))
        (h₂.collectBehind rfl (hinner.expression 0) fun more s₃ h₃ => ?_)
      refine .bind (.expectCloser (hdeep h₃)) (h₃.expectCloser fun _ s₄ h₄ => ?_)
      exact .step (.spanFrom (base_lt_of_reached h₄ hlive)) (.spanFrom fun _ => .pure (by simp))

theorem agrees_comprehensionClause (hloud : Loud true state) (hsheltered : P.Sheltered state.position)
    (hlive : P.Live state.position) (hlt : state.position < set.stream.size)
    (hkind : set.stream.kind state.position = .keyword .forWord ∨
      set.stream.kind state.position = .keyword .ifWord) :
    P.Agrees never (comprehensionClause inner) (comprehensionClause inner) state := by
  have hin : P.Inner state.position :=
    hkind.elim (inner_of_kind · rfl) (inner_of_kind · rfl)
  have hplain : (set.stream.kind state.position).isPlain = true := by
    rcases hkind with hkind | hkind <;> rw [hkind] <;> rfl
  refine .step (.advance hin) ((Reached.refl hlt).advancePlain rfl hplain fun s₁ h₁ _ => ?_)
  refine .ite_iff (by simp) (fun _ => ?_) fun _ => ?_
  · refine .bind (hmirrors.pattern.weaken.at hloud h₁)
      (h₁.call (hinner.pattern s₁ h₁.lt) fun pattern s₂ h₂ => ?_)
    refine .bind (.expect rfl) (h₂.expectPlain rfl fun _ s₃ h₃ => ?_)
    refine .step (.skipNewlines (hsheltered.reached h₃)) (h₃.skipNewlines fun s₄ h₄ _ => ?_)
    refine .bind ((hmirrors.expression 0).at hloud h₄)
      (h₄.call (hinner.expression 0 s₄ h₄.lt) fun source s₅ h₅ => ?_)
    exact .step (.spanFrom (base_lt_of_reached h₅ hlive)) (.spanFrom fun _ => .pure (by simp))
  · refine .bind ((hmirrors.expression 0).at hloud h₁)
      (h₁.call (hinner.expression 0 s₁ h₁.lt) fun condition s₂ h₂ => ?_)
    exact .step (.spanFrom (base_lt_of_reached h₂ hlive)) (.spanFrom fun _ => .pure (by simp))

omit hinner hmirrors in
theorem runs_comprehensionWord (hlt : state.position < set.stream.size) :
    set.Runs startsComprehensionClause state
      (fun more final => set.Reached state false [] final ∧
        if more = true then set.stream.kind final.position = .keyword .forWord ∨
          set.stream.kind final.position = .keyword .ifWord else True)
      (set.Stops state) := by
  refine .bind ((Reached.refl hlt).skipNewlines fun s₁ h₁ _ => ?_)
  refine .bind (.current (.pure ⟨h₁, ?_⟩))
  split
  · next hmore =>
    simp only [Bool.or_eq_true, beq_iff_eq] at hmore
    exact hmore
  · trivial

omit hinner hmirrors in
theorem agrees_startsComprehensionClause {waived : Bool → ParserState → Prop}
    (hlt : state.position < set.stream.size) (hsheltered : P.Sheltered state.position) :
    P.Agrees waived startsComprehensionClause startsComprehensionClause state := by
  refine .step (.skipNewlines hsheltered) ((Reached.refl hlt).skipNewlines fun s₁ h₁ _ => ?_)
  exact .step (.current (hsheltered.reached h₁).shown) (.current (.pure rfl))

theorem agrees_comprehension {moved : Bool} {span : Span} (hloud : Loud true start)
    (hlive : P.Live start.position) (h : set.Reached start moved [.curly] state) :
    P.Agrees never (comprehension inner span)
      (comprehension inner (span.relocate P.relocation)) state := by
  have hdeep := fun {moved s} (h : set.Reached start moved [.curly] s) => deep_of_reached h hlive
  have hinside : P.Sheltered state.position := (hdeep h).sheltered
  refine .bind (.collectWhile (fun _ hs => runs_comprehensionWord hs.lt)
    (fun s hs hkind => proceeds_comprehensionClause hinner hs.lt ?_)
    (fun _ hs => agrees_startsComprehensionClause hs.lt (hinside.reached hs))
    (fun s hs hkind => ?_) h.lt (base_le_of_reached h hlive))
    (h.loop (runs_collectWhile (fun _ hs => runs_startsComprehensionClause hs.lt)
      (fun _ hs hplain => proceeds_comprehensionClause hinner hs.lt hplain) h.lt)
      fun clauses s₁ h₁ _ => ?_)
  · rcases hkind with hkind | hkind <;> rw [hkind] <;> rfl
  · have hsheltered := hinside.reached hs
    refine .of_shown (proceeds_comprehensionClause hinner hs.lt ?_) hsheltered.shown fun hlive' =>
      agrees_comprehensionClause hinner hmirrors ((hloud.reached h).reached hs) hsheltered hlive'
        hs.lt hkind
    rcases hkind with hkind | hkind <;> rw [hkind] <;> rfl
  refine .bind (.expect rfl) (h₁.expectPlain rfl fun _ s₂ h₂ => ?_)
  refine .step (.skipNewlines (hdeep h₂).sheltered) (h₂.skipNewlines fun s₃ h₃ _ => ?_)
  refine .bind ((hmirrors.expression 0).at hloud h₃)
    (h₃.call (hinner.expression 0 s₃ h₃.lt) fun body s₄ h₄ => ?_)
  refine .step (.skipNewlines (hdeep h₄).sheltered) (h₄.skipNewlines fun s₅ h₅ _ => ?_)
  refine .bind (.expectCloser (hdeep h₅)) (h₅.expectCloser fun _ s₆ h₆ => ?_)
  exact .step (.spanFrom (base_lt_of_reached h₆ hlive)) (.spanFrom fun _ => .pure (by simp))

theorem agrees_listExpr {moved : Bool} {span : Span} (hloud : Loud true start)
    (hlive : P.Live start.position) (h : set.Reached start moved [.curly] state) :
    P.Agrees never (listExpr inner span) (listExpr inner (span.relocate P.relocation)) state := by
  have hdeep := fun {moved s} (h : set.Reached start moved [.curly] s) => deep_of_reached h hlive
  refine .bind ((hmirrors.expression 0).at hloud h)
    (h.call (hinner.expression 0 state h.lt) fun first s₁ h₁ => ?_)
  refine .step (.skipNewlines (hdeep h₁).sheltered) (h₁.skipNewlines fun s₂ h₂ _ => ?_)
  refine .bind (.collectOnLines rfl rfl (hinner.expression 0)
    (fun _ hs => (hmirrors.expression 0).at (hloud.reached h₂) hs) h₂.lt
    (base_le_of_reached h₂ hlive) (hdeep h₂).sheltered)
    (h₂.collectOnLines rfl (hinner.expression 0) fun more s₃ h₃ => ?_)
  refine .step (.isAt (Or.inl rfl)) (.isAt (.ite (fun hpipe => ?_) fun _ => ?_))
  · have hpipe := beq_iff_eq.1 hpipe
    refine .step (.advance (inner_of_kind hpipe rfl))
      (h₃.advancePlain hpipe rfl fun s₄ h₄ _ => ?_)
    refine .step (.skipNewlines (hdeep h₄).sheltered) (h₄.skipNewlines fun s₅ h₅ _ => ?_)
    refine .bind ((hmirrors.expression 0).at hloud h₅)
      (h₅.call (hinner.expression 0 s₅ h₅.lt) fun tail s₆ h₆ => ?_)
    refine .step (.skipNewlines (hdeep h₆).sheltered) (h₆.skipNewlines fun s₇ h₇ _ => ?_)
    refine .bind (.expectCloser (hdeep h₇)) (h₇.expectCloser fun _ s₈ h₈ => ?_)
    refine .step (.spanFrom (base_lt_of_reached h₈ hlive)) (.spanFrom fun _ => .pure ?_)
    exact Expr.relocate_listCons_foldr ..
  · refine .bind (.expectCloser (hdeep h₃)) (h₃.expectCloser fun _ s₄ h₄ => ?_)
    exact .step (.spanFrom (base_lt_of_reached h₄ hlive)) (.spanFrom fun _ => .pure (by simp))

theorem agrees_curlyExpr (hloud : Loud true state) (hlive : P.Live state.position)
    (hlt : state.position < set.stream.size)
    (hkind : set.stream.kind state.position = .opener .curly) :
    P.Agrees never (curlyExpr inner) (curlyExpr inner) state := by
  have hdeep := fun {moved s} (h : set.Reached state moved [.curly] s) => deep_of_reached h hlive
  refine .step (.advance (inner_of_kind hkind rfl))
    ((Reached.refl hlt).advanceOpener hkind fun s₁ h₁ _ _ => ?_)
  refine .step (.skipNewlines (hdeep h₁).sheltered) (h₁.skipNewlines fun s₂ h₂ _ => ?_)
  refine .step (.current (hdeep h₂).sheltered.shown) (.current ?_)
  refine .ite (fun hclose => ?_) fun _ => .ite (fun _ => ?_) fun _ => ?_
  · refine .step (.advance (hdeep h₂).inner)
      (h₂.advanceCloser (beq_iff_eq.1 hclose) fun s₃ h₃ => ?_)
    exact .step (.spanFrom (base_lt_of_reached h₃ hlive)) (.spanFrom fun _ => .pure (by simp))
  · exact agrees_comprehension hinner hmirrors hloud hlive h₂
  · exact agrees_listExpr hinner hmirrors hloud hlive h₂

/-! ### Application -/

omit hinner hmirrors in
theorem rejects_atom (hboundary : (set.stream.kind state.position).isBoundary = true) :
    set.Rejects (atom inner) state := by
  have hne := fun {kind : TokenKind} (hkind : set.stream.kind state.position = kind)
    (hother : kind.isBoundary = false) => TokenKind.ne_of_isBoundary hboundary hother hkind
  refine Runs.bind (.current ?_)
  split
  · next hkind => exact (hne hkind rfl).elim
  · next hkind => exact (hne hkind rfl).elim
  · next hkind => exact (hne hkind rfl).elim
  · next hkind => exact (hne hkind rfl).elim
  · next hkind => exact (hne hkind rfl).elim
  · exact rejects_tokenOperand hboundary

theorem mirrors_atom (hwarns : set.Warns) : P.Mirrors true (atom inner) := by
  intro state hlt hloud
  refine .of_live (obeys_atom hwarns hinner state hlt) rejects_atom fun hlive => ?_
  have h : set.Reached state false [] state := .refl hlt
  refine .step (.current hlive.shown) (.current ?_)
  dsimp only [Relocation.move, Relocatable.relocate, Token.relocate_kind]
  split
  · next hkind =>
    have hboundary : (set.stream.kind state.position).isBoundary = false := by
      rw [TokenStream.kind, hkind]
      rfl
    have hin : P.Inner state.position := inner_of_kind hkind rfl
    have hrecord : (set.stream.token (state.position + 1)).kind = .opener .square →
        P.Agrees never
          (do
            let _ ← advance
            recordExpr inner (set.stream.token state.position))
          (do
            let _ ← advance
            recordExpr inner ((set.stream.token state.position).relocate P.relocation)) state := by
      intro hopener
      refine .step (.advance hin) (h.advancePlain hkind rfl fun s₁ h₁ hposition => ?_)
      have hopener : set.stream.kind s₁.position = .opener .square := by
        rw [hposition]
        exact hopener
      refine .of_live (proceeds_recordExpr hinner h₁.lt hopener) (fun hboundary => ?_)
        fun hlive₁ => agrees_recordExpr hinner hmirrors (hloud.reached h₁) hlive₁ h₁.lt hopener
      rw [hopener] at hboundary
      cases hboundary
    refine .bind_peek hin (.ite_iff (touching_iff hlive hboundary rfl (Or.inl rfl)) ?_ ?_)
      fun hstop token htoken => .ite_iff (touching_iff hlive hboundary rfl (Or.inr ⟨hstop, htoken⟩))
        ?_ ?_
    · exact fun htouching => hrecord (beq_iff_eq.1 (Bool.and_eq_true_iff.1 htouching).1)
    · exact fun _ => mirrors_tokenOperand state hlt hloud
    · exact fun htouching => hrecord (beq_iff_eq.1 (Bool.and_eq_true_iff.1 htouching).1)
    · exact fun _ => mirrors_tokenOperand state hlt hloud
  · next hkind => exact agrees_roundExpr hinner hmirrors hloud hlive hlt hkind
  · next hkind => exact agrees_squareExpr hinner hmirrors hwarns hloud hlive hlt hkind
  · next hkind => exact agrees_curlyExpr hinner hmirrors hloud hlive hlt hkind
  · next hkind =>
    have hin : P.Inner state.position := inner_of_kind hkind rfl
    have hupdate : P.Agrees never
        (do
          let _ ← advance
          let fields ← updateFields inner
          let span ← spanFrom (set.stream.token state.position).span
          return Expr.recordUpdateLambda fields span)
        (do
          let _ ← advance
          let fields ← updateFields inner
          let span ← spanFrom ((set.stream.token state.position).span.relocate P.relocation)
          return Expr.recordUpdateLambda fields span) state := by
      refine .step (.advance hin) (h.advancePlain hkind rfl fun s₁ h₁ _ => ?_)
      refine .bind ((mirrors_updateFields hinner hmirrors).at hloud h₁)
        (h₁.call (obeys_updateFields hinner s₁ h₁.lt) fun fields s₂ h₂ => ?_)
      exact .step (.spanFrom (base_lt_of_reached h₂ hlive)) (.spanFrom fun _ => .pure (by simp))
    refine .bind_peek hin (.ite (fun _ => hupdate) fun _ => .unexpected)
      fun hstop token htoken => .ite_iff ?_ (fun _ => hupdate) fun _ => .unexpected
    rw [beq_iff_eq, beq_iff_eq]
    exact iff_of_false (TokenKind.ne_of_isBoundary hstop rfl) (TokenKind.ne_of_isLimit htoken rfl)
  · exact mirrors_tokenOperand state hlt hloud

theorem agrees_suffix {target : Expr} (hloud : Loud true state) (hlt : state.position < set.stream.size)
    (hkind : set.stream.kind state.position = .dot) :
    P.Agrees never (suffix inner target) (suffix inner (target.relocate P.relocation)) state := by
  have hin : P.Inner state.position := inner_of_kind hkind rfl
  refine .of_shown (proceeds_suffix hinner hlt hkind) hin.shown fun hlive => ?_
  have hboundary : (set.stream.kind state.position).isBoundary = false := by
    rw [hkind]
    rfl
  refine .step (.advance hin) ((Reached.refl hlt).advancePlain hkind rfl fun s₁ h₁ hposition => ?_)
  have hiff := fun {kind : TokenKind} (hkind : kind.isLimit = false) {next : Token} hnext =>
    touching_iff hlive hboundary hkind (show next = _ ∨ _ from hnext)
  rw [← hposition] at hiff
  refine .bind_current (.ite_iff (hiff rfl (Or.inl rfl)) (fun hname => ?_)
    fun _ => .ite_iff (hiff rfl (Or.inl rfl)) (fun _ => ?_) fun _ => .unexpected)
    fun hstop token htoken => ?_
  · have hname := beq_iff_eq.1 (Bool.and_eq_true_iff.1 hname).1
    exact .step (.advance (inner_of_kind hname rfl))
      (h₁.advancePlain hname rfl fun s₂ h₂ _ => .pure (by simp))
  · refine .bind ((mirrors_updateFields hinner hmirrors).at hloud h₁)
      (h₁.call (obeys_updateFields hinner s₁ h₁.lt) fun fields s₂ h₂ => ?_)
    rw [Expr.relocate_span]
    exact .step (.spanFrom (base_lt_of_reached h₂ hlive)) (.spanFrom fun _ => .pure (by simp))
  · have hneither : ∀ {kind : TokenKind} {touches : Bool} {other : Token}, kind.isLimit = false →
        other.kind.isLimit = true → ¬(other.kind == kind && touches) = true := by
      intro kind touches other hkind hother h
      exact TokenKind.ne_of_isLimit hother hkind (beq_iff_eq.1 (Bool.and_eq_true_iff.1 h).1)
    have hstop := TokenKind.isLimit_of_isBoundary hstop
    rw [if_neg (hneither rfl hstop), if_neg (hneither rfl hstop), if_neg (hneither rfl htoken),
      if_neg (hneither rfl htoken)]
    exact .unexpected

omit hinner hmirrors in
theorem rejects_postfixExpr (hboundary : (set.stream.kind state.position).isBoundary = true) :
    set.Rejects (postfixExpr inner) state :=
  (rejects_atom hboundary).bind

theorem mirrors_postfixExpr (hwarns : set.Warns) : P.Mirrors true (postfixExpr inner) := by
  intro state hlt hloud
  refine .of_live (obeys_postfixExpr hwarns hinner state hlt) rejects_postfixExpr fun hlive => ?_
  refine .bind (mirrors_atom hinner hmirrors hwarns state hlt hloud)
    ((Reached.refl hlt).call (obeys_atom hwarns hinner state hlt) fun target s₁ h₁ => ?_)
  have hbase := fun {s} (hs : set.Reached s₁ false [] s) => base_lt_of_reached (h₁.trans hs) hlive
  exact .repeatWhile (fun _ hs => runs_startsSuffix hs.lt)
    (fun _ _ hs hdot => proceeds_suffix hinner hs.lt hdot)
    (fun _ hs => agrees_startsSuffix (hbase hs))
    (fun _ _ hs hdot => agrees_suffix hinner hmirrors ((hloud.reached h₁).reached hs) hs.lt hdot) h₁.lt (base_le_of_reached h₁ hlive)

end

end Parallel

end SableFrontend
