import SableFrontend.Grammar.Expr
import SableFrontend.Proofs.Grammar.Pattern
import SableFrontend.Proofs.Grammar.Type

/-!
The productions of expressions keep to the rules, given that everything that they nest does.

A block needs the most care. It may fail without a report of its own, because something has been
reported since it began; whatever that was, it is there, so its failure is a reported one all the
same. But it need not have been an error: the warning about an annotation whose name differs from
that of the definition after it counts as well.
-/

namespace SableFrontend

/-- What grouping the statements of a block reports. -/
theorem Statement.group_reports (statements : List Statement) :
    ∀ diagnostic ∈ (group statements).2,
      diagnostic.IsGrammatical ∨ diagnostic.IsMismatch := by
  have hsettle : ∀ (target : Option String) (statement : Statement) diagnostic,
      (statement.settle target).2 = some diagnostic →
        diagnostic.IsGrammatical ∨ diagnostic.IsMismatch := by
    intro target statement diagnostic h
    unfold settle at h
    split at h
    · split at h
      · cases h
      · cases h
        exact Or.inl ⟨rfl, DiagnosticKind.noConfusion, DiagnosticKind.noConfusion⟩
    · split at h
      · cases h
      · cases h
        exact Or.inl ⟨rfl, DiagnosticKind.noConfusion, DiagnosticKind.noConfusion⟩
      · dsimp only at h
        split at h
        · cases h
        · cases h
          exact Or.inr ⟨rfl, rfl⟩
    · cases h
  have hall : ∀ statements : List Statement, ∀ diagnostic ∈ (settleAll statements).2,
      diagnostic.IsGrammatical ∨ diagnostic.IsMismatch := by
    intro statements
    induction statements with
    | nil =>
      intro diagnostic hmem
      cases hmem
    | cons statement rest ih =>
      intro diagnostic hmem
      rcases List.mem_append.1 hmem with hfirst | hrest
      · exact hsettle _ statement diagnostic (Option.mem_toList.1 hfirst)
      · exact ih diagnostic hrest
  exact hall _

/-- What gives a block its value is the expression of its last statement. -/
theorem Parser.splitResult?_eq_some {statements before : List Item} {value : Expr}
    (h : splitResult? statements = some (before, value)) :
    ∃ span, statements = before ++ [.expression value span] := by
  unfold splitResult? at h
  split at h
  · next value' span hlast =>
    obtain ⟨before', rfl⟩ := List.getLast?_eq_some_iff.1 hlast
    rw [List.dropLast_concat] at h
    cases h
    exact ⟨span, rfl⟩
  · cases h

theorem TokenKind.isPlain_of_isName {kind : TokenKind}
    (h : ¬(!(kind == .identifier || kind == .typeIdentifier)) = true) : kind.isPlain = true := by
  simp only [Bool.not_eq_true, Bool.not_eq_false', Bool.or_eq_true, beq_iff_eq] at h
  rcases h with rfl | rfl <;> rfl

theorem Parser.startsArgument_apply (stream : TokenStream) {state : ParserState} :
    startsArgument stream state =
      (.ok (opensArgument (stream.token state.position).kind ||
        ((stream.token state.position).kind == .dot &&
          (stream.token (state.position + 1)).kind == .opener .square &&
          (stream.token state.position).touches (stream.token (state.position + 1)) &&
          !(stream.token (state.position - 1)).touches (stream.token state.position))), state) := by
  show (if opensArgument (stream.token state.position).kind then return true else
    (peek 1 >>= fun next => previous >>= fun before =>
      Pure.pure ((stream.token state.position).kind == .dot && next.kind == .opener .square &&
        (stream.token state.position).touches next &&
        !before.touches (stream.token state.position)) : Parser Bool)) stream state = _
  split
  · next hopens =>
    rw [hopens]
    rfl
  · next hopens =>
    rw [Bool.eq_false_iff.2 hopens]
    rfl

theorem Parser.opensArgument_of_isBoundary {kind : TokenKind} (h : kind.isBoundary = true) :
    opensArgument kind = false := by
  rcases TokenKind.eq_of_isBoundary h with rfl | rfl | ⟨bracket, rfl⟩ | rfl <;> rfl

/-- An expression in a record stands for itself, unless it looks like a field of another one. -/
def Parser.recordValue (value : Expr) : Parser (FieldAssign ⊕ Expr) :=
  match value with
  | .field _ name span => do
    reportError .malformedFieldPun "a field pun must be a bare identifier" span
      ["write `" ++ name ++ " = ...` to name the field explicitly"]
    return .inl { name := name, value := some value, span := span }
  | _ => return .inr value

/-- The production for brackets of a form. -/
def Parser.ofForm (inner : Nested) : BracketForm → Parser Expr
  | .block => block inner
  | .lambda | .handler => clauseSet inner
  | .operatorSection => operatorSection inner
  | .leftSection => leftSection
  | .accessor => accessor
  | .record | .recordUpdate | .ambiguous => ambiguousBracket

namespace Setting

open SableFrontend.Parser

/-- Everything that may be nested keeps to the rules. -/
structure Nests (set : Setting) (inner : Nested) : Prop where
  pattern : set.Obeys true inner.pattern
  patternAtom : set.Obeys true inner.patternAtom
  typeExpr : set.Obeys true inner.typeExpr
  typeAtom : set.Obeys true inner.typeAtom
  context : set.Obeys true inner.context
  expression : ∀ minPower, set.Obeys true (inner.expression minPower)
  operand : set.Obeys true inner.operand
  statement : set.Obeys true inner.statement

variable {set : Setting} {start state : ParserState} {inner : Nested}

/-! ### Looking -/

section

variable {stops : Abort → ParserState → Prop}

theorem Runs.newlineContinuesIf {returns : Bool → ParserState → Prop}
    (h : ∀ answer, returns answer state) :
    set.Runs newlineContinuesIf state returns stops :=
  .bind (.read (.bind (.get (.ite (fun _ => .pure (h _)) fun _ => .pure (h _)))))

theorem Runs.nextLineStartsWith {kind : TokenKind} {returns : Bool → ParserState → Prop}
    (h : returns
      (set.stream.kind (set.stream.skipWhile (· == .newline) state.position) == kind) state) :
    set.Runs (nextLineStartsWith kind) state returns stops := h

end

theorem obeys_startsArgument : set.Obeys false startsArgument := by
  intro state hlt
  refine .bind (.current (.ite (fun _ => .pure (.refl hlt)) fun _ => ?_))
  exact .bind (.peek (.bind (.previous (.pure (.refl hlt)))))

theorem runs_startsSuffix (hlt : state.position < set.stream.size) :
    set.Runs startsSuffix state
      (fun more final => set.Reached state false [] final ∧
        if more = true then set.stream.kind final.position = .dot else True)
      (set.Stops state) := by
  refine .bind (.current (.bind (.previous (.pure ⟨.refl hlt, ?_⟩))))
  split
  · next hmore => exact beq_iff_eq.1 (Bool.and_eq_true_iff.1 hmore).1
  · trivial

theorem runs_startsOperator {minPower : Nat} (hlt : state.position < set.stream.size) :
    set.Runs (startsOperator minPower) state
      (fun more final => set.Reached state false [] final ∧
        if more = true then set.stream.kind final.position = .operator else True)
      (set.Stops state) := by
  refine .bind (.current (.pure ⟨.refl hlt, ?_⟩))
  split
  · next hmore => exact beq_iff_eq.1 (Bool.and_eq_true_iff.1 hmore).1
  · trivial

/-- The test of a loop that goes on until a token of a kind comes next. -/
theorem runs_isNotAt {kind : TokenKind} (hlt : state.position < set.stream.size) :
    set.Runs (do return !(← isAt kind)) state
      (fun more final => set.Reached state false [] final ∧
        if more = true then True else set.stream.kind final.position = kind)
      (set.Stops state) := by
  refine .bind (.isAt (.pure ⟨.refl hlt, ?_⟩))
  split
  · trivial
  · next hdone => exact beq_iff_eq.1 (by simpa using hdone)

/-! ### Square brackets without clauses or items -/

theorem obeys_ambiguousBracket : set.Obeys true ambiguousBracket := by
  intro state hlt
  exact .bind (.current (.bind (.peek
    ((Reached.refl hlt).failWith DiagnosticKind.noConfusion DiagnosticKind.noConfusion))))

theorem obeys_accessor : set.Obeys true accessor := by
  intro state hlt
  refine .bind ((Reached.refl hlt).expectOpener fun opener s₁ h₁ _ _ => ?_)
  refine .bind (h₁.skipNewlines fun s₂ h₂ _ => ?_)
  refine .bind (h₂.collectBehind rfl (obeys_tokenValue rfl) fun path s₃ h₃ => ?_)
  refine .bind (h₃.skipNewlines fun s₄ h₄ _ => ?_)
  refine .bind (h₄.expectCloser fun _ s₅ h₅ => ?_)
  exact .bind (.spanFrom fun _ => .pure h₅)

theorem obeys_tokenOperand : set.Obeys true tokenOperand := by
  intro state hlt
  have h : set.Reached state false [] state := .refl hlt
  refine .bind (.current ?_)
  split
  · next hkind =>
    refine .bind (h.advancePlain hkind rfl fun s₁ h₁ _ => ?_)
    exact .bind (h₁.literalOf (TokenStream.token_mem hlt) fun _ => .pure h₁)
  · next hkind => exact .bind (h.advancePlain hkind rfl fun s₁ h₁ _ => .pure h₁)
  · next hkind => exact .bind (h.advancePlain hkind rfl fun s₁ h₁ _ => .pure h₁)
  · exact h.unexpected

theorem obeys_leftSection : set.Obeys true leftSection := by
  intro state hlt
  refine .bind ((Reached.refl hlt).expectOpener fun opener s₁ h₁ _ _ => ?_)
  refine .bind (h₁.call (obeys_tokenOperand s₁ h₁.lt) fun left s₂ h₂ => ?_)
  refine .bind (h₂.expectPlain rfl fun op s₃ h₃ => ?_)
  refine .bind (h₃.expectCloser fun _ s₄ h₄ => ?_)
  exact .bind (.spanFrom fun _ => .pure h₄)

/-! ### Records -/

theorem obeys_checkRepeatedFields {fields : List FieldAssign} :
    set.Obeys false (checkRepeatedFields fields) := by
  intro state hlt
  refine (Reached.refl hlt).forM (fun field _ _ _ hs next => ?_) fun final hfinal => hfinal
  exact hs.reportError DiagnosticKind.noConfusion DiagnosticKind.noConfusion next

theorem Reached.recordValue (h : set.Reached start true [] state) {value : Expr} :
    set.Runs (recordValue value) state
      (fun _ final => set.Reached start true [] final) (set.Stops start) := by
  unfold Parser.recordValue
  split
  · exact .bind (h.reportError DiagnosticKind.noConfusion DiagnosticKind.noConfusion
      fun s₁ h₁ => .pure h₁)
  · exact .pure h

theorem obeys_recordItem (hinner : set.Nests inner) : set.Obeys true (recordItem inner) := by
  intro state hlt
  have h : set.Reached state false [] state := .refl hlt
  have hvalue : ∀ {next : Expr → Parser (FieldAssign ⊕ Expr)},
      (∀ value final, set.Reached state true [] final →
        set.Runs (next value) final (fun _ final => set.Reached state true [] final)
          (set.Stops state)) →
      set.Proceeds true (inner.expression 0 >>= next) state :=
    fun hnext => .bind (h.call (hinner.expression 0 state hlt) hnext)
  refine .bind (.current (.ite (fun hname => ?_)
    fun _ => hvalue fun _ _ hfinal => hfinal.recordValue))
  have hkind := beq_iff_eq.1 hname
  refine .bind (.peek (.ite (fun hassign => ?_) fun _ => .ite (fun _ => ?_)
    fun _ => hvalue fun _ _ hfinal => hfinal.recordValue))
  · refine .bind (h.advancePlain hkind rfl fun s₁ h₁ hposition => ?_)
    have hassign : set.stream.kind s₁.position = .assign := by
      rw [hposition]
      exact beq_iff_eq.1 hassign
    refine .bind (h₁.advancePlain hassign rfl fun s₂ h₂ _ => ?_)
    refine .bind (h₂.skipNewlines fun s₃ h₃ _ => ?_)
    refine .bind (h₃.call (hinner.expression 0 s₃ h₃.lt) fun value s₄ h₄ => ?_)
    exact .bind (.spanFrom fun _ => .pure h₄)
  · exact .bind (h.advancePlain hkind rfl fun s₁ h₁ _ => .pure h₁)

theorem proceeds_recordExpr (hinner : set.Nests inner) {constructor : Token}
    (hlt : state.position < set.stream.size)
    (hkind : set.stream.kind state.position = .opener .square) :
    set.Proceeds true (recordExpr inner constructor) state := by
  refine .bind ((Reached.refl hlt).advanceOpener hkind fun s₁ h₁ hopens _ => ?_)
  refine .bind (h₁.items hopens (obeys_recordItem hinner) fun entries s₂ h₂ _ => ?_)
  refine .bind (h₂.expectCloser fun _ s₃ h₃ => ?_)
  refine .bind (.spanFrom fun span => ?_)
  dsimp only
  split
  · exact .pure h₃
  · exact .bind (h₃.call (obeys_checkRepeatedFields s₃ h₃.lt) fun _ s₄ h₄ => .pure h₄)
  · refine .bind (h₃.reportError DiagnosticKind.noConfusion DiagnosticKind.noConfusion
      fun s₄ h₄ => ?_)
    exact .bind (h₄.call (obeys_checkRepeatedFields s₄ h₄.lt) fun _ s₅ h₅ => .pure h₅)

theorem obeys_updateField (entry : FieldAssign ⊕ Expr) : set.Obeys false (updateField entry) := by
  intro state hlt
  have h : set.Reached state false [] state := .refl hlt
  cases entry with
  | inl field => exact .pure h
  | inr value =>
    exact .bind (h.reportError DiagnosticKind.noConfusion DiagnosticKind.noConfusion
      fun s₁ h₁ => .pure h₁)

theorem obeys_updateFields (hinner : set.Nests inner) : set.Obeys true (updateFields inner) := by
  intro state hlt
  refine .bind ((Reached.refl hlt).expectOpener fun opener s₁ h₁ hopens _ => ?_)
  refine .bind (h₁.items hopens (obeys_recordItem hinner) fun entries s₂ h₂ _ => ?_)
  refine .bind (h₂.expectCloser fun _ s₃ h₃ => ?_)
  refine .bind (h₃.mapM obeys_updateField fun fields s₄ h₄ => ?_)
  exact .bind (h₄.call (obeys_checkRepeatedFields s₄ h₄.lt) fun _ s₅ h₅ => .pure h₅)

/-! ### Clauses -/

theorem obeys_patternThenColon (hinner : set.Nests inner) :
    set.Obeys false (patternThenColon inner) := by
  intro state hlt
  have hattempt : set.Obeys true (do let _ ← inner.pattern; isAt .colon) := fun s hs =>
    .bind ((Reached.refl hs).call (hinner.pattern s hs) fun _ s₁ h₁ => .isAt h₁)
  exact proceeds_speculate hattempt hlt

theorem obeys_clausePattern (hinner : set.Nests inner) : set.Obeys true (clausePattern inner) := by
  intro state hlt
  refine .bind ((Reached.refl hlt).call (hinner.pattern state hlt) fun pattern s₁ h₁ => ?_)
  refine .bind (h₁.expectPlain rfl fun _ s₂ h₂ => ?_)
  exact .bind (h₂.skipNewlines fun s₃ h₃ _ => .pure h₃)

theorem obeys_clause (hinner : set.Nests inner) : set.Obeys true (clause inner) := by
  intro state hlt
  have hpattern := obeys_clausePattern hinner
  refine .bind (.current (.bind ((Reached.refl hlt).call (hpattern state hlt)
    fun first s₁ h₁ => ?_)))
  refine .bind (h₁.collectWhile (obeys_patternThenColon hinner) hpattern fun more s₂ h₂ => ?_)
  refine .bind (h₂.call (hinner.expression 0 s₂ h₂.lt) fun body s₃ h₃ => ?_)
  exact .bind (.spanFrom fun _ => .pure h₃)

theorem obeys_operationClause (hinner : set.Nests inner) :
    set.Obeys true (operationClause inner) := by
  intro state hlt
  have h : set.Reached state false [] state := .refl hlt
  refine .bind (.current (.ite (fun _ => .bind h.unexpected) fun hname => ?_))
  refine .bind (h.advancePlain rfl (TokenKind.isPlain_of_isName hname) fun s₁ h₁ _ => ?_)
  refine .bind (h₁.loop (runs_collectWhile (fun _ hs => runs_isNotAt hs.lt)
    (fun _ hs _ => hinner.patternAtom _ hs.lt) h₁.lt) fun arguments s₂ h₂ hpipe => ?_)
  refine .bind (h₂.advancePlain hpipe rfl fun s₃ h₃ _ => ?_)
  refine .bind (h₃.expectPlain rfl fun continuation s₄ h₄ => ?_)
  refine .bind (h₄.expectPlain rfl fun _ s₅ h₅ => ?_)
  refine .bind (h₅.skipNewlines fun s₆ h₆ _ => ?_)
  refine .bind (h₆.call (hinner.expression 0 s₆ h₆.lt) fun body s₇ h₇ => ?_)
  exact .bind (.spanFrom fun _ => .pure h₇)

theorem obeys_lambdaClause (hinner : set.Nests inner) : set.Obeys true (lambdaClause inner) := by
  intro state hlt
  have h : set.Reached state false [] state := .refl hlt
  refine .bind (.firstStop (.ite (fun _ => ?_) fun _ => ?_))
  · exact .map (h.call (obeys_operationClause hinner state hlt) fun _ _ h₁ => h₁)
  · exact .map (h.call (obeys_clause hinner state hlt) fun _ _ h₁ => h₁)

theorem obeys_handlerClause (clause : Clause ⊕ HandlerClause) :
    set.Obeys false (handlerClause clause) := by
  intro state hlt
  have h : set.Reached state false [] state := .refl hlt
  unfold handlerClause
  split
  · exact .pure h
  · split
    · refine .ite (fun _ => .pure h) fun _ => ?_
      exact .bind (h.reportError DiagnosticKind.noConfusion DiagnosticKind.noConfusion
        fun s₁ h₁ => .pure h₁)
    · exact .bind (h.reportError DiagnosticKind.noConfusion DiagnosticKind.noConfusion
        fun s₁ h₁ => .pure h₁)

theorem obeys_clauseSet (hinner : set.Nests inner) : set.Obeys true (clauseSet inner) := by
  intro state hlt
  refine .bind ((Reached.refl hlt).expectOpener fun opener s₁ h₁ hopens _ => ?_)
  refine .bind (h₁.items hopens (obeys_lambdaClause hinner) fun clauses s₂ h₂ _ => ?_)
  refine .bind (h₂.expectCloser fun _ s₃ h₃ => ?_)
  refine .bind (.spanFrom fun span => .ite (fun _ => ?_) fun _ => .pure h₃)
  exact .bind (h₃.mapM obeys_handlerClause fun kept s₄ h₄ => .pure h₄)

/-! ### Blocks and sections -/

/-- A block that has no value fails, and something has been reported since its opener. -/
theorem obeys_block (hwarns : set.Warns) (hinner : set.Nests inner) :
    set.Obeys true (block inner) := by
  intro state hlt
  refine .bind ((Reached.refl hlt).expectOpener fun opener s₁ h₁ hopens hlog => ?_)
  refine .bind (.get (.bind (h₁.items hopens hinner.statement fun groups s₂ h₂ _ => ?_)))
  refine .bind (h₂.expectCloser fun close s₃ h₃ => ?_)
  refine .bind (h₃.forM (fun diagnostic hmem _ _ hs next => ?_) fun s₄ h₄ => ?_)
  · refine hs.report ?_ next
    exact (Statement.group_reports _ diagnostic hmem).elim set.grammatical hwarns
  · split
    · refine .bind (.get (.ite (fun _ => ?_) fun hcount => ?_))
      · exact h₄.failWith DiagnosticKind.noConfusion DiagnosticKind.noConfusion
      · -- the count has grown since the opener, so the log has since the block began
        refine .throw (h₄.fail fun _ => ?_)
        have hle := h₄.follows.count_le
        have hne : s₄.log.count ≠ s₁.log.count := fun heq => hcount (beq_iff_eq.2 heq)
        rw [hlog] at hne
        omega
    · split
      · refine .bind (h₄.reportError DiagnosticKind.noConfusion DiagnosticKind.noConfusion
          fun s₅ h₅ => ?_)
        exact .bind (.spanFrom fun _ => .pure h₅)
      · exact .bind (.spanFrom fun _ => .pure h₄)

theorem obeys_operatorSection (hinner : set.Nests inner) :
    set.Obeys true (operatorSection inner) := by
  intro state hlt
  refine .bind ((Reached.refl hlt).expectOpener fun opener s₁ h₁ _ _ => ?_)
  refine .bind (h₁.skipNewlines fun s₂ h₂ _ => ?_)
  refine .bind (h₂.expectPlain rfl fun op s₃ h₃ => ?_)
  refine .bind (.isAt (.ite (fun hclose => ?_) fun _ => ?_))
  · refine .bind (h₃.advanceCloser (beq_iff_eq.1 hclose) fun s₄ h₄ => ?_)
    exact .bind (.spanFrom fun _ => .pure h₄)
  · refine .bind (h₃.call (hinner.expression 0 s₃ h₃.lt) fun right s₄ h₄ => ?_)
    refine .bind (h₄.skipNewlines fun s₅ h₅ _ => ?_)
    refine .bind (h₅.expectCloser fun _ s₆ h₆ => ?_)
    exact .bind (.spanFrom fun _ => .pure h₆)

theorem squareExpr_apply {stream : TokenStream} {form : BracketForm}
    (hform : BracketForm.atIndex stream.tokens (state.position : Int) = .ok form) (inner : Nested) :
    squareExpr inner stream state = ofForm inner form stream state := by
  have hread : (read : Parser TokenStream) stream state = (.ok stream, state) := rfl
  have hget : (get : Parser ParserState) stream state = (.ok state, state) := rfl
  simp only [squareExpr, bind_apply, hread, hget, hform]
  cases form <;> rfl

theorem obeys_squareExpr (hwarns : set.Warns) (hinner : set.Nests inner) :
    set.Obeys true (squareExpr inner) := by
  intro state hlt
  refine .bind (.read (.bind (.get ?_)))
  dsimp only
  split
  · exact obeys_block hwarns hinner state hlt
  · exact obeys_clauseSet hinner state hlt
  · exact obeys_clauseSet hinner state hlt
  · exact obeys_operatorSection hinner state hlt
  · exact obeys_leftSection state hlt
  · exact obeys_accessor state hlt
  · exact obeys_ambiguousBracket state hlt

/-! ### Round and curly brackets -/

theorem proceeds_roundExpr (hinner : set.Nests inner) (hlt : state.position < set.stream.size)
    (hkind : set.stream.kind state.position = .opener .round) :
    set.Proceeds true (roundExpr inner) state := by
  refine .bind ((Reached.refl hlt).advanceOpener hkind fun s₁ h₁ _ _ => ?_)
  refine .bind (.isAt (.ite (fun hclose => ?_) fun _ => ?_))
  · refine .bind (h₁.advanceCloser (beq_iff_eq.1 hclose) fun s₂ h₂ => ?_)
    exact .bind (.spanFrom fun _ => .pure h₂)
  · refine .bind (h₁.call (hinner.expression 0 s₁ h₁.lt) fun first s₂ h₂ => ?_)
    refine .bind (.isAt (.ite (fun _ => ?_) fun _ => ?_))
    · exact .bind (h₂.expectCloser fun _ s₃ h₃ => .pure h₃)
    · refine .bind (h₂.collectBehind rfl (hinner.expression 0) fun more s₃ h₃ => ?_)
      refine .bind (h₃.expectCloser fun _ s₄ h₄ => ?_)
      exact .bind (.spanFrom fun _ => .pure h₄)

theorem proceeds_comprehensionClause (hinner : set.Nests inner)
    (hlt : state.position < set.stream.size)
    (hplain : (set.stream.kind state.position).isPlain = true) :
    set.Proceeds true (comprehensionClause inner) state := by
  refine .bind ((Reached.refl hlt).advancePlain rfl hplain fun s₁ h₁ _ => ?_)
  refine .ite (fun _ => ?_) fun _ => ?_
  · refine .bind (h₁.call (hinner.pattern s₁ h₁.lt) fun pattern s₂ h₂ => ?_)
    refine .bind (h₂.expectPlain rfl fun _ s₃ h₃ => ?_)
    refine .bind (h₃.skipNewlines fun s₄ h₄ _ => ?_)
    refine .bind (h₄.call (hinner.expression 0 s₄ h₄.lt) fun source s₅ h₅ => ?_)
    exact .bind (.spanFrom fun _ => .pure h₅)
  · refine .bind (h₁.call (hinner.expression 0 s₁ h₁.lt) fun condition s₂ h₂ => ?_)
    exact .bind (.spanFrom fun _ => .pure h₂)

theorem runs_startsComprehensionClause (hlt : state.position < set.stream.size) :
    set.Runs startsComprehensionClause state
      (fun more final => set.Reached state false [] final ∧
        if more = true then (set.stream.kind final.position).isPlain = true else True)
      (set.Stops state) := by
  refine .bind ((Reached.refl hlt).skipNewlines fun s₁ h₁ _ => ?_)
  refine .bind (.current (.pure ⟨h₁, ?_⟩))
  split
  · next hmore =>
    simp only [Bool.or_eq_true, beq_iff_eq] at hmore
    rcases hmore with hkind | hkind <;> rw [TokenStream.kind, hkind] <;> rfl
  · trivial

/-- The rest of a comprehension, inside the brackets that it closes. -/
theorem Reached.comprehension (hinner : set.Nests inner) {moved : Bool}
    (h : set.Reached start moved [.curly] state) {span : Span} :
    set.Runs (comprehension inner span) state
      (fun _ final => set.Reached start true [] final) (set.Stops start) := by
  refine .bind (h.loop (runs_collectWhile (fun _ hs => runs_startsComprehensionClause hs.lt)
    (fun _ hs hplain => proceeds_comprehensionClause hinner hs.lt hplain) h.lt)
    fun clauses s₁ h₁ _ => ?_)
  refine .bind (h₁.expectPlain rfl fun _ s₂ h₂ => ?_)
  refine .bind (h₂.skipNewlines fun s₃ h₃ _ => ?_)
  refine .bind (h₃.call (hinner.expression 0 s₃ h₃.lt) fun body s₄ h₄ => ?_)
  refine .bind (h₄.skipNewlines fun s₅ h₅ _ => ?_)
  refine .bind (h₅.expectCloser fun _ s₆ h₆ => ?_)
  exact .bind (.spanFrom fun _ => .pure h₆)

/-- The rest of a list, inside the brackets that it closes. -/
theorem Reached.listExpr (hinner : set.Nests inner) {moved : Bool}
    (h : set.Reached start moved [.curly] state) {span : Span} :
    set.Runs (listExpr inner span) state
      (fun _ final => set.Reached start true [] final) (set.Stops start) := by
  refine .bind (h.call (hinner.expression 0 state h.lt) fun first s₁ h₁ => ?_)
  refine .bind (h₁.skipNewlines fun s₂ h₂ _ => ?_)
  refine .bind (h₂.collectOnLines rfl (hinner.expression 0) fun more s₃ h₃ => ?_)
  refine .bind (.isAt (.ite (fun hpipe => ?_) fun _ => ?_))
  · refine .bind (h₃.advancePlain (beq_iff_eq.1 hpipe) rfl fun s₄ h₄ _ => ?_)
    refine .bind (h₄.skipNewlines fun s₅ h₅ _ => ?_)
    refine .bind (h₅.call (hinner.expression 0 s₅ h₅.lt) fun tail s₆ h₆ => ?_)
    refine .bind (h₆.skipNewlines fun s₇ h₇ _ => ?_)
    refine .bind (h₇.expectCloser fun _ s₈ h₈ => ?_)
    exact .bind (.spanFrom fun _ => .pure h₈)
  · refine .bind (h₃.expectCloser fun _ s₄ h₄ => ?_)
    exact .bind (.spanFrom fun _ => .pure h₄)

theorem proceeds_curlyExpr (hinner : set.Nests inner) (hlt : state.position < set.stream.size)
    (hkind : set.stream.kind state.position = .opener .curly) :
    set.Proceeds true (curlyExpr inner) state := by
  refine .bind ((Reached.refl hlt).advanceOpener hkind fun s₁ h₁ _ _ => ?_)
  refine .bind (h₁.skipNewlines fun s₂ h₂ _ => ?_)
  refine .bind (.current (.ite (fun hclose => ?_) fun _ => .ite (fun _ => ?_) fun _ => ?_))
  · refine .bind (h₂.advanceCloser (beq_iff_eq.1 hclose) fun s₃ h₃ => ?_)
    exact .bind (.spanFrom fun _ => .pure h₃)
  · exact h₂.comprehension hinner
  · exact h₂.listExpr hinner

/-! ### Application -/

theorem obeys_atom (hwarns : set.Warns) (hinner : set.Nests inner) :
    set.Obeys true (atom inner) := by
  intro state hlt
  have h : set.Reached state false [] state := .refl hlt
  refine .bind (.current ?_)
  split
  · next hkind =>
    refine .bind (.peek (.ite (fun hopener => ?_) fun _ => obeys_tokenOperand state hlt))
    refine .bind (h.advancePlain hkind rfl fun s₁ h₁ hposition => ?_)
    have hopener : set.stream.kind s₁.position = .opener .square := by
      rw [hposition]
      exact beq_iff_eq.1 (Bool.and_eq_true_iff.1 hopener).1
    exact h₁.call (proceeds_recordExpr hinner h₁.lt hopener) fun _ _ h₂ => h₂
  · next hkind => exact proceeds_roundExpr hinner hlt hkind
  · exact obeys_squareExpr hwarns hinner state hlt
  · next hkind => exact proceeds_curlyExpr hinner hlt hkind
  · next hkind =>
    refine .bind (.peek (.ite (fun _ => ?_) fun _ => h.unexpected))
    refine .bind (h.advancePlain hkind rfl fun s₁ h₁ _ => ?_)
    refine .bind (h₁.call (obeys_updateFields hinner s₁ h₁.lt) fun fields s₂ h₂ => ?_)
    exact .bind (.spanFrom fun _ => .pure h₂)
  · exact obeys_tokenOperand state hlt

theorem proceeds_suffix (hinner : set.Nests inner) {target : Expr}
    (hlt : state.position < set.stream.size) (hkind : set.stream.kind state.position = .dot) :
    set.Proceeds true (suffix inner target) state := by
  refine .bind ((Reached.refl hlt).advancePlain hkind rfl fun s₁ h₁ _ => ?_)
  refine .bind (.current (.ite (fun hname => ?_) fun _ => .ite (fun _ => ?_) fun _ => ?_))
  · have hname := beq_iff_eq.1 (Bool.and_eq_true_iff.1 hname).1
    exact .bind (h₁.advancePlain hname rfl fun s₂ h₂ _ => .pure h₂)
  · refine .bind (h₁.call (obeys_updateFields hinner s₁ h₁.lt) fun fields s₂ h₂ => ?_)
    exact .bind (.spanFrom fun _ => .pure h₂)
  · exact h₁.unexpected

theorem obeys_postfixExpr (hwarns : set.Warns) (hinner : set.Nests inner) :
    set.Obeys true (postfixExpr inner) := by
  intro state hlt
  refine .bind ((Reached.refl hlt).call (obeys_atom hwarns hinner state hlt)
    fun target s₁ h₁ => ?_)
  exact h₁.loop (runs_repeatWhile (fun _ hs => runs_startsSuffix hs.lt)
    (fun _ _ hs hdot => proceeds_suffix hinner hs.lt hdot) h₁.lt) fun _ _ h₂ _ => h₂

/-! ### Conditionals and cases -/

theorem obeys_guardedBranch (hinner : set.Nests inner) {span : Span} :
    set.Obeys true (guardedBranch inner span) := by
  intro state hlt
  refine .bind ((Reached.refl hlt).call (hinner.expression 0 state hlt) fun condition s₁ h₁ => ?_)
  refine .bind (h₁.expectPlain rfl fun _ s₂ h₂ => ?_)
  refine .bind (h₂.skipNewlines fun s₃ h₃ _ => ?_)
  refine .bind (h₃.call (hinner.expression 0 s₃ h₃.lt) fun body s₄ h₄ => ?_)
  exact .bind (.spanFrom fun _ => .pure h₄)

theorem obeys_conditional (hinner : set.Nests inner) {asStatement : Bool} :
    set.Obeys true (conditional inner asStatement) := by
  intro state hlt
  refine .bind ((Reached.refl hlt).expectPlain rfl fun _ s₁ h₁ => ?_)
  refine .bind (h₁.call (obeys_guardedBranch hinner s₁ h₁.lt) fun first s₂ h₂ => ?_)
  refine .bind (h₂.collectWhile (fun s hs => ?_) (fun s hs => ?_) fun more s₃ h₃ => ?_)
  · exact .bind (.isAt (.bind (.newlineContinuesIf fun _ => .pure (.refl hs))))
  · refine .bind ((Reached.refl hs).skipNewlines fun s₃ h₃ _ => ?_)
    exact .bind (.current (h₃.call (obeys_guardedBranch hinner s₃ h₃.lt) fun _ _ h₄ => h₄))
  · refine .bind (.isAt (.bind (.isAt (.bind (.nextLineStartsWith (.ite (fun helse => ?_)
      fun _ => ?_))))))
    · refine .bind (h₃.skipNewlines fun s₄ h₄ hposition => ?_)
      -- the keyword was seen where reading stood, or behind the newlines just skipped
      have hkind : set.stream.kind s₄.position = .keyword .elseWord := by
        rw [hposition]
        rcases Bool.or_eq_true_iff.1 helse with hhere | hnext
        · have hhere := beq_iff_eq.1 hhere
          rw [TokenStream.skipWhile_eq_self (by rw [hhere]; rfl), hhere]
        · exact beq_iff_eq.1 (Bool.and_eq_true_iff.1 hnext).2
      refine .bind (h₄.advancePlain hkind rfl fun s₅ h₅ _ => ?_)
      refine .bind (h₅.skipNewlines fun s₆ h₆ _ => ?_)
      refine .bind (h₆.call (hinner.expression 0 s₆ h₆.lt) fun otherwise s₇ h₇ => ?_)
      exact .bind (.spanFrom fun _ => .pure h₇)
    · refine .ite (fun _ => ?_) fun _ => ?_
      · refine .bind (.spanFrom fun _ => .bind ?_)
        exact h₃.reportError DiagnosticKind.noConfusion DiagnosticKind.noConfusion
          fun s₄ h₄ => .bind (.spanFrom fun _ => .pure h₄)
      · exact .bind (.spanFrom fun _ => .pure h₃)

theorem obeys_scrutinee (hinner : set.Nests inner) : set.Obeys true (scrutinee inner) := by
  intro state hlt
  refine .bind ((Reached.refl hlt).call (hinner.expression 0 state hlt) fun value s₁ h₁ => ?_)
  refine .bind (h₁.expectPlain rfl fun _ s₂ h₂ => ?_)
  exact .bind (h₂.skipNewlines fun s₃ h₃ _ => .pure h₃)

theorem Reached.checkArity {moved : Bool} {inside : List Bracket}
    (h : set.Reached start moved inside state) {scrutinees : Nat} {clause : Clause}
    {returns : Unit → ParserState → Prop} {stops : Abort → ParserState → Prop}
    (next : ∀ final, set.Reached start moved inside final → returns () final) :
    set.Runs (checkArity scrutinees clause) state returns stops :=
  .ite (fun _ => .pure (next state h)) fun _ =>
    h.reportError DiagnosticKind.noConfusion DiagnosticKind.noConfusion next

theorem obeys_caseExpr (hinner : set.Nests inner) : set.Obeys true (caseExpr inner) := by
  intro state hlt
  refine .bind ((Reached.refl hlt).expectPlain rfl fun _ s₁ h₁ => ?_)
  refine .bind (h₁.call (obeys_scrutinee hinner s₁ h₁.lt) fun first s₂ h₂ => ?_)
  refine .bind (h₂.loop (runs_collectWhile (fun _ hs => runs_isNotAt hs.lt)
    (fun _ hs _ => obeys_scrutinee hinner _ hs.lt) h₂.lt) fun more s₃ h₃ hopener => ?_)
  refine .bind (h₃.advanceOpener hopener fun s₄ h₄ hopens _ => ?_)
  refine .bind (h₄.items hopens (obeys_clause hinner) fun clauses s₅ h₅ _ => ?_)
  refine .bind (h₅.expectCloser fun _ s₆ h₆ => ?_)
  refine .bind (h₆.forM (fun clause _ _ _ hs next => hs.checkArity next) fun s₇ h₇ => ?_)
  exact .bind (.spanFrom fun _ => .pure h₇)

theorem obeys_application (hwarns : set.Warns) (hinner : set.Nests inner) :
    set.Obeys true (application inner) := by
  intro state hlt
  have hpostfixed := obeys_postfixExpr hwarns hinner
  refine .bind (.current (.ite (fun _ => obeys_conditional hinner state hlt)
    fun _ => .ite (fun _ => obeys_caseExpr hinner state hlt) fun _ => ?_))
  refine .bind ((Reached.refl hlt).call (hpostfixed state hlt) fun function s₁ h₁ => ?_)
  refine h₁.repeatWhile obeys_startsArgument (fun function s hs => ?_) fun _ _ h₂ => h₂
  exact .bind ((Reached.refl hs).call (hpostfixed s hs) fun argument s₂ h₂ => .pure h₂)

/-! ### Operators -/

theorem obeys_operand (hwarns : set.Warns) (hinner : set.Nests inner) :
    set.Obeys true (operand inner) := by
  intro state hlt
  refine .bind (.current (.ite (fun hprefix => ?_)
    fun _ => obeys_application hwarns hinner state hlt))
  have hkind := beq_iff_eq.1 (Bool.and_eq_true_iff.1 hprefix).1
  refine .bind ((Reached.refl hlt).advancePlain hkind rfl fun s₁ h₁ _ => ?_)
  exact .bind (h₁.call (hinner.operand s₁ h₁.lt) fun value s₂ h₂ => .pure h₂)

theorem proceeds_climb (hinner : set.Nests inner) {soFar : Climb}
    (hlt : state.position < set.stream.size) (hkind : set.stream.kind state.position = .operator) :
    set.Proceeds true (climb inner soFar) state := by
  have h : set.Reached state false [] state := .refl hlt
  refine .bind (.current (.ite (fun _ => .bind ?_) fun _ => ?_))
  · exact h.failWith DiagnosticKind.noConfusion DiagnosticKind.noConfusion
  · refine .bind (h.advancePlain hkind rfl fun s₁ h₁ _ => ?_)
    refine .bind (h₁.skipNewlines fun s₂ h₂ _ => ?_)
    exact .bind (h₂.call (hinner.expression _ s₂ h₂.lt) fun right s₃ h₃ => .pure h₃)

theorem obeys_expression (hwarns : set.Warns) (hinner : set.Nests inner) {minPower : Nat} :
    set.Obeys true (expression inner minPower) := by
  intro state hlt
  refine .bind ((Reached.refl hlt).call (obeys_operand hwarns hinner state hlt)
    fun first s₁ h₁ => ?_)
  refine .bind (h₁.loop (runs_repeatWhile (fun _ hs => runs_startsOperator hs.lt)
    (fun _ _ hs hkind => proceeds_climb hinner hs.lt hkind) h₁.lt) fun whole s₂ h₂ _ => ?_)
  exact .pure h₂

end Setting

end SableFrontend
