import SableFrontend.Proofs.Grammar.Entry
import SableFrontend.Proofs.Grammar.Nodes
import SableFrontend.Proofs.Tree.Grouping

/-!
The nodes of expressions. A production that is chosen by the form of an opener makes its node of the
opener and of the closer that belongs to it, so the node ends with that closer and is what the form
says. All other expressions are made up of what they nest.
-/

namespace SableFrontend

open TokenStream SableFrontend.Parser Outlined

namespace Setting

variable {set : Setting} {α : Type} {start state : ParserState} {inner : Nested}

/-- What may be nested keeps to the rules, and all nodes of it are formed as their square brackets
are. -/
structure Forms (set : Setting) (inner : Nested) : Prop where
  nests : set.Nests inner
  expression : ∀ minPower, set.Yields (inner.expression minPower)
  operand : set.Yields inner.operand
  statement : set.Yields inner.statement

/-! ### From an opener to its closer -/

section

variable {moved : Bool} {inside : List Bracket}

/-- A part of a production of which both is known, how it reads on and what it answers. -/
theorem Reached.yield [Outlined α] (h : set.Reached start moved inside state) {moved' : Bool}
    {parser : Parser α} (hobeys : set.Obeys moved' parser) (hyields : set.Yields parser)
    {returns : α → ParserState → Prop}
    (next : ∀ answer final, All set.stream.Formed answer →
      set.Reached start (moved || moved') inside final → returns answer final) :
    set.Answers parser state returns :=
  ((h.call (hobeys state h.lt) fun _ _ h' => h').and (hyields state)).mono
    (fun answer final hanswer => next answer final hanswer.2 hanswer.1) fun _ _ _ => trivial

theorem Reached.yieldItems [Outlined α] (h : set.Reached start moved inside state)
    (hopens : set.stream.Opens state.position (.closer .square)) {item : Parser α}
    (hobeys : set.Obeys true item) (hyields : set.Yields item) {commas : Bool} {what : String}
    {returns : List α → ParserState → Prop}
    (next : ∀ answers final, All set.stream.Formed answers →
      set.Reached start moved inside final → returns answers final) :
    set.Answers (Parser.items item (.closer .square) commas what) state returns :=
  ((h.items hopens hobeys fun _ _ h' _ => h').and (hyields.items state)).mono
    (fun answers final hanswers => next answers final hanswers.2 hanswers.1) fun _ _ _ => trivial

end

/-- Consuming an opener. -/
theorem answers_advance (hlt : state.position < set.stream.size)
    (hkind : set.stream.kind state.position = .opener .square)
    {returns : Token → ParserState → Prop}
    (next : ∀ final, final.position = state.position + 1 → set.Reached final false [] final →
      set.stream.Opens final.position (.closer .square) →
      returns (set.stream.token state.position) final) :
    set.Answers advance state returns := by
  have hnext : state.position + 1 < set.stream.size :=
    succ_lt_size hlt (by rw [hkind]; exact TokenKind.noConfusion)
  exact .advance hnext (next _ rfl (.refl hnext) (.afterOpener _ (Nat.succ_pos _) hkind))

theorem answers_opener {context : String} (hlt : state.position < set.stream.size)
    {returns : Token → ParserState → Prop}
    (next : ∀ final, final.position = state.position + 1 → set.Reached final false [] final →
      set.stream.Opens final.position (.closer .square) →
      returns (set.stream.token state.position) final) :
    set.Answers (expect (.opener .square) context) state returns :=
  .bind (.isAt (.ite (fun hat => answers_advance hlt (beq_iff_eq.1 hat) next) fun _ => trivial))

/-- The token consumed last closes what was opened in front of a place. -/
def Ended (set : Setting) (first : Nat) (state : ParserState) : Prop :=
  set.stream.Closes first (.closer .square) (state.position - 1)

section

variable {moved : Bool} (h : set.Reached start moved [] state)
  (hopens : set.stream.Opens start.position (.closer .square))
  {returns : Token → ParserState → Prop}
include h hopens

/-- Consuming the closer that belongs to an opener. -/
theorem Reached.close (hkind : set.stream.kind state.position = .closer .square)
    (next : ∀ final, set.Ended start.position final →
      returns (set.stream.token state.position) final) :
    set.Answers advance state returns := by
  have hnext : state.position + 1 < set.stream.size :=
    succ_lt_size h.lt (by rw [hkind]; exact TokenKind.noConfusion)
  exact .advance hnext (next _ (set.balanced.closes hopens h.within h.opened_eq hkind))

theorem Reached.expectClose {context : String}
    (next : ∀ final, set.Ended start.position final →
      returns (set.stream.token state.position) final) :
    set.Answers (expect (.closer .square) context) state returns :=
  .bind (.isAt (.ite (fun hat => h.close hopens (beq_iff_eq.1 hat) next) fun _ => trivial))

end

/-- The span from an opener to its closer. -/
theorem Ended.spanFrom {first : Nat} (h : set.Ended first state) {from' : Span}
    {returns : Span → ParserState → Prop}
    (next : ∀ span close, set.stream.Closes first (.closer .square) close →
      span.stop = (set.stream.token close).span.stop → returns span state) :
    set.Answers (Parser.spanFrom from') state returns :=
  .bind (.previous (.pure (next _ _ h rfl)))

/-! ### Square brackets without clauses or items -/

theorem yields_tokenOperand : set.Yields tokenOperand := by
  refine .after fun token => ?_
  split
  · exact .after fun _ => .after fun literal => .pure (literal.all_outline holdsOutside_formed)
  · exact .after fun _ => .pure ⟨holdsOutside_formed _ rfl, trivial, trivial⟩
  · exact .after fun _ => .pure ⟨holdsOutside_formed _ rfl, trivial, trivial⟩
  · exact .unexpected

theorem answers_accessor
    (hform : BracketForm.atIndex set.stream.tokens (state.position : Int) = .ok .accessor) :
    set.Answers accessor state fun answer _ => All set.stream.Formed answer := by
  obtain ⟨hlt, -⟩ := BracketForm.kind_of_atIndex hform
  refine .bind (answers_opener hlt fun s₁ hposition h₁ hopens => ?_)
  refine .bind (h₁.skipNewlines fun s₂ h₂ _ => ?_)
  refine .bind (h₂.collectBehind rfl (obeys_tokenValue rfl) fun path s₃ h₃ => ?_).answers
  refine .bind (h₃.skipNewlines fun s₄ h₄ _ => ?_)
  refine .bind (h₄.expectClose hopens fun s₅ hended => ?_)
  refine .bind (hended.spanFrom fun span close hcloses hstop => .pure ?_)
  rw [hposition] at hcloses
  exact ⟨formed_of_form hform hcloses hstop rfl (by decide), trivial, trivial⟩

theorem answers_leftSection
    (hform : BracketForm.atIndex set.stream.tokens (state.position : Int) = .ok .leftSection) :
    set.Answers leftSection state fun answer _ => All set.stream.Formed answer := by
  obtain ⟨hlt, -⟩ := BracketForm.kind_of_atIndex hform
  refine .bind (answers_opener hlt fun s₁ hposition h₁ hopens => ?_)
  refine .bind (h₁.yield obeys_tokenOperand yields_tokenOperand fun left s₂ hleft h₂ => ?_)
  refine .bind (h₂.expectPlain rfl fun op s₃ h₃ => ?_).answers
  refine .bind (h₃.expectClose hopens fun s₄ hended => ?_)
  refine .bind (hended.spanFrom fun span close hcloses hstop => .pure ?_)
  rw [hposition] at hcloses
  exact ⟨formed_of_form hform hcloses hstop rfl (by decide), trivial, hleft, trivial, trivial⟩

theorem answers_operatorSection (hinner : set.Forms inner)
    (hform : BracketForm.atIndex set.stream.tokens (state.position : Int) = .ok .operatorSection) :
    set.Answers (operatorSection inner) state fun answer _ => All set.stream.Formed answer := by
  obtain ⟨hlt, -⟩ := BracketForm.kind_of_atIndex hform
  refine .bind (answers_opener hlt fun s₁ hposition h₁ hopens => ?_)
  refine .bind (h₁.skipNewlines fun s₂ h₂ _ => ?_)
  refine .bind (h₂.expectPlain rfl fun op s₃ h₃ => ?_).answers
  refine .bind (.isAt (.ite (fun hat => ?_) fun _ => ?_))
  · refine .bind (h₃.close hopens (beq_iff_eq.1 hat) fun s₄ hended => ?_)
    refine .bind (hended.spanFrom fun span close hcloses hstop => .pure ?_)
    rw [hposition] at hcloses
    exact ⟨formed_of_form hform hcloses hstop rfl (by decide), trivial, trivial, trivial, trivial⟩
  · refine .bind (h₃.yield (hinner.nests.expression 0) (hinner.expression 0)
      fun right s₄ hright h₄ => ?_)
    refine .bind (h₄.skipNewlines fun s₅ h₅ _ => ?_)
    refine .bind (h₅.expectClose hopens fun s₆ hended => ?_)
    refine .bind (hended.spanFrom fun span close hcloses hstop => .pure ?_)
    rw [hposition] at hcloses
    exact ⟨formed_of_form hform hcloses hstop rfl (by decide), trivial, trivial, hright, trivial⟩

/-! ### Records -/

theorem yields_recordItem (hinner : set.Forms inner) : set.Yields (recordItem inner) := by
  have hvalue : ∀ value, All set.stream.Formed value → set.Yields (recordValue value) := by
    intro value h
    unfold recordValue
    split
    · exact .after fun _ => .pure (all_fieldAssign holdsOutside_formed (all_some h))
    · exact .pure h
  refine .after fun token => .ite (fun _ => .after fun following => .ite (fun _ => ?_)
    fun _ => .ite (fun _ => ?_) fun _ => ?_) fun _ => ?_
  · refine .after fun _ => .after fun _ => .after fun _ => ?_
    exact .bind (hinner.expression 0) fun value h => .after fun _ =>
      .pure (all_fieldAssign holdsOutside_formed (all_some h))
  · exact .after fun _ => .pure (all_fieldAssign holdsOutside_formed all_none)
  · exact .bind (hinner.expression 0) hvalue
  · exact .bind (hinner.expression 0) hvalue

theorem answers_recordExpr (hinner : set.Forms inner) {constructor : Token}
    (hform : BracketForm.atIndex set.stream.tokens (state.position : Int) = .ok .record) :
    set.Answers (recordExpr inner constructor) state
      fun answer _ => All set.stream.Formed answer := by
  obtain ⟨hlt, hkind⟩ := BracketForm.kind_of_atIndex hform
  refine .bind (answers_advance hlt hkind fun s₁ hposition h₁ hopens => ?_)
  refine .bind (h₁.yieldItems hopens (obeys_recordItem hinner.nests) (yields_recordItem hinner)
    fun entries s₂ hentries h₂ => ?_)
  refine .bind (h₂.expectClose hopens fun s₃ hended => ?_)
  refine .bind (hended.spanFrom fun span close hcloses hstop => ?_)
  rw [hposition] at hcloses
  have hrecord : ∀ arguments fields, All set.stream.Formed arguments →
      All set.stream.Formed fields →
      All set.stream.Formed (Expr.record constructor.value arguments fields span) :=
    fun arguments fields harguments hfields =>
      ⟨formed_of_form hform hcloses hstop rfl (by decide), trivial,
        (allNodes_iff rfl fun _ _ => rfl).2 harguments,
        (allNodes_iff rfl fun _ _ => rfl).2 hfields, trivial⟩
  dsimp only
  split
  · exact .pure (hrecord _ _ (all_rights hentries) all_nil)
  · exact Yields.after (fun _ => .pure (hrecord _ _ all_nil (all_lefts hentries))) s₃
  · exact Yields.after (fun _ => .after fun _ => .pure (hrecord _ _ all_nil (all_lefts hentries))) s₃

/-- Reporting for each element of a list stays where it is. -/
theorem answers_forM {β : Type} {action : β → Parser PUnit} {list : List β}
    (haction : ∀ element state, set.Answers (action element) state
      fun _ final => final.position = state.position) :
    ∀ state, set.Answers (list.forM action) state fun _ final => final.position = state.position := by
  induction list with
  | nil => exact fun _ => .pure rfl
  | cons first rest ih =>
    exact fun state => .bind ((haction first state).mono
      (fun _ middle hmiddle => (ih middle).mono (fun _ _ hfinal => hfinal.trans hmiddle)
        fun _ _ _ => trivial) fun _ _ _ => trivial)

theorem answers_checkRepeatedFields {fields : List FieldAssign} :
    set.Answers (checkRepeatedFields fields) state
      fun _ final => final.position = state.position :=
  answers_forM (fun _ _ => .report rfl) state

theorem answers_mapM_updateField {entries : List (FieldAssign ⊕ Expr)}
    (hentries : All set.stream.Formed entries) :
    set.Answers (entries.mapM updateField) state fun fields final =>
      All set.stream.Formed fields ∧ final.position = state.position := by
  have hloop : ∀ (fields : List (Option FieldAssign)) (state : ParserState),
      All set.stream.Formed fields → set.Answers (List.mapM.loop updateField entries fields) state
        fun fields final => All set.stream.Formed fields ∧ final.position = state.position := by
    induction entries with
    | nil => exact fun fields state h => .pure ⟨all_reverse h, rfl⟩
    | cons entry rest ih =>
      obtain ⟨hentry, hrest⟩ := List.forall_mem_cons.1 hentries
      intro fields state h
      refine .bind ?_
      cases entry with
      | inl field =>
        exact .pure (ih hrest _ state (all_cons (all_some (show All _ field from hentry)) h))
      | inr value =>
        exact .bind (.report (.pure (ih hrest _ _ (all_cons all_none h))))
  exact hloop [] state all_nil

/-- The fields of an update end with the closer that belongs to the opener in front of them. -/
theorem answers_updateFields (hinner : set.Forms inner) (hlt : state.position < set.stream.size) :
    set.Answers (updateFields inner) state fun fields final =>
      All set.stream.Formed fields ∧ set.Ended (state.position + 1) final := by
  refine .bind (answers_opener hlt fun s₁ hposition h₁ hopens => ?_)
  refine .bind (h₁.yieldItems hopens (obeys_recordItem hinner.nests) (yields_recordItem hinner)
    fun entries s₂ hentries h₂ => ?_)
  refine .bind (h₂.expectClose hopens fun s₃ hended => ?_)
  rw [hposition] at hended
  refine .bind ((answers_mapM_updateField hentries).mono (fun found s₄ ⟨hfound, hposition⟩ => ?_)
    fun _ _ _ => trivial)
  refine .bind (answers_checkRepeatedFields.mono (fun _ s₅ hposition' => ?_) fun _ _ _ => trivial)
  refine .pure ⟨all_present hfound, ?_⟩
  rw [Ended, hposition', hposition]
  exact hended

/-! ### Clauses -/

theorem yields_clause (hinner : set.Forms inner) : set.Yields (clause inner) := by
  refine .after fun _ => .after fun _ => .after fun _ => ?_
  exact .bind (hinner.expression 0) fun body h => .after fun _ =>
    .pure ((all_clause_iff holdsOutside_formed).2 h)

theorem yields_operationClause (hinner : set.Forms inner) :
    set.Yields (operationClause inner) := by
  have hrest : ∀ op : Token, set.Yields (do
      let _ ← advance
      let arguments ← collectWhile (do return !(← isAt .pipe)) inner.patternAtom
      let _ ← advance
      let continuation ← expect .identifier "as continuation name"
      let _ ← expect .colon "after continuation"
      skipNewlines
      let body ← inner.expression 0
      return HandlerClause.operation op.value arguments continuation.value body
        (← spanFrom op.span)) := by
    refine fun op => .after fun _ => .after fun arguments => .after fun _ => .after fun _ =>
      .after fun _ => .after fun _ => ?_
    exact .bind (hinner.expression 0) fun body h => .after fun _ =>
      .pure ⟨holdsOutside_formed _ rfl, trivial, all_patternOutlines holdsOutside_formed arguments,
        trivial, h, trivial⟩
  exact .after fun op => .ite (fun _ => .after fun _ => hrest op) fun _ => hrest op

theorem yields_lambdaClause (hinner : set.Forms inner) : set.Yields (lambdaClause inner) :=
  .after fun _ => .ite (fun _ => .map (yields_operationClause hinner) fun _ h => h)
    fun _ => .map (yields_clause hinner) fun _ h => h

theorem yields_handlerClause {clause : Clause ⊕ HandlerClause}
    (h : All set.stream.Formed clause) : set.Yields (handlerClause clause) := by
  unfold handlerClause
  split
  · exact .pure (all_some h)
  · next clause =>
    have hbody := (all_clause_iff holdsOutside_formed).1 h
    split
    · next binder _ =>
      refine .ite (fun _ => .pure (all_some ?_)) fun _ => .after fun _ => .pure all_none
      exact ⟨holdsOutside_formed _ rfl, binder.all_outline holdsOutside_formed, hbody, trivial⟩
    · exact .after fun _ => .pure all_none

/-- Clauses in brackets are a lambda or a handler, whichever of the two their form was. -/
theorem answers_clauseSet (hinner : set.Forms inner) {form : BracketForm}
    (hform : BracketForm.atIndex set.stream.tokens (state.position : Int) = .ok form)
    (huse : form.use? = some .clauses) :
    set.Answers (clauseSet inner) state fun answer _ => All set.stream.Formed answer := by
  obtain ⟨hlt, -⟩ := BracketForm.kind_of_atIndex hform
  refine .bind (answers_opener hlt fun s₁ hposition h₁ hopens => ?_)
  refine .bind (h₁.yieldItems hopens (obeys_lambdaClause hinner.nests)
    (yields_lambdaClause hinner) fun clauses s₂ hclauses h₂ => ?_)
  refine .bind (h₂.expectClose hopens fun s₃ hended => ?_)
  refine .bind (hended.spanFrom fun span close hcloses hstop => ?_)
  rw [hposition] at hcloses
  refine .ite (fun _ => ?_) fun _ => .pure ?_
  · refine Yields.bind (.mapM fun clause hmem => yields_handlerClause (hclauses clause hmem))
      (fun kept hkept => .pure ?_) s₃
    refine ⟨formed_of_form hform hcloses hstop huse (by decide), ?_, trivial⟩
    exact (allNodes_iff rfl fun _ _ => rfl).2 (all_present hkept)
  · exact ⟨formed_of_form hform hcloses hstop huse (by decide),
      (allNodes_iff rfl fun _ _ => rfl).2 (all_lefts hclauses), trivial⟩

/-! ### Blocks -/

theorem answers_block (hinner : set.Forms inner)
    (hform : BracketForm.atIndex set.stream.tokens (state.position : Int) = .ok .block) :
    set.Answers (block inner) state fun answer _ => All set.stream.Formed answer := by
  obtain ⟨hlt, -⟩ := BracketForm.kind_of_atIndex hform
  refine .bind (answers_opener hlt fun s₁ hposition h₁ hopens => ?_)
  refine .bind (.get (.bind (h₁.yieldItems hopens hinner.nests.statement hinner.statement
    fun groups s₂ hgroups h₂ => ?_)))
  refine .bind (h₂.expectClose hopens fun s₃ hended => ?_)
  rw [hposition] at hended
  have hitems := all_group holdsOutside_formed (all_flatten hgroups)
  refine .bind (Runs.reportAll ?_)
  dsimp only
  split
  · exact Yields.after (fun _ => .ite (fun _ => .after fun _ => .throw) fun _ => .throw) _
  · next before value hsplit =>
    obtain ⟨hbefore, hvalue⟩ : All set.stream.Formed before ∧ All set.stream.Formed value := by
      obtain ⟨span, hall⟩ := splitResult?_eq_some hsplit
      change (Statement.group groups.flatten).1 = _ at hall
      rw [hall] at hitems
      exact ⟨fun item hmem => hitems item (List.mem_append_left _ hmem),
        (hitems _ List.mem_concat_self).2.1⟩
    have hblock : ∀ {final}, set.Ended (state.position + 1) final →
        set.Answers (do return Expr.block before value (← spanFrom
          (set.stream.token state.position).span)) final
          fun answer _ => All set.stream.Formed answer := fun hended =>
      .bind (hended.spanFrom fun span close hcloses hstop => .pure
        ⟨formed_of_form hform hcloses hstop rfl (by decide),
          (allNodes_iff rfl fun _ _ => rfl).2 hbefore, hvalue, trivial⟩)
    split
    · exact .bind (.report (hblock hended))
    · exact hblock hended

/-- Square brackets become what their form says. -/
theorem yields_squareExpr (hinner : set.Forms inner) : set.Yields (squareExpr inner) := by
  intro state
  refine .bind (.read (.bind (.get ?_)))
  dsimp only
  split
  · next hform => exact answers_block hinner hform
  · next hform => exact answers_clauseSet hinner hform rfl
  · next hform => exact answers_clauseSet hinner hform rfl
  · next hform => exact answers_operatorSection hinner hform
  · next hform => exact answers_leftSection hform
  · next hform => exact answers_accessor hform
  · exact Yields.after (fun _ => .after fun _ => .failWith) state

/-! ### Round and curly brackets -/

theorem all_tuple {elements : List Expr} {span : Span} (h : All set.stream.Formed elements) :
    All set.stream.Formed (Expr.tuple elements span) :=
  ⟨holdsOutside_formed _ rfl, (allNodes_iff rfl fun _ _ => rfl).2 h, trivial⟩

theorem yields_roundExpr (hinner : set.Forms inner) : set.Yields (roundExpr inner) := by
  refine .after fun _ => .after fun _ => .ite (fun _ => .after fun _ => .after fun _ =>
    .pure (all_tuple all_nil)) fun _ => ?_
  refine .bind (hinner.expression 0) fun first hfirst => .after fun _ => .ite
    (fun _ => .after fun _ => .pure hfirst) fun _ => ?_
  refine .bind (.collectWhile (.after fun _ => hinner.expression 0)) fun more hmore => ?_
  exact .after fun _ => .after fun _ => .pure (all_tuple (all_cons hfirst hmore))

theorem yields_comprehensionClause (hinner : set.Forms inner) :
    set.Yields (comprehensionClause inner) := by
  refine .after fun _ => .ite (fun _ => ?_) fun _ => ?_
  · refine .after fun pattern => .after fun _ => .after fun _ => ?_
    exact .bind (hinner.expression 0) fun source h => .after fun _ =>
      .pure ⟨holdsOutside_formed _ rfl, pattern.all_outline holdsOutside_formed, h, trivial⟩
  · exact .bind (hinner.expression 0) fun condition h => .after fun _ =>
      .pure ⟨holdsOutside_formed _ rfl, h, trivial⟩

theorem yields_comprehension (hinner : set.Forms inner) {span : Span} :
    set.Yields (comprehension inner span) := by
  refine .bind (.collectWhile (yields_comprehensionClause hinner)) fun clauses hclauses => ?_
  refine .after fun _ => .after fun _ => .bind (hinner.expression 0) fun body hbody => ?_
  exact .after fun _ => .after fun _ => .after fun _ => .pure ⟨holdsOutside_formed _ rfl,
    (allNodes_iff rfl fun _ _ => rfl).2 hclauses, hbody, trivial⟩

theorem yields_listExpr (hinner : set.Forms inner) {span : Span} :
    set.Yields (listExpr inner span) := by
  refine .bind (hinner.expression 0) fun first hfirst => .after fun _ => ?_
  refine .bind (.collectWhile (.after fun _ => .after fun _ =>
    .bind (hinner.expression 0) fun element h => .after fun _ => .pure h)) fun more hmore => ?_
  have helements := all_cons hfirst hmore
  refine .after fun _ => .ite (fun _ => ?_) fun _ => ?_
  · refine .after fun _ => .after fun _ => .bind (hinner.expression 0) fun tail htail => ?_
    refine .after fun _ => .after fun _ => .after fun span => .pure ?_
    revert helements
    generalize first :: more = elements
    intro helements
    induction elements with
    | nil => exact htail
    | cons element rest ih =>
      obtain ⟨helement, hrest⟩ := List.forall_mem_cons.1 helements
      exact ⟨holdsOutside_formed _ rfl, helement, ih hrest, trivial⟩
  · exact .after fun _ => .after fun _ => .pure
      ⟨holdsOutside_formed _ rfl, (allNodes_iff rfl fun _ _ => rfl).2 helements, trivial⟩

theorem yields_curlyExpr (hinner : set.Forms inner) : set.Yields (curlyExpr inner) := by
  refine .after fun _ => .after fun _ => .after fun _ => .ite (fun _ => ?_) fun _ =>
    .ite (fun _ => yields_comprehension hinner) fun _ => yields_listExpr hinner
  exact .after fun _ => .after fun _ => .pure
    ⟨holdsOutside_formed _ rfl, (allNodes_iff rfl fun _ _ => rfl).2 all_nil, trivial⟩

/-! ### Application -/

/-- The form of an opener with a point in front of it, and whether the node that is made is of that
form. -/
theorem formed_of_dot {kind : String} {fields : List OutlineField} {span : Span}
    {position close : Nat} (hdot : set.stream.kind position = .dot)
    (hcloses : set.stream.Closes (position + 1 + 1) (.closer .square) close)
    (hstop : span.stop = (set.stream.token close).span.stop)
    (huse : BracketUse.ofKind? kind = some .update)
    (htouches : kind ≠ "RecordUpdateLambda" →
      (set.stream.token position).touches (set.stream.token (position + 1)) = true) :
    set.stream.Formed { kind := kind, fields := fields, span := span } := by
  intro use huse'
  obtain rfl := Option.some.inj (huse.symm.trans huse')
  have hopener : set.stream.kind (position + 1) = .opener .square := by
    cases hcloses.opens with
    | afterOpener _ _ hkind => exact hkind
  obtain ⟨form, hform, hiff⟩ := BracketForm.exists_atIndex_dot hdot hopener
  have huse : form.use? = some .update ↔ form = .recordUpdate := by cases form <;> decide
  refine ⟨position + 1, form, ⟨close, hcloses, hstop⟩, hform, ?_⟩
  rw [huse, hiff, Nat.add_sub_cancel]
  exact ⟨fun h _ => h, fun h => by
    by_cases hkind : kind = "RecordUpdateLambda"
    · exact h hkind
    · exact htouches hkind⟩

theorem yields_atom (hinner : set.Forms inner) : set.Yields (atom inner) := by
  intro state
  refine .bind (.current ?_)
  split
  · next hkind =>
    refine .bind (.peek (.ite (fun hrecord => ?_) fun _ => yields_tokenOperand state))
    rw [Bool.and_eq_true, beq_iff_eq] at hrecord
    have hform := BracketForm.atIndex_record hkind hrecord.1 hrecord.2
    refine .bind (.advance (succ_lt_size_of_kind hkind TokenKind.noConfusion) ?_)
    exact answers_recordExpr hinner hform
  · exact yields_roundExpr hinner state
  · exact yields_squareExpr hinner state
  · exact yields_curlyExpr hinner state
  · next hkind =>
    refine .bind (.peek (.ite (fun hopener => ?_) fun _ => Yields.unexpected state))
    have hlt := succ_lt_size_of_kind hkind TokenKind.noConfusion
    refine .bind (.advance hlt ?_)
    refine .bind ((answers_updateFields hinner hlt).mono (fun fields s₁ hread => ?_)
      fun _ _ _ => trivial)
    obtain ⟨hfields, hended⟩ := hread
    refine .bind (hended.spanFrom fun span close hcloses hstop => .pure ?_)
    exact ⟨formed_of_dot hkind hcloses hstop rfl fun hne => absurd rfl hne,
      (allNodes_iff rfl fun _ _ => rfl).2 hfields, trivial⟩
  · exact yields_tokenOperand state

theorem answers_suffix (hinner : set.Forms inner) {target : Expr}
    (htarget : All set.stream.Formed target) (hkind : set.stream.kind state.position = .dot) :
    set.Answers (suffix inner target) state fun answer _ => All set.stream.Formed answer := by
  have hlt := succ_lt_size_of_kind hkind TokenKind.noConfusion
  have hfield : ∀ name span, All set.stream.Formed (Expr.field target name span) :=
    fun _ _ => ⟨holdsOutside_formed _ rfl, htarget, trivial, trivial⟩
  refine .bind (.advance hlt (.bind (.current (.ite (fun _ => ?_) fun _ => .ite (fun hopener => ?_)
    fun _ => Yields.unexpected _))))
  · exact Yields.after (fun _ => .pure (hfield _ _)) _
  · rw [Bool.and_eq_true, beq_iff_eq] at hopener
    refine .bind ((answers_updateFields hinner hlt).mono (fun fields s₁ ⟨hfields, hended⟩ => ?_)
      fun _ _ _ => trivial)
    refine .bind (hended.spanFrom fun span close hcloses hstop => .pure ?_)
    exact ⟨formed_of_dot hkind hcloses hstop rfl fun _ => hopener.2, htarget,
      (allNodes_iff rfl fun _ _ => rfl).2 hfields, trivial⟩

theorem yields_postfixExpr (hinner : set.Forms inner) : set.Yields (postfixExpr inner) := by
  refine .bind (yields_atom hinner) fun target htarget => .repeatWhileAt (fun state => ?_)
    (fun value state hvalue hdot => answers_suffix hinner hvalue hdot) htarget
  exact .bind (.current (.bind (.previous (.pure fun hmore =>
    beq_iff_eq.1 (Bool.and_eq_true_iff.1 hmore).1))))

/-! ### Conditionals, cases and operators -/

theorem yields_guardedBranch (hinner : set.Forms inner) {span : Span} :
    set.Yields (guardedBranch inner span) := by
  refine .bind (hinner.expression 0) fun condition hcondition => .after fun _ => .after fun _ => ?_
  exact .bind (hinner.expression 0) fun body hbody => .after fun _ =>
    .pure ⟨holdsOutside_formed _ rfl, hcondition, hbody, trivial⟩

theorem yields_conditional (hinner : set.Forms inner) {asStatement : Bool} :
    set.Yields (conditional inner asStatement) := by
  have hbranch : ∀ span, set.Yields (guardedBranch inner span) :=
    fun _ => yields_guardedBranch hinner
  refine .after fun _ => .bind (hbranch _) fun first hfirst => ?_
  refine .bind (.collectWhile (.after fun _ => .after fun _ => hbranch _)) fun more hmore => ?_
  have hconditional : ∀ otherwise span, All set.stream.Formed otherwise →
      All set.stream.Formed (Expr.conditional (first :: more) otherwise span) :=
    fun otherwise span h => ⟨holdsOutside_formed _ rfl,
      (allNodes_iff rfl fun _ _ => rfl).2 (all_cons hfirst hmore),
      (allFields_ofNode? rfl fun _ => rfl).2 ⟨h, trivial⟩⟩
  refine .after fun _ => .after fun _ => .after fun _ => .ite (fun _ => ?_) fun _ => ?_
  · refine .after fun _ => .after fun _ => .after fun _ => ?_
    exact .bind (hinner.expression 0) fun otherwise h => .after fun span =>
      .pure (hconditional _ _ (all_some h))
  · exact .ite (fun _ => .after fun _ => .after fun _ => .after fun _ =>
      .pure (hconditional _ _ all_none)) fun _ => .after fun _ => .pure (hconditional _ _ all_none)

theorem yields_caseExpr (hinner : set.Forms inner) : set.Yields (caseExpr inner) := by
  have hscrutinee : set.Yields (scrutinee inner) :=
    .bind (hinner.expression 0) fun value h => .after fun _ => .after fun _ => .pure h
  refine .after fun _ => .bind hscrutinee fun first hfirst => ?_
  refine .bind (.collectWhile hscrutinee) fun more hmore => .after fun _ => ?_
  refine .bind (.items (yields_clause hinner)) fun clauses hclauses => ?_
  exact .after fun _ => .after fun _ => .after fun _ => .pure ⟨holdsOutside_formed _ rfl,
    (allNodes_iff rfl fun _ _ => rfl).2 (all_cons hfirst hmore),
    (allNodes_iff rfl fun _ _ => rfl).2 hclauses, trivial⟩

theorem yields_application (hinner : set.Forms inner) : set.Yields (application inner) := by
  refine .after fun _ => .ite (fun _ => yields_conditional hinner) fun _ =>
    .ite (fun _ => yields_caseExpr hinner) fun _ => ?_
  refine .bind (yields_postfixExpr hinner) fun function hfunction => .repeatWhile
    (fun function hfunction => ?_) hfunction
  exact .bind (yields_postfixExpr hinner) fun argument hargument =>
    .pure ⟨holdsOutside_formed _ rfl, hfunction, hargument, trivial⟩

theorem yields_operand (hinner : set.Forms inner) : set.Yields (operand inner) := by
  refine .after fun _ => .ite (fun _ => .after fun _ => ?_) fun _ => yields_application hinner
  exact .bind hinner.operand fun value h =>
    .pure ⟨holdsOutside_formed _ rfl, trivial, h, trivial⟩

theorem yields_expression (hinner : set.Forms inner) {minPower : Nat} :
    set.Yields (expression inner minPower) := by
  have hclimb : ∀ soFar, All set.stream.Formed soFar → set.Yields (climb inner soFar) := by
    intro soFar hleft
    have hrest : ∀ op : Token, set.Yields (do
        let _ ← advance
        skipNewlines
        let right ← inner.expression (Fixity.ofOperator op.value).rightPower
        return ({
          left := .binary soFar.left op.value right (soFar.left.span.join right.span)
          chained := if (Fixity.ofOperator op.value).associativity == .none then
            some (Fixity.ofOperator op.value).precedence else none } : Climb)) :=
      fun op => .after fun _ => .after fun _ => .bind (hinner.expression _) fun right hright =>
        .pure ⟨holdsOutside_formed _ rfl, hleft, trivial, hright, trivial⟩
    exact .after fun op => .ite (fun _ => .after fun _ => hrest op) fun _ => hrest op
  refine .bind (yields_operand hinner) fun first hfirst => ?_
  exact .bind (.repeatWhile hclimb hfirst) fun whole hwhole => .pure hwhole

end Setting

end SableFrontend
