import SableFrontend.Proofs.Branches.Steps
import SableFrontend.Proofs.Grammar.Expr

/-!
Where conditionals of expressions lack their last branch. A conditional that is an expression is
reported if it does, and so is one that gives a block its value. What is read without such a report
may therefore stand anywhere (`Outline.Settled`), given that everything that it nests may.
-/

namespace SableFrontend

open SableFrontend.Parser Outline

-- the grammar unfolds into larger terms than instances are looked for by default
set_option synthInstance.maxSize 2000

/-! ### Types and patterns -/

namespace Parser.Lasting

instance : contextAhead.Lasting := by unfold contextAhead; infer_instance
instance : startsTypeAtom.Lasting := by unfold startsTypeAtom; infer_instance

section

variable (inner : TypeRule → Parser TypeExpr) [∀ rule, (inner rule).Lasting]

instance : (roundType inner).Lasting := by unfold roundType; dsimp only; infer_instance

instance : (typeAtom inner).Lasting :=
  .after fun token => by split <;> infer_instance

instance : (appliedType inner).Lasting := by unfold appliedType; infer_instance
instance : (effectEntries inner).Lasting := by unfold effectEntries; infer_instance

instance (entries : List TypeExpr) : (checkRow entries).Lasting := by
  unfold checkRow
  split <;> infer_instance

instance : (effectType inner).Lasting := by unfold effectType; dsimp only; infer_instance
instance : (typeApplication inner).Lasting := by unfold typeApplication; infer_instance
instance : (arrowType inner).Lasting := by unfold arrowType; infer_instance
instance : (constraint inner).Lasting := by unfold constraint; infer_instance
instance : (context inner).Lasting := by unfold context; infer_instance
instance : (typeExpr inner).Lasting := by unfold typeExpr; infer_instance

end

instance (budget : Nat) (rule : TypeRule) : (typeAt budget rule).Lasting := by
  induction budget generalizing rule with
  | zero => unfold typeAt; infer_instance
  | succ budget ih => cases rule <;> (unfold typeAt; infer_instance)

instance (token : Token) : (literalOf token).Lasting := by
  unfold literalOf
  split <;> infer_instance

instance : startsPatternAtom.Lasting :=
  .after fun token => by split <;> infer_instance

instance : recordBracketFollows.Lasting := by unfold recordBracketFollows; infer_instance
instance (sign : Token) : (negativeLiteral sign).Lasting := by
  unfold negativeLiteral; dsimp only; infer_instance

section

variable (inner : Parser Pattern) [inner.Lasting]

instance : (roundPattern inner).Lasting := by unfold roundPattern; dsimp only; infer_instance
instance : (curlyPattern inner).Lasting :=
  .after fun _ => .after fun _ => .after fun _ => by
    split
    · infer_instance
    · exact .after fun first => .after fun _ => .after fun more => by
        dsimp only
        infer_instance
instance : (recordPatternItem inner).Lasting := by
  unfold recordPatternItem; dsimp only; infer_instance

instance (constructor : Token) : (recordPattern inner constructor).Lasting :=
  .after fun _ => .after fun entries => .after fun _ => .after fun span => by
    dsimp only
    split <;> infer_instance

instance : (patternAtom inner).Lasting :=
  .after fun token => by split <;> infer_instance

instance : (pattern inner).Lasting := by unfold pattern; infer_instance

end

instance (budget : Nat) : (patternAt budget).Lasting := by
  induction budget with
  | zero => unfold patternAt; infer_instance
  | succ budget ih => unfold patternAt; infer_instance

end Parser.Lasting

/-! ### Answers -/

/-- What may be nested takes no report back, and what is read of it without the report of a missing
branch may stand anywhere, or among the statements of a block. -/
structure Nested.Settles (inner : Nested) : Prop where
  pattern : inner.pattern.Lasting
  patternAtom : inner.patternAtom.Lasting
  typeExpr : inner.typeExpr.Lasting
  typeAtom : inner.typeAtom.Lasting
  context : inner.context.Lasting
  expression : ∀ minPower k, (inner.expression minPower).Gives k (Every Settled)
  operand : ∀ k, inner.operand.Gives k (Every Settled)
  statement : ∀ k, inner.statement.Gives k (Every Listed)

section

variable {α β : Type}

/-- A node that is made of what may stand anywhere may stand anywhere. -/
theorem every_node [Forest α] {answer : α} {node : Outline} (htrees : trees answer = [node])
    (hplain : node.isPlain = true) (h : ∀ child ∈ node.children, child.Settled) :
    Every Settled answer := by
  rw [Every, htrees, List.forall_mem_singleton]
  exact settled_of_children hplain h

namespace Parser.Gives

variable {k : Prop} {q : α → Prop}

theorem unexpected {expected : List String} {context : String} :
    (Parser.unexpected expected context : Parser α).Gives k q :=
  after fun _ => after fun _ => throw

theorem failWith {kind : DiagnosticKind} {message : String} {span : Span} {notes : List String} :
    (Parser.failWith kind message span notes : Parser α).Gives k q :=
  after fun _ => throw

variable [Forest α] {p : Outline → Prop}

theorem mapM {action : β → Parser α} {list : List β}
    (haction : ∀ element ∈ list, (action element).Gives k (Every p)) :
    (list.mapM action).Gives k (Every p) := by
  have hloop : ∀ answers : List α,
      (List.mapM.loop action list answers).Gives (k ∧ Every p answers) (Every p) := by
    induction list with
    | nil => exact fun answers => pure fun hknown =>
        hknown.2.subset fun tree => mem_trees_reverse.1
    | cons first rest ih =>
      obtain ⟨hfirst, hrest⟩ := List.forall_mem_cons.1 haction
      exact fun answers => bind (hfirst.of_known And.left) fun answer => (ih hrest _).of_known
        fun hknown => ⟨hknown.1.1, every_cons.2 ⟨hknown.2, hknown.1.2⟩⟩
  exact (hloop []).of_known fun hknown => ⟨hknown, every_nil⟩

end Parser.Gives

instance Parser.Lasting.forM {action : β → Parser PUnit} {list : List β}
    [haction : ∀ element, (action element).Lasting] : (list.forM action).Lasting := by
  induction list with
  | nil => exact inferInstanceAs (pure ⟨⟩ : Parser PUnit).Lasting
  | cons first rest ih =>
    exact inferInstanceAs (action first >>= fun _ => rest.forM action).Lasting

end

/-! ### Square brackets without clauses or items -/

section

variable {k : Prop} {inner : Nested}

theorem gives_accessor : accessor.Gives k (Every Settled) :=
  .after fun _ => .after fun _ => .after fun _ => .after fun _ => .after fun _ => .after fun _ =>
    .pure fun _ => every_node rfl rfl (by simp [children, Expr.outline])

theorem gives_tokenOperand : tokenOperand.Gives k (Every Settled) := by
  refine .after fun token => ?_
  split
  · exact .after fun _ => .after fun literal =>
      .pure fun _ => List.forall_mem_singleton.2 literal.settled
  · exact .after fun _ => .pure fun _ => every_node rfl rfl (by simp [children, Expr.outline])
  · exact .after fun _ => .pure fun _ => every_node rfl rfl (by simp [children, Expr.outline])
  · exact .unexpected

theorem gives_leftSection : leftSection.Gives k (Every Settled) :=
  .after fun _ => .bind gives_tokenOperand fun left => .after fun _ => .after fun _ =>
    .after fun _ => .pure fun hknown =>
      every_node rfl rfl (by simpa [children, Expr.outline, Every] using hknown.2)

theorem gives_operatorSection (hinner : inner.Settles) :
    (operatorSection inner).Gives k (Every Settled) := by
  refine .after fun _ => .after fun _ => .after fun op => .after fun _ => .ite (fun _ => ?_) fun _ => ?_
  · exact .after fun _ => .after fun _ => .pure fun _ =>
      every_node rfl rfl (by simp [children, Expr.outline])
  · refine .bind (hinner.expression 0 _) fun right => .after fun _ => .after fun _ => .after fun _ =>
      .pure fun hknown => every_node rfl rfl ?_
    simpa [children, Expr.outline, Every] using hknown.2

/-! ### Records -/

theorem every_field {name : String} {value : Option Expr} {span : Span} (h : Every Settled value) :
    Every Settled (FieldAssign.mk name value span) :=
  every_node rfl rfl (by simpa [children, FieldAssign.outline, Every] using h)

theorem gives_recordItem (hinner : inner.Settles) :
    (recordItem inner).Gives k (Every Settled) := by
  have hvalue : (inner.expression 0 >>= recordValue).Gives k (Every Settled) := by
    refine .bind (hinner.expression 0 _) fun value => ?_
    unfold recordValue
    split
    · exact .after fun _ => .pure fun hknown => every_field hknown.2
    · exact .pure fun hknown => hknown.2
  refine .after fun token => .ite (fun _ => .after fun following => .ite (fun _ => ?_)
    fun _ => .ite (fun _ => ?_) fun _ => hvalue) fun _ => hvalue
  · exact .after fun _ => .after fun _ => .after fun _ => .bind (hinner.expression 0 _) fun value =>
      .after fun _ => .pure fun hknown => every_field hknown.2
  · exact .after fun _ => .pure fun _ => every_field every_none

instance (fields : List FieldAssign) : (checkRepeatedFields fields).Lasting := by
  unfold checkRepeatedFields; infer_instance

theorem gives_recordExpr (hinner : inner.Settles) {constructor : Token} :
    (recordExpr inner constructor).Gives k (Every Settled) := by
  refine .after fun _ => .bind (.items fun _ => gives_recordItem hinner) fun entries =>
    .after fun _ => .after fun span => ?_
  have hnode : ∀ (arguments : List Expr) (fields : List FieldAssign), Every Settled arguments →
      Every Settled fields →
      Every Settled (Expr.record constructor.value arguments fields span) :=
    fun arguments fields harguments hfields => every_node rfl rfl (by
      simpa [children, Expr.outline, Every, or_imp, forall_and] using ⟨harguments, hfields⟩)
  dsimp only
  split
  · exact .pure fun hknown => hnode _ _ (hknown.2.subset (trees_rights_subset entries)) every_nil
  · exact .after fun _ => .pure fun hknown =>
      hnode _ _ every_nil (hknown.2.subset (trees_lefts_subset entries))
  · exact .after fun _ => .after fun _ => .pure fun hknown =>
      hnode _ _ every_nil (hknown.2.subset (trees_lefts_subset entries))

theorem gives_updateFields (hinner : inner.Settles) :
    (updateFields inner).Gives k (Every Settled) := by
  refine .after fun _ => .bind (.items fun _ => gives_recordItem hinner) fun entries =>
    .after fun _ => .bind (.mapM (p := Settled) fun entry hmem => ?_) fun fields => .after fun _ =>
      .pure fun hknown => every_list.2 fun field hfield => ?_
  · cases entry with
    | inl field => exact .pure fun hknown => every_list.1 hknown.2 _ hmem
    | inr value => exact .after fun _ => .pure fun _ => every_none
  · obtain ⟨_, hmem, rfl⟩ := List.mem_filterMap.1 hfield
    exact every_list.1 hknown.2 _ hmem

/-! ### Clauses -/

theorem every_clause {patterns : List Pattern} {body : Expr} {span : Span}
    (h : Every Settled body) : Every Settled (Clause.mk patterns body span) := by
  refine every_node rfl rfl ?_
  have hpatterns := every_settled_patterns patterns
  simpa [children, Clause.outline, Every, or_imp, forall_and] using ⟨hpatterns, h _ List.mem_cons_self⟩

theorem gives_clause (hinner : inner.Settles) : (clause inner).Gives k (Every Settled) := by
  have hpattern := hinner.pattern
  have hfirst : (clausePattern inner).Lasting := by unfold clausePattern; infer_instance
  have hmore : (patternThenColon inner).Lasting := by unfold patternThenColon; infer_instance
  exact .after fun _ => .after fun first => .after fun more =>
    .bind (hinner.expression 0 _) fun body => .after fun _ => .pure fun hknown =>
      every_clause hknown.2

theorem gives_operationClause (hinner : inner.Settles) :
    (operationClause inner).Gives k (Every Settled) := by
  have hpattern := hinner.patternAtom
  have hrest : ∀ op : Token, (do
      let _ ← advance
      let arguments ← collectWhile (do return !(← isAt .pipe)) inner.patternAtom
      let _ ← advance
      let continuation ← expect .identifier "as continuation name"
      let _ ← expect .colon "after continuation"
      skipNewlines
      let body ← inner.expression 0
      return HandlerClause.operation op.value arguments continuation.value body
        (← spanFrom op.span)).Gives k (Every Settled) := by
    refine fun op => .after fun _ => .after fun arguments => .after fun _ => .after fun _ =>
      .after fun _ => .after fun _ => .bind (hinner.expression 0 _) fun body => .after fun _ =>
        .pure fun hknown => every_node rfl rfl ?_
    have harguments := every_settled_patterns arguments
    have hbody := hknown.2 _ List.mem_cons_self
    simpa [children, HandlerClause.outline, Every, or_imp, forall_and] using ⟨harguments, hbody⟩
  exact .after fun op => .ite (fun _ => .after fun _ => hrest op) fun _ => hrest op

theorem gives_lambdaClause (hinner : inner.Settles) :
    (lambdaClause inner).Gives k (Every Settled) :=
  .after fun _ => .ite (fun _ => .map (gives_operationClause hinner))
    fun _ => .map (gives_clause hinner)

/-- The clause of a handler that a clause is has the same body. -/
theorem gives_handlerClause {entry : Clause ⊕ HandlerClause} (h : k → Every Settled entry) :
    (handlerClause entry).Gives k (Every Settled) := by
  unfold handlerClause
  split
  · exact .pure h
  · next clause =>
    split
    · next binder hpatterns =>
      refine .ite (fun _ => .pure fun hknown => ?_) fun _ => .after fun _ => .pure fun _ => every_none
      have hclause := h hknown clause.outline List.mem_cons_self
      have hchildren : ∀ child ∈ clause.outline.children, child.Settled :=
        settled_child hclause.places (by cases clause; simp [Clause.outline]) hclause.kind_ne
      rw [Clause.children_outline, hpatterns] at hchildren
      refine every_node rfl rfl ?_
      simpa [children, HandlerClause.outline, trees] using hchildren
    · exact .after fun _ => .pure fun _ => every_none

theorem gives_clauseSet (hinner : inner.Settles) : (clauseSet inner).Gives k (Every Settled) := by
  refine .after fun _ => .bind (.items fun _ => gives_lambdaClause hinner) fun clauses =>
    .after fun _ => .after fun span => .ite (fun _ => ?_) fun _ => .pure fun hknown => ?_
  · refine .bind (.mapM (p := Settled) fun entry hmem => gives_handlerClause fun hknown =>
      every_list.1 hknown.2 _ hmem) fun kept => .pure fun hknown => every_node rfl rfl ?_
    have hkept : Every Settled (kept.filterMap id) := every_list.2 fun clause hclause => by
      obtain ⟨_, hmem, rfl⟩ := List.mem_filterMap.1 hclause
      exact every_list.1 hknown.2 _ hmem
    simpa [children, Expr.outline, Every] using hkept
  · have hclauses := hknown.2.subset (trees_lefts_subset clauses)
    exact every_node rfl rfl (by simpa [children, Expr.outline, Every] using hclauses)

/-! ### Blocks -/

/-- Below the statements of a block stands what may be listed, and its value may stand anywhere. -/
theorem every_block {statements : List Item} {result : Expr} {span : Span}
    (hstatements : Every Listed statements) (hresult : result.outline.Settled) :
    Every Settled (Expr.block statements result span) := by
  refine List.forall_mem_singleton.2 ⟨⟨(all_iff _).2 ⟨?_, ?_⟩, fun hlacks => ?_⟩, ?_⟩
  · intro field hfield child hchild
    simp only [Expr.outline, List.mem_cons, List.not_mem_nil, or_false] at hfield
    rcases hfield with rfl | rfl
    · rw [OutlineField.parts_ofNodes, itemOutlines_eq] at hchild
      exact ⟨fun hlacks => absurd hlacks (hstatements child hchild).complete, fun _ => ⟨rfl, rfl⟩⟩
    · rw [OutlineField.parts_ofNode, List.mem_singleton] at hchild
      subst hchild
      exact ⟨fun hlacks => absurd hlacks hresult.complete, fun hkind => absurd hkind hresult.kind_ne⟩
  · intro child hchild
    simp only [children, Expr.outline, List.flatMap_cons, OutlineField.parts_ofNodes, itemOutlines_eq,
      OutlineField.parts_ofNode, List.flatMap_nil, List.append_nil, List.mem_append,
      List.mem_singleton] at hchild
    rcases hchild with hchild | rfl
    · exact (hstatements child hchild).places
    · exact hresult.places
  · exact absurd hlacks.1 (by simp [Expr.outline])
  · simp [Expr.outline]

/-- An expression is no statement. -/
theorem Expr.kind_ne_statement (expr : Expr) : expr.outline.kind ≠ "ExprStmt" := by
  cases expr with
  | literal value => cases value <;> simp [outline, Literal.outline]
  | _ => simp [outline]

/-- The expression of a statement may stand anywhere, unless it lacks its last branch. -/
theorem settled_of_statement {value : Expr} {span : Span}
    (h : (Item.expression value span).outline.Listed)
    (hcomplete : ∀ branches place, value ≠ .conditional branches none place) :
    value.outline.Settled := by
  have hchildren := ((all_iff _).1 h.places).2
  refine ⟨⟨hchildren _ (by simp [children, Item.outline]), fun hlacks => ?_⟩, value.kind_ne_statement⟩
  obtain ⟨hkind, hbranch⟩ := hlacks
  cases value with
  | conditional branches otherwise place =>
    cases otherwise with
    | none => exact hcomplete branches place rfl
    | some otherwise => simp [Expr.outline, parts, trees] at hbranch
  | literal value => cases value <;> simp [Expr.outline, Literal.outline] at hkind
  | _ => simp [Expr.outline] at hkind

theorem gives_block (hinner : inner.Settles) : (block inner).Gives k (Every Settled) := by
  refine .after fun _ => .after fun _ => .bind (.items hinner.statement) fun groups =>
    .after fun close => .after fun _ => ?_
  split
  · exact .after fun _ => .ite (fun _ => .after fun _ => .throw) fun _ => .throw
  · next before value hsplit =>
    obtain ⟨span, hall⟩ := splitResult?_eq_some hsplit
    change (Statement.group groups.flatten).1 = _ at hall
    have hlisted : Every Listed groups → Every Listed before ∧
        (Item.expression value span).outline.Listed := by
      intro hgroups
      have hitems : Every Listed groups.flatten := hgroups.subset (by simp)
      have hitems := Statement.every_group Settled.toListed (fun h => ⟨h, by
        rw [TermDef.kind_outline]
        decide⟩) hitems
      rw [hall, Every, trees_append, List.forall_mem_append] at hitems
      exact ⟨hitems.1, hitems.2 _ List.mem_cons_self⟩
    split
    · exact .bind (q := fun _ => False) .reportMissing fun _ => .after fun _ =>
        .pure fun hknown => hknown.2.elim
    · next hcomplete =>
      refine .after fun _ => .pure fun hknown => ?_
      obtain ⟨hbefore, hvalue⟩ := hlisted hknown.2
      exact every_block hbefore (settled_of_statement hvalue hcomplete)

theorem gives_squareExpr (hinner : inner.Settles) :
    (squareExpr inner).Gives k (Every Settled) := by
  refine .after fun stream => .after fun state => ?_
  dsimp only
  split
  · exact gives_block hinner
  · exact gives_clauseSet hinner
  · exact gives_clauseSet hinner
  · exact gives_operatorSection hinner
  · exact gives_leftSection
  · exact gives_accessor
  · exact .after fun _ => .after fun _ => .failWith

/-! ### Round and curly brackets -/

theorem gives_roundExpr (hinner : inner.Settles) : (roundExpr inner).Gives k (Every Settled) := by
  refine .after fun _ => .after fun _ => .ite (fun _ => ?_) fun _ => ?_
  · exact .after fun _ => .after fun _ => .pure fun _ =>
      every_node rfl rfl (by simp [children, Expr.outline])
  refine .bind (hinner.expression 0 _) fun first => .after fun _ => .ite (fun _ => ?_) fun _ => ?_
  · exact .after fun _ => .pure fun hknown => hknown.2
  · refine .bind (.collectWhile fun _ => .after fun _ => hinner.expression 0 _) fun more =>
      .after fun _ => .after fun _ => .pure fun hknown => every_node rfl rfl ?_
    have hall := every_cons.2 ⟨hknown.1.2, hknown.2⟩
    simpa [children, Expr.outline, Every] using hall

theorem gives_comprehensionClause (hinner : inner.Settles) :
    (comprehensionClause inner).Gives k (Every Settled) := by
  have hpattern := hinner.pattern
  refine .after fun token => .ite (fun _ => ?_) fun _ => ?_
  · refine .after fun pattern => .after fun _ => .after fun _ => .bind (hinner.expression 0 _)
      fun source => .after fun _ => .pure fun hknown => every_node rfl rfl ?_
    have hsource := hknown.2 _ List.mem_cons_self
    simpa [children, ComprehensionClause.outline, or_imp, forall_and] using
      ⟨pattern.settled, hsource⟩
  · refine .bind (hinner.expression 0 _) fun condition => .after fun _ => .pure fun hknown =>
      every_node rfl rfl ?_
    simpa [children, ComprehensionClause.outline] using hknown.2 _ List.mem_cons_self

instance : startsComprehensionClause.Lasting := by
  unfold startsComprehensionClause; dsimp only; infer_instance

theorem gives_comprehension (hinner : inner.Settles) {start : Span} :
    (comprehension inner start).Gives k (Every Settled) := by
  refine .bind (.collectWhile fun _ => gives_comprehensionClause hinner) fun clauses =>
    .after fun _ => .after fun _ => .bind (hinner.expression 0 _) fun body => .after fun _ =>
      .after fun _ => .after fun _ => .pure fun hknown => every_node rfl rfl ?_
  have hclauses := hknown.1.2
  have hbody := hknown.2 _ List.mem_cons_self
  simpa [children, Expr.outline, Every, or_imp, forall_and] using ⟨hclauses, hbody⟩

theorem gives_listExpr (hinner : inner.Settles) {start : Span} :
    (listExpr inner start).Gives k (Every Settled) := by
  have hmore : ∀ k, (do
      let _ ← advance
      skipNewlines
      let element ← inner.expression 0
      skipNewlines
      return element : Parser Expr).Gives k (Every Settled) := fun k =>
    .after fun _ => .after fun _ => .bind (hinner.expression 0 _) fun element => .after fun _ =>
      .pure fun hknown => hknown.2
  refine .bind (hinner.expression 0 _) fun first => .after fun _ => .bind (.collectWhile hmore)
    fun more => .after fun _ => .ite (fun _ => ?_) fun _ => ?_
  · refine .after fun _ => .after fun _ => .bind (hinner.expression 0 _) fun tail => .after fun _ =>
      .after fun _ => .after fun span => .pure fun hknown => ?_
    have hall : ∀ element ∈ first :: more, Every Settled element :=
      every_list.1 (every_cons.2 ⟨hknown.1.1.2, hknown.1.2⟩)
    -- each element is put in front of what is settled already
    generalize first :: more = elements at hall
    induction elements with
    | nil => exact hknown.2
    | cons element rest ih =>
      obtain ⟨helement, hrest⟩ := List.forall_mem_cons.1 hall
      refine every_node rfl rfl ?_
      have helement' := helement _ List.mem_cons_self
      have hrest' := ih hrest _ List.mem_cons_self
      simpa [children, Expr.outline, or_imp, forall_and] using ⟨helement', hrest'⟩
  · refine .after fun _ => .after fun _ => .pure fun hknown => every_node rfl rfl ?_
    have hall := every_cons.2 ⟨hknown.1.2, hknown.2⟩
    simpa [children, Expr.outline, Every] using hall

theorem gives_curlyExpr (hinner : inner.Settles) : (curlyExpr inner).Gives k (Every Settled) := by
  refine .after fun _ => .after fun _ => .after fun token => ?_
  dsimp only
  refine .ite (fun _ => ?_) fun _ => .ite (fun _ => gives_comprehension hinner)
    fun _ => gives_listExpr hinner
  exact .after fun _ => .after fun _ => .pure fun _ =>
    every_node rfl rfl (by simp [children, Expr.outline])

/-! ### Application -/

theorem gives_atom (hinner : inner.Settles) : (atom inner).Gives k (Every Settled) := by
  refine .after fun token => ?_
  split
  · exact .after fun _ => .ite (fun _ => .after fun _ => gives_recordExpr hinner)
      fun _ => gives_tokenOperand
  · exact gives_roundExpr hinner
  · exact gives_squareExpr hinner
  · exact gives_curlyExpr hinner
  · refine .after fun _ => .ite (fun _ => ?_) fun _ => .unexpected
    refine .after fun _ => .bind (gives_updateFields hinner) fun fields => .after fun _ =>
      .pure fun hknown => every_node rfl rfl ?_
    simpa [children, Expr.outline, Every] using hknown.2
  · exact gives_tokenOperand

theorem gives_suffix (hinner : inner.Settles) {target : Expr} (h : k → Every Settled target) :
    (suffix inner target).Gives k (Every Settled) := by
  refine .after fun dot => .after fun token => .ite (fun _ => ?_) fun _ => .ite (fun _ => ?_)
    fun _ => .unexpected
  · refine .after fun _ => .pure fun hknown => every_node rfl rfl ?_
    simpa [children, Expr.outline] using h hknown _ List.mem_cons_self
  · refine .bind (gives_updateFields hinner) fun fields => .after fun _ => .pure fun hknown =>
      every_node rfl rfl ?_
    have htarget := h hknown.1 _ List.mem_cons_self
    have hfields := hknown.2
    simpa [children, Expr.outline, Every, or_imp, forall_and] using ⟨htarget, hfields⟩

instance : startsSuffix.Lasting := by unfold startsSuffix; infer_instance
instance : startsArgument.Lasting := by unfold startsArgument; infer_instance

theorem gives_postfixExpr (hinner : inner.Settles) :
    (postfixExpr inner).Gives k (Every Settled) :=
  .bind (gives_atom hinner) fun _ => .repeatWhile (fun _ => gives_suffix hinner And.right) And.right

/-! ### Conditionals and cases -/

theorem gives_guardedBranch (hinner : inner.Settles) {start : Span} :
    (guardedBranch inner start).Gives k (Every Settled) := by
  refine .bind (hinner.expression 0 _) fun condition => .after fun _ => .after fun _ =>
    .bind (hinner.expression 0 _) fun body => .after fun _ => .pure fun hknown =>
      every_node rfl rfl ?_
  have hcondition := hknown.1.2 _ List.mem_cons_self
  have hbody := hknown.2 _ List.mem_cons_self
  simpa [children, GuardedBranch.outline, or_imp, forall_and] using ⟨hcondition, hbody⟩

instance : newlineContinuesIf.Lasting := by unfold newlineContinuesIf; dsimp only; infer_instance
instance (kind : TokenKind) : (nextLineStartsWith kind).Lasting := by
  unfold nextLineStartsWith; infer_instance

/-- What stands below a conditional may stand anywhere. Only as a statement may it lack its last
branch. -/
theorem gives_conditional (hinner : inner.Settles) {asStatement : Bool} :
    (conditional inner asStatement).Gives k fun value => value.outline.All Places ∧
      (asStatement = false → Every Settled value) := by
  have hplaces : ∀ {branches : List GuardedBranch} {otherwise : Option Expr} (span : Span),
      Every Settled branches → Every Settled otherwise →
      (Expr.conditional branches otherwise span).outline.All Places := by
    intro branches otherwise span hbranches hotherwise
    refine places_of_children ?_
    simpa [children, Expr.outline, Every, or_imp, forall_and] using ⟨hbranches, hotherwise⟩
  have hmore : ∀ k, (do
      skipNewlines
      guardedBranch inner (← current).span).Gives k (Every Settled) := fun k =>
    .after fun _ => .after fun _ => gives_guardedBranch hinner
  refine .after fun start => .bind (gives_guardedBranch hinner) fun first =>
    .bind (.collectWhile hmore) fun more => ?_
  have hbranches : (k ∧ Every Settled first) ∧ Every Settled more →
      Every Settled (first :: more) := fun hknown => every_cons.2 ⟨hknown.1.2, hknown.2⟩
  have hlacking : (do
      return Expr.conditional (first :: more) none (← spanFrom start.span) : Parser Expr).Gives
        ((k ∧ Every Settled first) ∧ Every Settled more) fun value => value.outline.All Places :=
    .after fun span => .pure fun hknown => hplaces span (hbranches hknown) every_none
  refine .after fun _ => .after fun _ => .after fun _ => .ite (fun _ => ?_)
    fun _ => .ite (fun _ => ?_) fun hstatement => ?_
  · refine .after fun _ => .after fun _ => .after fun _ => .bind (hinner.expression 0 _)
      fun otherwise => .after fun span => .pure fun hknown => ?_
    have hall : (Expr.conditional (first :: more) (some otherwise) span).outline.All Places :=
      hplaces span (hbranches hknown.1) hknown.2
    refine ⟨hall, fun _ => List.forall_mem_singleton.2 ⟨⟨hall, fun hlacks => ?_⟩, by
      simp [Expr.outline]⟩⟩
    simpa [Expr.outline, parts, trees] using hlacks.2
  · exact .after fun _ => .bind (q := fun _ => False) .reportMissing fun _ =>
      .after fun _ => .pure fun hknown => hknown.2.elim
  · exact hlacking.mono fun value hvalue => ⟨hvalue, fun hfalse => by simp [hfalse] at hstatement⟩

instance (scrutinees : Nat) (clause : Clause) : (checkArity scrutinees clause).Lasting := by
  unfold checkArity; infer_instance

theorem gives_scrutinee (hinner : inner.Settles) : (scrutinee inner).Gives k (Every Settled) :=
  .bind (hinner.expression 0 _) fun _ => .after fun _ => .after fun _ => .pure And.right

theorem gives_caseExpr (hinner : inner.Settles) : (caseExpr inner).Gives k (Every Settled) := by
  refine .after fun _ => .bind (gives_scrutinee hinner) fun first =>
    .bind (.collectWhile fun _ => gives_scrutinee hinner) fun more => .after fun _ =>
      .bind (.items fun _ => gives_clause hinner) fun clauses => .after fun _ => .after fun _ =>
        .after fun _ => .pure fun hknown => every_node rfl rfl ?_
  obtain ⟨⟨⟨-, hfirst⟩, hmore⟩, hclauses⟩ := hknown
  simpa [children, Expr.outline, Every, or_imp, forall_and] using ⟨hfirst, hmore, hclauses⟩

theorem gives_application (hinner : inner.Settles) :
    (application inner).Gives k (Every Settled) := by
  refine .after fun _ => .ite (fun _ => ?_) fun _ => .ite (fun _ => gives_caseExpr hinner)
    fun _ => .bind (gives_postfixExpr hinner) fun _ => .repeatWhile (fun function => ?_) And.right
  · exact (gives_conditional hinner).mono fun _ h => h.2 rfl
  · refine .bind (gives_postfixExpr hinner) fun argument => .pure fun hknown =>
      every_node rfl rfl ?_
    have hfunction := hknown.1.2 _ List.mem_cons_self
    have hargument := hknown.2 _ List.mem_cons_self
    simpa [children, Expr.outline, or_imp, forall_and] using ⟨hfunction, hargument⟩

/-! ### Operators -/

instance (minPower : Nat) : (startsOperator minPower).Lasting := by
  unfold startsOperator; infer_instance

theorem gives_operand (hinner : inner.Settles) : (operand inner).Gives k (Every Settled) := by
  refine .after fun token => .ite (fun _ => ?_) fun _ => gives_application hinner
  refine .after fun _ => .bind (hinner.operand _) fun value => .pure fun hknown =>
    every_node rfl rfl ?_
  simpa [children, Expr.outline] using hknown.2 _ List.mem_cons_self

theorem gives_climb (hinner : inner.Settles) {soFar : Climb} (h : k → Every Settled soFar) :
    (climb inner soFar).Gives k (Every Settled) := by
  have hrest : ∀ (op : Token) (chained : Option Nat), (do
      let _ ← advance
      skipNewlines
      let right ← inner.expression (Fixity.ofOperator op.value).rightPower
      return {
        left := .binary soFar.left op.value right (soFar.left.span.join right.span)
        chained := chained } : Parser Climb).Gives k (Every Settled) := by
    refine fun op chained => .after fun _ => .after fun _ => .bind (hinner.expression _ _)
      fun right => .pure fun hknown => every_node rfl rfl ?_
    have hleft := h hknown.1 _ List.mem_cons_self
    have hright := hknown.2 _ List.mem_cons_self
    simpa [children, Expr.outline, or_imp, forall_and] using ⟨hleft, hright⟩
  refine .after fun op => ?_
  dsimp only
  exact .ite (fun _ => .after fun _ => hrest op _) fun _ => hrest op _

theorem gives_expression (hinner : inner.Settles) {minPower : Nat} :
    (expression inner minPower).Gives k (Every Settled) :=
  .bind (gives_operand hinner) fun _ =>
    .bind (.repeatWhile (fun _ => gives_climb hinner And.right) And.right) fun _ =>
      .pure And.right

end

end SableFrontend
