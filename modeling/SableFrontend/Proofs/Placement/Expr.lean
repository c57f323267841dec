import SableFrontend.Proofs.Grammar.Expr
import SableFrontend.Proofs.Placement.Lines
import SableFrontend.Proofs.Placement.Type
import SableFrontend.Proofs.Token.BracketWindow

/-!
Expressions sit where they are read, given that everything that they nest does. Most nodes extend
from the first token of their production to the last. The others are made from the parts that they
join: an application, a binary operation, a suffix or a prefix leaves out the round brackets around
an operand, which belong to no node.

What a node must be like is checked where it is built, or is reported to be missing. A lambda has a
clause because brackets with nothing in them have another form.
-/

namespace SableFrontend

theorem Parser.repeatedFields_subset (seen : List String) (fields : List FieldAssign) :
    repeatedFields seen fields ⊆ fields := by
  induction fields generalizing seen with
  | nil => exact List.Subset.refl _
  | cons field rest ih =>
    rw [repeatedFields]
    split
    · exact List.cons_subset_cons _ (ih seen)
    · exact List.subset_cons_of_subset _ (ih _)

namespace Setting

open SableFrontend.Parser

/-- Everything that may be nested sits where it is read. -/
structure BuildsNested (set : Setting) (inner : Nested) : Prop where
  pattern : set.Builds inner.pattern
  patternAtom : set.Builds inner.patternAtom
  typeExpr : set.Builds inner.typeExpr
  typeAtom : set.Builds inner.typeAtom
  context : set.Builds inner.context
  expression : ∀ minPower, set.Builds (inner.expression minPower)
  operand : set.Builds inner.operand
  statement : set.ReadsItem set.stream.ReadsStatements inner.statement

variable {set : Setting} {start state : ParserState} {footing : Footing} {before : List Outline}
  {inner : Nested}

/-! ### Square brackets without clauses or items -/

/-- A token whose text alone is kept. -/
theorem builds_tokenValue {kind : TokenKind} {context : String} (hsolid : kind.isSolid = true) :
    set.Builds (do return (← expect kind context).value : Parser String) := fun _ hlt =>
  .bind ((Passed.refl hlt).expect hsolid fun _ _ h _ => .pure h)

theorem builds_ambiguousBracket : set.Builds ambiguousBracket := by
  intro state hlt
  have h : set.Passed state .firm [] state := .refl hlt
  exact .bind (.current (.bind (.peek (h.failWith h.marks))))

theorem builds_accessor : set.Builds accessor := by
  intro state hlt
  refine .bind ((Passed.refl hlt).expect rfl fun s₁ _ h₁ _ => ?_)
  refine .bind (h₁.skipNewlines fun s₂ h₂ => ?_)
  refine .bind (h₂.collectBehind rfl (builds_tokenValue rfl) fun path s₃ h₃ => ?_)
  refine .bind (h₃.skipNewlines fun s₄ h₄ => ?_)
  refine .bind (h₄.expect rfl fun s₅ _ h₅ _ => ?_)
  exact .bind (.spanFromPrevious (.pure (h₅.node rfl (by simp [Outline.children, Expr.outline])
    fun _ => trivial)))

theorem builds_tokenOperand : set.Builds tokenOperand := by
  intro state hlt
  have h : set.Passed state .firm [] state := .refl hlt
  refine .bind (.current ?_)
  split
  · next hkind =>
    refine .bind (h.advance hkind rfl fun s₁ h₁ hs₁ => ?_)
    refine .bind (h₁.literalOf fun literal hspan => .pure ?_)
    have hliteral : set.Passed state .solid (trees literal) s₁ :=
      h₁.leaf hs₁ (by simpa using hspan) (by simp) literal.wellMade
    exact hliteral
  · next hkind =>
    exact .bind (h.advance hkind rfl fun s₁ h₁ hs₁ =>
      .pure (h₁.leaf hs₁ rfl rfl trivial))
  · next hkind =>
    exact .bind (h.advance hkind rfl fun s₁ h₁ hs₁ =>
      .pure (h₁.leaf hs₁ rfl rfl trivial))
  · exact h.unexpected

theorem builds_leftSection : set.Builds leftSection := by
  intro state hlt
  refine .bind ((Passed.refl hlt).expect rfl fun s₁ _ h₁ _ => ?_)
  refine .bind (h₁.build builds_tokenOperand fun left s₂ h₂ _ => ?_)
  refine .bind (h₂.expect rfl fun s₃ _ h₃ _ => ?_)
  refine .bind (h₃.expect rfl fun s₄ _ h₄ _ => ?_)
  exact .bind (.spanFromPrevious (.pure (h₄.node rfl
    (by simp [Outline.children, Expr.outline, trees]) fun _ => trivial)))

/-! ### Records -/

/-- Fields that are reported have been read; in silence, their names are distinct. -/
theorem Passed.checkRepeatedFields {fields : List FieldAssign}
    (h : set.Passed start footing before state) (hfields : trees fields ⊆ before)
    {returns : Unit → ParserState → Prop} {stops : Abort → ParserState → Prop}
    (next : ∀ final, set.Passed start footing before final → final.position = state.position →
      (final.Quiet → (fields.map FieldAssign.name).Nodup) → returns () final) :
    set.Runs (checkRepeatedFields fields) state returns stops := by
  refine .reportEach (fun field hmem => ?_) fun final htells hnone => ?_
  · have hread := h.marksTree (hfields (mem_trees.2
      ⟨field, Parser.repeatedFields_subset _ _ hmem, List.mem_singleton_self _⟩))
    rw [FieldAssign.span_outline] at hread
    exact marks_errorAt hread
  · exact next final (h.told htells) htells.position_eq fun hquiet =>
      (Parser.nodup_of_repeatedFields (hnone hquiet)).1

/-- An entry of a record that is no field is no access to one either. -/
def PlainArgument (entry : FieldAssign ⊕ Expr) : Prop :=
  ∀ value, entry = .inr value → ∀ target name span, value ≠ .field target name span

theorem plainArgument_inl (field : FieldAssign) : PlainArgument (.inl field) := by
  intro value heq
  cases heq

theorem reads_recordItem (hinner : set.BuildsNested inner) (hlt : state.position < set.stream.size) :
    set.Runs (recordItem inner) state
      (fun answer final => set.Passed state .solid (trees answer) final ∧ PlainArgument answer)
      (set.Halts state) := by
  have h : set.Passed state .firm [] state := .refl hlt
  have hvalue : set.Runs (inner.expression 0 >>= recordValue) state
      (fun answer final => set.Passed state .solid (trees answer) final ∧ PlainArgument answer)
      (set.Halts state) := by
    refine .bind (h.build (hinner.expression 0) fun value s₁ h₁ _ => ?_)
    unfold recordValue
    split
    · next target name span =>
      refine .bind (h₁.reportError (h₁.marksTree (List.mem_singleton_self _)) fun s₂ h₂ _ _ => ?_)
      refine .pure ⟨h₂.wrap (List.mem_singleton_self _) rfl ?_ fun _ => trivial,
        plainArgument_inl _⟩
      simp [Outline.children, FieldAssign.outline, trees]
    · next hplain =>
      refine .pure ⟨h₁, fun value' heq target name span hfield => ?_⟩
      cases heq
      exact hplain target name span hfield
  refine .bind (.current (.ite (fun hname => ?_) fun _ => hvalue))
  have hkind := beq_iff_eq.1 hname
  refine .bind (.peek (.ite (fun hassign => ?_) fun _ => .ite (fun _ => ?_) fun _ => hvalue))
  · refine .bind (h.advance hkind rfl fun s₁ h₁ hs₁ => ?_)
    have hassign : set.stream.kind s₁.position = .assign := by
      rw [hs₁]
      exact beq_iff_eq.1 hassign
    refine .bind (h₁.advance hassign rfl fun s₂ h₂ _ => ?_)
    refine .bind (h₂.skipNewlines fun s₃ h₃ => ?_)
    refine .bind (h₃.build (hinner.expression 0) fun value s₄ h₄ _ => ?_)
    exact .bind (.spanFromPrevious (.pure ⟨h₄.node rfl
      (by simp [Outline.children, FieldAssign.outline, trees]) fun _ => trivial,
        plainArgument_inl _⟩))
  · exact .bind (h.advance hkind rfl fun s₁ h₁ hs₁ =>
      .pure ⟨h₁.leaf hs₁ rfl rfl trivial, plainArgument_inl _⟩)

/-- The square brackets of a constructor, which has been read. -/
theorem Passed.recordExpr (h : set.Passed start .solid [] state) (hinner : set.BuildsNested inner)
    (hkind : set.stream.kind state.position = .opener .square) :
    set.Runs (recordExpr inner (set.stream.token start.position)) state
      (fun answer final => set.Passed start .solid (trees answer) final) (set.Halts start) := by
  refine .bind (h.advance hkind rfl fun s₁ h₁ _ => ?_)
  refine .bind (h₁.itemsKnown (fun s hs => reads_recordItem hinner hs) fun entries s₂ h₂ hplain _ =>
    ?_)
  refine .bind (h₂.expect rfl fun s₃ _ h₃ _ => ?_)
  refine .bind (.spanFromPrevious ?_)
  have hfields := trees_lefts_subset entries
  dsimp only
  -- a record that has fields is built after they have been checked
  have hrecord : ∀ {span : Span} (s₄ : ParserState), set.Passed start .solid (trees entries) s₄ →
      span = set.stream.reach start.position (s₄.position - 1) →
      set.Runs (do
        Parser.checkRepeatedFields (entries.filterMap Sum.getLeft?)
        return .record (set.stream.token start.position).value []
          (entries.filterMap Sum.getLeft?) span : Parser Expr) s₄
        (fun answer final => set.Passed start .solid (trees answer) final) (set.Halts start) := by
    intro span s₄ h₄ hspan
    refine .bind (h₄.checkRepeatedFields hfields fun s₅ h₅ hposition hnames => .pure ?_)
    refine h₅.node (by rw [hposition]; exact hspan) ?_ fun hquiet =>
      Expr.wellMade_record (Or.inl rfl) (hnames hquiet) nofun
    simpa [Outline.children, Expr.outline] using hfields
  split
  · refine .pure (h₃.node rfl ?_ fun _ => Expr.wellMade_record (Or.inr rfl) List.nodup_nil ?_)
    · simpa [Outline.children, Expr.outline] using trees_rights_subset entries
    · intro argument hmem
      obtain ⟨entry, hentry, hright⟩ := List.mem_filterMap.1 hmem
      exact hplain entry hentry argument (Sum.getRight?_eq_some_iff.1 hright)
  · exact hrecord s₃ h₃ rfl
  · next hrights _ =>
    have hargument := trees_rights_subset entries
    rw [hrights, trees_cons, List.append_subset] at hargument
    have hmarks := h₃.marksTree (hargument.1 (List.mem_singleton_self _))
    rw [Expr.span_outline] at hmarks
    refine .bind (h₃.reportError hmarks fun s₄ h₄ hposition _ => hrecord s₄ h₄ ?_)
    rw [hposition]
    rfl

theorem Passed.updateFields (h : set.Passed start footing before state)
    (hinner : set.BuildsNested inner) {returns : List FieldAssign → ParserState → Prop}
    (next : ∀ fields final, set.Passed start .solid (before ++ trees fields) final →
      set.Passed state .solid (trees fields) final →
      (final.Quiet → (fields.map FieldAssign.name).Nodup) → returns fields final) :
    set.Runs (updateFields inner) state returns (set.Halts start) := by
  have hlocal : set.Runs (Parser.updateFields inner) state (fun fields final =>
      set.Passed state .solid (trees fields) final ∧
        (final.Quiet → (fields.map FieldAssign.name).Nodup)) (set.Halts state) := by
    refine .bind ((Passed.refl h.lt).expect rfl fun s₁ _ h₁ _ => ?_)
    refine .bind (h₁.itemsKnown (fun s hs => reads_recordItem hinner hs) fun entries s₂ h₂ _ _ => ?_)
    refine .bind (h₂.expect rfl fun s₃ _ h₃ _ => ?_)
    refine .bind (.mapM (fun entry field? => ∀ field, field? = some field → entry = .inl field)
      (fun entry hmem s => ?_) fun answers s₄ htells hanswers _ => ?_)
    · cases entry with
      | inl field => exact .pure ⟨.refl s, fun _ heq => by rw [Option.some.inj heq]⟩
      | inr value =>
        have hmarks := h₃.marksTree (mem_trees.2 ⟨_, hmem, List.mem_singleton_self _⟩)
        rw [Expr.span_outline] at hmarks
        exact .bind (.report (.pure ⟨tells_report (marks_errorAt hmarks), nofun⟩))
    · have hfields : trees (answers.filterMap id) ⊆ trees entries := by
        intro tree htree
        obtain ⟨field, hfield, htree⟩ := mem_trees.1 htree
        obtain ⟨_, hanswer, rfl⟩ := List.mem_filterMap.1 hfield
        obtain ⟨entry, hentry, hsame⟩ := hanswers _ hanswer
        exact mem_trees.2 ⟨entry, hentry, hsame field rfl ▸ htree⟩
      refine .bind ((h₃.told htells).checkRepeatedFields hfields fun s₅ h₅ _ hnames => .pure ?_)
      exact ⟨h₅.subset hfields, hnames⟩
  exact hlocal.mono (fun fields final ⟨hfields, hnames⟩ =>
    next fields final (h.onward hfields) hfields hnames) fun _ _ hhalts => h.halts hhalts

/-! ### Clauses -/

theorem Passed.clausePattern (h : set.Passed start footing before state)
    (hinner : set.BuildsNested inner) {returns : Pattern → ParserState → Prop}
    (next : ∀ pattern final, set.Passed start .loose (before ++ trees pattern) final →
      returns pattern final) :
    set.Runs (clausePattern inner) state returns (set.Halts start) := by
  refine .bind (h.build hinner.pattern fun pattern s₁ h₁ _ => ?_)
  refine .bind (h₁.expect rfl fun s₂ _ h₂ _ => ?_)
  exact .bind (h₂.skipNewlines fun s₃ h₃ => .pure (next pattern s₃ h₃))

theorem reads_clause (hinner : set.BuildsNested inner) (hlt : state.position < set.stream.size) :
    set.Runs (clause inner) state
      (fun answer final => set.Passed state .solid (trees answer) final ∧ answer.patterns ≠ [])
      (set.Halts state) := by
  refine .bind (.current (.bind ((Passed.refl hlt).clausePattern hinner fun first s₁ h₁ => ?_)))
  refine .bind (h₁.collectWhile (fun s hs => hs.speculate fun _ s' hs' => ⟨hs', fun _ =>
    hs'.clausePattern hinner fun _ _ h' => h'⟩) fun more s₂ h₂ => ?_)
  refine .bind (h₂.build (hinner.expression 0) fun body s₃ h₃ _ => ?_)
  exact .bind (.spanFromPrevious (.pure ⟨h₃.node rfl
    (by simp [trees]) fun _ => trivial, List.cons_ne_nil _ _⟩))

/-- What is read as a clause of a lambda or a handler is for an operation, or has a pattern. -/
def IsClause : Clause ⊕ HandlerClause → Prop
  | .inl clause => clause.patterns ≠ []
  | .inr (.operation ..) => True
  | .inr (.returning ..) => False

theorem reads_operationClause (hinner : set.BuildsNested inner)
    (hlt : state.position < set.stream.size) :
    set.Runs (operationClause inner) state
      (fun answer final => set.Passed state .solid (trees answer) final ∧ IsClause (.inr answer))
      (set.Halts state) := by
  have h : set.Passed state .firm [] state := .refl hlt
  refine .bind (.current (.ite (fun _ => .bind h.unexpected) fun _ => ?_))
  refine .bind (h.advanceAny fun s₁ h₁ => ?_)
  refine .bind (h₁.collectWhile (fun s hs => ?_) fun arguments s₂ h₂ => ?_)
  · refine .bind (.isAt (.pure ⟨hs, fun _ => ?_⟩))
    exact hs.build hinner.patternAtom fun _ _ h' _ => h'.loosen
  refine .bind (h₂.advanceAny fun s₃ h₃ => ?_)
  refine .bind (h₃.expect rfl fun s₄ _ h₄ _ => ?_)
  refine .bind (h₄.expect rfl fun s₅ _ h₅ _ => ?_)
  refine .bind (h₅.skipNewlines fun s₆ h₆ => ?_)
  refine .bind (h₆.build (hinner.expression 0) fun body s₇ h₇ _ => ?_)
  exact .bind (.spanFromPrevious (.pure ⟨h₇.node rfl
    (by simp [Outline.children, HandlerClause.outline, trees]) fun _ => trivial, trivial⟩))

theorem reads_lambdaClause (hinner : set.BuildsNested inner)
    (hlt : state.position < set.stream.size) :
    set.Runs (lambdaClause inner) state
      (fun answer final => set.Passed state .solid (trees answer) final ∧ IsClause answer)
      (set.Halts state) :=
  .bind (.firstStop (.ite (fun _ => .map (reads_operationClause hinner hlt))
    fun _ => .map (reads_clause hinner hlt)))

/-- What a clause of a handler becomes: itself, if it is for an operation; else a clause for
returned values, of the same parts, or nothing. -/
def BecomesHandler (entry : Clause ⊕ HandlerClause) (clause? : Option HandlerClause) : Prop :=
  match entry with
  | .inr operation => clause? = some operation
  | .inl clause => ∀ kept, clause? = some kept → ∃ binder, binder.isBinder = true ∧
      clause.patterns = [binder] ∧ kept = .returning binder clause.body clause.span

theorem Passed.handlerClause (h : set.Passed start footing before state)
    {entry : Clause ⊕ HandlerClause} (hread : trees entry ⊆ before) (s : ParserState)
    {stops : Abort → ParserState → Prop} :
    set.Runs (handlerClause entry) s
      (fun clause? final => set.Tells s final ∧ BecomesHandler entry clause?) stops := by
  unfold Parser.handlerClause
  split
  · exact .pure ⟨.refl s, rfl⟩
  · next clause =>
    have hclause := hread (List.mem_singleton_self clause.outline)
    have hplace := h.marksTree hclause
    rw [Clause.span_outline] at hplace
    split
    · next binder hbinder =>
      have hmarks : set.stream.Marks binder.span := by
        refine Pattern.span_outline binder ▸ h.marksChild hclause ?_
        rw [Clause.children_outline, hbinder]
        exact List.mem_cons_self
      refine .ite (fun hbinds => .pure ⟨.refl s, fun kept heq => ?_⟩) fun _ => ?_
      · exact ⟨binder, hbinds, hbinder, (Option.some.inj heq).symm⟩
      · exact .bind (.report (.pure ⟨tells_report (marks_errorAt hmarks), nofun⟩))
    · exact .bind (.report (.pure ⟨tells_report (marks_errorAt hplace), nofun⟩))

/-- The clauses of a handler sit where the clauses that they come from were read. -/
theorem Passed.handlerClauses {entries : List (Clause ⊕ HandlerClause)}
    {kept : List (Option HandlerClause)} (h : set.Passed start .solid (trees entries) state)
    (hfrom : ∀ clause? ∈ kept, ∃ entry ∈ entries, BecomesHandler entry clause?) :
    set.Passed start .solid (trees (kept.filterMap id)) state := by
  refine h.sitsAll fun tree htree => ?_
  obtain ⟨clause, hclause, htree⟩ := mem_trees.1 htree
  obtain rfl := List.mem_singleton.1 htree
  obtain ⟨_, hmem, rfl⟩ := List.mem_filterMap.1 hclause
  obtain ⟨entry, hentry, hbecomes⟩ := hfrom _ hmem
  cases entry with
  | inr operation =>
    obtain rfl := Option.some.inj hbecomes
    exact h.sits _ (mem_trees.2 ⟨_, hentry, List.mem_singleton_self _⟩)
  | inl read =>
    obtain ⟨binder, hbinds, hpatterns, rfl⟩ := hbecomes _ rfl
    have hread := h.sits read.outline (mem_trees.2 ⟨_, hentry, List.mem_singleton_self _⟩)
    refine hread.remake (by simp [HandlerClause.outline])
      (fun _ => HandlerClause.wellMade_returning hbinds) ?_
    rw [Clause.children_outline, hpatterns]
    simp [Outline.children, HandlerClause.outline, trees]

/-- Clauses in square brackets that are not empty. -/
theorem runs_clauseSet (hinner : set.BuildsNested inner) (hlt : state.position < set.stream.size)
    (hsome : ∀ close, state.position + 1 ≤ close →
      set.stream.Apart false (state.position + 1) close →
      set.stream.kind close ≠ .closer .square) :
    set.Runs (clauseSet inner) state
      (fun answer final => set.Passed state .solid (trees answer) final) (set.Halts state) := by
  refine .bind ((Passed.refl hlt).expect rfl fun s₁ _ h₁ hs₁ => ?_)
  refine .bind (h₁.itemsKnown (fun s hs => reads_lambdaClause hinner hs)
    fun clauses s₂ h₂ hclauses hempty => ?_)
  refine .bind (h₂.expect rfl fun s₃ hclose h₃ hs₃ => ?_)
  refine .bind (.spanFromPrevious (.ite (fun hany => ?_) fun hnone => .pure ?_))
  · refine .bind (.mapM BecomesHandler
      (fun entry hmem s => h₃.handlerClause (fun tree htree => mem_trees.2 ⟨entry, hmem, htree⟩) s)
      fun kept s₄ htells hfrom hto => .pure ?_)
    refine ((h₃.told htells).handlerClauses hfrom).node (by rw [htells.position_eq]; rfl)
      (by simp [Outline.children, Expr.outline]) fun _ => ?_
    -- one of the clauses is for an operation, and is kept
    obtain ⟨entry, hentry, hright⟩ := List.any_eq_true.1 hany
    obtain ⟨operation, rfl⟩ := Sum.isRight_iff.1 hright
    obtain ⟨_, hmem, rfl⟩ := hto _ hentry
    have hoperation := hclauses _ hentry
    cases operation with
    | returning => exact hoperation.elim
    | operation name arguments continuation body span =>
      exact Expr.wellMade_handler (List.mem_filterMap.2 ⟨_, hmem, rfl⟩)
  · refine h₃.node rfl ?_ fun hquiet => Expr.wellMade_lambda ?_ ?_
    · simpa [Outline.children, Expr.outline] using trees_lefts_subset clauses
    · -- with no clause, and nothing reported, there would only be separators up to the closer
      intro hnil
      have hclauses : clauses = [] := by
        cases clauses with
        | nil => rfl
        | cons entry rest => cases entry <;> simp at hnil hnone
      have hquiet' : s₂.Quiet := by rwa [hs₃] at hquiet
      obtain ⟨hle, hapart⟩ := hempty hquiet' hclauses
      rw [hs₁] at hle hapart
      exact hsome _ hle hapart hclose
    · intro clause hmem
      obtain ⟨entry, hentry, hleft⟩ := List.mem_filterMap.1 hmem
      have hclause := hclauses entry hentry
      rwa [Sum.getLeft?_eq_some_iff.1 hleft] at hclause

/-! ### Blocks and sections -/

/-- A block has its statements in a row. If it has no value, something has been reported. -/
theorem builds_block (hinner : set.BuildsNested inner) : set.Builds (block inner) := by
  intro state hlt
  refine .bind ((Passed.refl hlt).expect rfl fun s₁ _ h₁ hs₁ => ?_)
  refine .bind (.get (.bind (h₁.items hinner.statement fun groups s₂ h₂ hrounds _ => ?_)))
  refine .bind (h₂.expect rfl fun s₃ hclose h₃ hs₃ => ?_)
  have hrow : set.stream.Row s₃.Quiet state.position state.position (trees groups.flatten)
      s₃.position := by
    have hrow := hrounds.row fun hreads => hreads.1
    rw [List.reverse_reverse, ← trees_flatten] at hrow
    have hbegin := h₁.le
    exact hrow.mono hbegin hbegin (by simp [hs₃]) (by simp [hs₃, ParserState.Quiet])
  obtain ⟨hgrouped, hmarks⟩ := hrow.group
  refine .bind (.reportEach hmarks fun s₄ htells hnone => ?_)
  have h₄ := h₃.told htells
  split
  · refine .bind (.get (.ite (fun _ => ?_) fun hcount => ?_))
    · exact .bind (h₄.reportError (Or.inl ⟨s₂.position, h₂.lt, rfl⟩) fun s₅ h₅ _ hloud =>
        h₅.throw fun _ => hloud)
    · -- in silence nothing would have been reported, neither now nor before
      refine h₄.throw fun _ hquiet => hcount ?_
      have hstart := (h₄.quiet hquiet).2
      rw [hs₁, Log.count, Log.count, hquiet.2, hstart]
      rfl
  · next before value hsplit =>
    obtain ⟨place, hall⟩ := splitResult?_eq_some hsplit
    change (Statement.group groups.flatten).1 = _ at hall
    have hmerged := Statement.merged_group groups.flatten
    rw [hall] at hgrouped hmerged
    -- the value is the expression of the last item
    have hread : set.Passed state .solid (trees before ++ trees value) s₄ := by
      refine h₄.sitsAll fun tree hmem => ?_
      have hsits := (hgrouped.mono (Nat.le_refl _) (Nat.le_refl _) (Nat.le_of_eq
        htells.position_eq.symm) htells.quiet).sits (Nat.le_refl _)
      rw [trees_append] at hsits
      rcases List.mem_append.1 hmem with hmem | hmem
      · exact hsits tree (List.mem_append_left _ hmem)
      · rw [List.mem_singleton.1 hmem]
        exact (hsits _ (List.mem_append_right _ (List.mem_singleton_self _))).child
          (by simp [Outline.children, Item.outline])
    have hnode : ∀ s₅, set.Passed state .solid (trees before ++ trees value) s₅ →
        set.Runs (do
          let span ← spanFrom (set.stream.token state.position).span
          return .block before value span : Parser Expr) s₅
          (fun answer final => set.Passed state .solid (trees answer) final) (set.Halts state) :=
      fun s₅ h₅ => .bind (.spanFromPrevious (.pure (h₅.node rfl
        (by simp [Outline.children, Expr.outline, trees])
        fun _ => Expr.wellMade_block hmerged.left_of_append)))
    split
    · next branches span =>
      refine .bind (hread.reportError ?_ fun s₅ h₅ _ _ => hnode s₅ h₅)
      exact hread.marksTree (List.mem_append_right _ (List.mem_singleton_self _))
    · exact hnode s₄ hread

theorem builds_operatorSection (hinner : set.BuildsNested inner) :
    set.Builds (operatorSection inner) := by
  intro state hlt
  refine .bind ((Passed.refl hlt).expect rfl fun s₁ _ h₁ _ => ?_)
  refine .bind (h₁.skipNewlines fun s₂ h₂ => ?_)
  refine .bind (h₂.expect rfl fun s₃ _ h₃ _ => ?_)
  refine .bind (.isAt (.ite (fun hclose => ?_) fun _ => ?_))
  · refine .bind (h₃.advance (beq_iff_eq.1 hclose) rfl fun s₄ h₄ _ => ?_)
    exact .bind (.spanFromPrevious (.pure (h₄.node rfl
      (by simp [Outline.children, Expr.outline]) fun _ => trivial)))
  · refine .bind (h₃.build (hinner.expression 0) fun right s₄ h₄ _ => ?_)
    refine .bind (h₄.skipNewlines fun s₅ h₅ => ?_)
    refine .bind (h₅.expect rfl fun s₆ _ h₆ _ => ?_)
    exact .bind (.spanFromPrevious (.pure (h₆.node rfl
      (by simp [Outline.children, Expr.outline, trees]) fun _ => trivial)))

theorem builds_squareExpr (hinner : set.BuildsNested inner) : set.Builds (squareExpr inner) := by
  intro state hlt
  refine .bind (.read (.bind (.get ?_)))
  dsimp only
  -- brackets of these forms have something else than separators in them
  have hsome : ∀ {form}, BracketForm.atIndex set.stream.tokens (state.position : Int) = .ok form →
      form = .lambda ∨ form = .handler → ∀ close, state.position + 1 ≤ close →
        set.stream.Apart false (state.position + 1) close →
        set.stream.kind close ≠ .closer .square := by
    intro form hform hclauses close hle hapart hclose
    have hnone := BracketForm.atIndex_of_skipped (close - (state.position + 1)) hform
      (fun k hk token htoken => ?_) fun token htoken => ?_
    · rcases hclauses with rfl | rfl
      · exact hnone.1 rfl
      · exact hnone.2 rfl
    · have hseparates := hapart (state.position + 1 + k) (by omega) (by omega)
      rwa [TokenStream.kind, TokenStream.token, htoken, TokenKind.separates, Bool.false_and,
        Bool.or_false] at hseparates
    · rw [show state.position + 1 + (close - (state.position + 1)) = close by omega] at htoken
      rwa [TokenStream.kind, TokenStream.token, htoken] at hclose
  split
  · exact builds_block hinner state hlt
  · next hform => exact runs_clauseSet hinner hlt (hsome hform (Or.inl rfl))
  · next hform => exact runs_clauseSet hinner hlt (hsome hform (Or.inr rfl))
  · exact builds_operatorSection hinner state hlt
  · exact builds_leftSection state hlt
  · exact builds_accessor state hlt
  · exact builds_ambiguousBracket state hlt

/-! ### Round and curly brackets -/

theorem runs_roundExpr (hinner : set.BuildsNested inner) (hlt : state.position < set.stream.size)
    (hkind : set.stream.kind state.position = .opener .round) :
    set.Runs (roundExpr inner) state
      (fun answer final => set.Passed state .solid (trees answer) final) (set.Halts state) := by
  refine .bind ((Passed.refl hlt).advance hkind rfl fun s₁ h₁ _ => ?_)
  refine .bind (.isAt (.ite (fun hclose => ?_) fun _ => ?_))
  · refine .bind (h₁.advance (beq_iff_eq.1 hclose) rfl fun s₂ h₂ _ => ?_)
    exact .bind (.spanFromPrevious (.pure (h₂.node rfl (by simp [Outline.children, Expr.outline])
      fun _ => trivial)))
  · refine .bind (h₁.build (hinner.expression 0) fun first s₂ h₂ _ => ?_)
    refine .bind (.isAt (.ite (fun _ => ?_) fun _ => ?_))
    · exact .bind (h₂.expect rfl fun s₃ _ h₃ _ => .pure h₃)
    · refine .bind (h₂.collectBehind rfl (hinner.expression 0) fun more s₃ h₃ => ?_)
      refine .bind (h₃.expect rfl fun s₄ _ h₄ _ => ?_)
      exact .bind (.spanFromPrevious (.pure (h₄.node rfl
        (by simp [Outline.children, Expr.outline, trees]) fun _ => trivial)))

theorem builds_comprehensionClause (hinner : set.BuildsNested inner) :
    set.Builds (comprehensionClause inner) := by
  intro state hlt
  refine .bind ((Passed.refl hlt).advanceAny fun s₁ h₁ => ?_)
  refine .ite (fun _ => ?_) fun _ => ?_
  · refine .bind (h₁.build hinner.pattern fun pattern s₂ h₂ _ => ?_)
    refine .bind (h₂.expect rfl fun s₃ _ h₃ _ => ?_)
    refine .bind (h₃.skipNewlines fun s₄ h₄ => ?_)
    refine .bind (h₄.build (hinner.expression 0) fun source s₅ h₅ _ => ?_)
    exact .bind (.spanFromPrevious (.pure (h₅.node rfl
      (by simp [Outline.children, ComprehensionClause.outline, trees]) fun _ => trivial)))
  · refine .bind (h₁.build (hinner.expression 0) fun condition s₂ h₂ _ => ?_)
    exact .bind (.spanFromPrevious (.pure (h₂.node rfl
      (by simp [Outline.children, ComprehensionClause.outline, trees]) fun _ => trivial)))

/-- The rest of a comprehension, whose opening bracket has been read. -/
theorem Passed.comprehension (h : set.Passed start .loose [] state)
    (hinner : set.BuildsNested inner) :
    set.Runs (comprehension inner (set.stream.token start.position).span) state
      (fun answer final => set.Passed start .solid (trees answer) final) (set.Halts start) := by
  refine .bind (h.collectWhile (fun s hs => ?_) fun clauses s₁ h₁ => ?_)
  · refine .bind (hs.skipNewlines fun s' hs' => .bind (.current (.pure ⟨hs', fun _ => ?_⟩)))
    exact hs'.build (builds_comprehensionClause hinner) fun _ _ h' _ => h'.loosen
  · refine .bind (h₁.expect rfl fun s₂ _ h₂ _ => ?_)
    refine .bind (h₂.skipNewlines fun s₃ h₃ => ?_)
    refine .bind (h₃.build (hinner.expression 0) fun body s₄ h₄ _ => ?_)
    refine .bind (h₄.skipNewlines fun s₅ h₅ => ?_)
    refine .bind (h₅.expect rfl fun s₆ _ h₆ _ => ?_)
    exact .bind (.spanFromPrevious (.pure (h₆.node rfl
      (by simp [Outline.children, Expr.outline, trees]) fun _ => trivial)))

/-- The rest of a list, whose opening bracket has been read. -/
theorem Passed.listExpr (h : set.Passed start .loose [] state) (hinner : set.BuildsNested inner) :
    set.Runs (listExpr inner (set.stream.token start.position).span) state
      (fun answer final => set.Passed start .solid (trees answer) final) (set.Halts start) := by
  refine .bind (h.build (hinner.expression 0) fun first s₁ h₁ _ => ?_)
  refine .bind (h₁.skipNewlines fun s₂ h₂ => ?_)
  refine .bind (h₂.collectOnLines rfl (hinner.expression 0) fun more s₃ h₃ => ?_)
  refine .bind (.isAt (.ite (fun hpipe => ?_) fun _ => ?_))
  · refine .bind (h₃.advance (beq_iff_eq.1 hpipe) rfl fun s₄ h₄ _ => ?_)
    refine .bind (h₄.skipNewlines fun s₅ h₅ => ?_)
    refine .bind (h₅.build (hinner.expression 0) fun tail s₆ h₆ _ => ?_)
    refine .bind (h₆.skipNewlines fun s₇ h₇ => ?_)
    refine .bind (h₇.expect rfl fun s₈ _ h₈ _ => ?_)
    refine .bind (.spanFromPrevious (.pure ?_))
    exact h₈.chain (fun _ => rfl) (fun _ _ => rfl) (fun _ _ => rfl) (fun _ _ => by trivial)
      (by simp [trees]) (by simp [trees])
  · refine .bind (h₃.expect rfl fun s₄ _ h₄ _ => ?_)
    exact .bind (.spanFromPrevious (.pure (h₄.node rfl
      (by simp [Outline.children, Expr.outline, trees]) fun _ => trivial)))

theorem runs_curlyExpr (hinner : set.BuildsNested inner) (hlt : state.position < set.stream.size)
    (hkind : set.stream.kind state.position = .opener .curly) :
    set.Runs (curlyExpr inner) state
      (fun answer final => set.Passed state .solid (trees answer) final) (set.Halts state) := by
  refine .bind ((Passed.refl hlt).advance hkind rfl fun s₁ h₁ _ => ?_)
  refine .bind (h₁.skipNewlines fun s₂ h₂ => ?_)
  refine .bind (.current (.ite (fun hclose => ?_) fun _ => .ite (fun _ => ?_) fun _ => ?_))
  · refine .bind (h₂.advance (beq_iff_eq.1 hclose) rfl fun s₃ h₃ _ => ?_)
    exact .bind (.spanFromPrevious (.pure (h₃.node rfl (by simp [Outline.children, Expr.outline])
      fun _ => trivial)))
  · exact h₂.comprehension hinner
  · exact h₂.listExpr hinner

/-! ### Application -/

theorem builds_atom (hinner : set.BuildsNested inner) : set.Builds (atom inner) := by
  intro state hlt
  have h : set.Passed state .firm [] state := .refl hlt
  refine .bind (.current ?_)
  split
  · next hkind =>
    refine .bind (.peek (.ite (fun hopener => ?_) fun _ => builds_tokenOperand state hlt))
    refine .bind (h.advance hkind rfl fun s₁ h₁ hs₁ => h₁.recordExpr hinner ?_)
    rw [hs₁]
    exact beq_iff_eq.1 (Bool.and_eq_true_iff.1 hopener).1
  · next hkind => exact runs_roundExpr hinner hlt hkind
  · exact builds_squareExpr hinner state hlt
  · next hkind => exact runs_curlyExpr hinner hlt hkind
  · next hkind =>
    refine .bind (.peek (.ite (fun _ => ?_) fun _ => h.unexpected))
    refine .bind (h.advance hkind rfl fun s₁ h₁ _ => ?_)
    refine .bind (h₁.updateFields hinner fun fields s₂ h₂ _ hnames => ?_)
    exact .bind (.spanFromPrevious (.pure (h₂.node rfl
      (by simp [Outline.children, Expr.outline, trees])
      fun hquiet => Expr.wellMade_recordUpdateLambda (hnames hquiet))))
  · exact builds_tokenOperand state hlt

/-- A suffix extends its target, which may have left brackets around it behind. -/
theorem Passed.suffix {target : Expr} (h : set.Passed start .solid (trees target) state)
    (hinner : set.BuildsNested inner) (hkind : set.stream.kind state.position = .dot) :
    set.Runs (suffix inner target) state
      (fun answer final => set.Passed start .solid (trees answer) final) (set.Halts start) := by
  have htarget : target.outline ∈ trees target := List.mem_singleton_self _
  refine h.locally (.bind ((Passed.refl h.lt).advance hkind rfl fun s₁ h₁ _ => ?_))
  refine .bind (.current (.ite (fun hname => ?_) fun _ => .ite (fun _ => ?_) fun _ => ?_))
  · have hname := beq_iff_eq.1 (Bool.and_eq_true_iff.1 hname).1
    refine .bind (h₁.advance hname rfl fun s₂ h₂ hs₂ => .pure ?_)
    refine h.nodeFrom htarget h₂ ?_ (by simp [Outline.children, Expr.outline]) fun _ => trivial
    rw [hs₂, Expr.span_outline, Expr.span_outline]
    rfl
  · refine .bind (h₁.updateFields hinner fun fields s₂ h₂ _ hnames => ?_)
    refine .bind (.spanFromPrevious (.pure ?_))
    exact h.nodeFrom htarget h₂ (by simp [Expr.outline])
      (by simp [Outline.children, Expr.outline, trees])
      fun hquiet => Expr.wellMade_recordUpdate (hnames hquiet)
  · exact h₁.unexpected

theorem builds_postfixExpr (hinner : set.BuildsNested inner) : set.Builds (postfixExpr inner) := by
  intro state hlt
  refine .bind ((Passed.refl hlt).build (builds_atom hinner) fun target s₁ h₁ _ => ?_)
  refine .repeatWhile (fun target s => set.Passed state .solid (trees target) s)
    (fun target s hs => ?_) (fun _ s hs => ⟨hs.forget, Abort.noConfusion⟩) h₁
  refine .bind (.current (.bind (.previous (.pure ⟨fun hmore => ?_, fun _ => hs⟩))))
  exact hs.suffix hinner (beq_iff_eq.1 (Bool.and_eq_true_iff.1 hmore).1)

/-! ### Conditionals and cases -/

/-- A branch begins where its keyword or its line does. -/
theorem Passed.guardedBranch (h : set.Passed start footing [] state)
    (hinner : set.BuildsNested inner) :
    set.Runs (guardedBranch inner (set.stream.token start.position).span) state
      (fun answer final => set.Passed start .solid (trees answer) final) (set.Halts start) := by
  refine .bind (h.build (hinner.expression 0) fun condition s₁ h₁ _ => ?_)
  refine .bind (h₁.expect rfl fun s₂ _ h₂ _ => ?_)
  refine .bind (h₂.skipNewlines fun s₃ h₃ => ?_)
  refine .bind (h₃.build (hinner.expression 0) fun body s₄ h₄ _ => ?_)
  exact .bind (.spanFromPrevious (.pure (h₄.node rfl
    (by simp [Outline.children, GuardedBranch.outline, trees]) fun _ => trivial)))

theorem builds_conditional (hinner : set.BuildsNested inner) {asStatement : Bool} :
    set.Builds (conditional inner asStatement) := by
  intro state hlt
  refine .bind ((Passed.refl hlt).expect rfl fun s₁ _ h₁ _ => ?_)
  refine .bind ((h₁.guardedBranch hinner).mono (fun first s₂ h₂ => ?_) fun _ _ hhalts => hhalts)
  refine .bind (h₂.collectWhile (fun s hs => ?_) fun more s₃ h₃ => ?_)
  · refine .bind (.isAt (.bind (.newlineContinuesIf fun _ => .pure ⟨hs, fun _ => ?_⟩)))
    refine .bind (hs.skipNewlines fun s' hs' => .bind (.current ?_))
    exact hs'.locally (((Passed.refl hs'.lt).guardedBranch hinner).mono
      (fun _ _ h' => hs'.onward h') fun _ _ hhalts => hhalts)
  refine .bind (.isAt (.bind (.isAt (.bind (.nextLineStartsWith (.ite (fun _ => ?_) fun _ => ?_))))))
  · refine .bind (h₃.skipNewlines fun s₄ h₄ => ?_)
    refine .bind (h₄.advanceAny fun s₅ h₅ => ?_)
    refine .bind (h₅.skipNewlines fun s₆ h₆ => ?_)
    refine .bind (h₆.build (hinner.expression 0) fun otherwise s₇ h₇ _ => ?_)
    exact .bind (.spanFromPrevious (.pure (h₇.node rfl
      (by simp [Outline.children, Expr.outline, trees]) fun _ => trivial)))
  · have hnode : ∀ s₄, set.Passed state .solid (trees first ++ trees more) s₄ →
        set.Runs (do
          let span ← spanFrom (set.stream.token state.position).span
          return .conditional (first :: more) none span : Parser Expr) s₄
          (fun answer final => set.Passed state .solid (trees answer) final) (set.Halts state) :=
      fun s₄ h₄ => .bind (.spanFromPrevious (.pure (h₄.node rfl
        (by simp [Outline.children, Expr.outline, trees]) fun _ => trivial)))
    refine .ite (fun _ => ?_) fun _ => hnode s₃ h₃
    refine .bind (.spanFromPrevious (.bind ?_))
    exact h₃.reportError (Or.inr ⟨_, _, h₃.spans⟩) fun s₄ h₄ _ _ => hnode s₄ h₄

theorem Passed.scrutinee (h : set.Passed start footing before state)
    (hinner : set.BuildsNested inner) {returns : Expr → ParserState → Prop}
    (next : ∀ value final, set.Passed start .loose (before ++ trees value) final →
      returns value final) :
    set.Runs (scrutinee inner) state returns (set.Halts start) := by
  refine .bind (h.build (hinner.expression 0) fun value s₁ h₁ _ => ?_)
  refine .bind (h₁.expect rfl fun s₂ _ h₂ _ => ?_)
  exact .bind (h₂.skipNewlines fun s₃ h₃ => .pure (next value s₃ h₃))

theorem builds_caseExpr (hinner : set.BuildsNested inner) : set.Builds (caseExpr inner) := by
  intro state hlt
  refine .bind ((Passed.refl hlt).expect rfl fun s₁ _ h₁ _ => ?_)
  refine .bind (h₁.scrutinee hinner fun first s₂ h₂ => ?_)
  refine .bind (h₂.collectWhile (fun s hs => ?_) fun more s₃ h₃ => ?_)
  · refine .bind (.isAt (.pure ⟨hs, fun _ => ?_⟩))
    exact hs.scrutinee hinner fun _ _ h' => h'
  refine .bind (h₃.advanceAny fun s₄ h₄ => ?_)
  refine .bind (h₄.itemsOf (fun s hs => ?_) fun clauses s₅ h₅ => ?_)
  · exact (reads_clause hinner hs).mono (fun _ _ hfinal => hfinal.1) fun _ _ hhalts => hhalts
  refine .bind (h₅.expect rfl fun s₆ _ h₆ _ => ?_)
  refine .bind (.forM (fun clause => clause.patterns.length = (first :: more).length)
    (fun clause hmem s => ?_) fun s₇ htells harity => ?_)
  · refine .ite (fun heq => .pure ⟨.refl s, fun _ => heq⟩) fun _ => ?_
    have hmarks := h₆.marksTree (List.mem_append_right _ (mem_trees.2
      ⟨clause, hmem, List.mem_singleton_self _⟩))
    rw [Clause.span_outline] at hmarks
    exact .report ⟨tells_report (marks_errorAt hmarks), fun hquiet =>
      absurd hquiet (not_quiet_report _ _)⟩
  · exact .bind (.spanFromPrevious (.pure ((h₆.told htells).node rfl
      (by simp [Outline.children, Expr.outline, trees])
      fun hquiet => Expr.wellMade_cases (List.cons_ne_nil _ _) (harity hquiet))))

theorem Runs.startsArgument {returns : Bool → ParserState → Prop}
    {stops : Abort → ParserState → Prop} (next : ∀ answer, returns answer state) :
    set.Runs startsArgument state returns stops :=
  .bind (.current (.ite (fun _ => .pure (next _)) fun _ =>
    .bind (.peek (.bind (.previous (.pure (next _)))))))

theorem builds_application (hinner : set.BuildsNested inner) : set.Builds (application inner) := by
  intro state hlt
  refine .bind (.current (.ite (fun _ => builds_conditional hinner state hlt)
    fun _ => .ite (fun _ => builds_caseExpr hinner state hlt) fun _ => ?_))
  refine .bind ((Passed.refl hlt).build (builds_postfixExpr hinner) fun function s₁ h₁ _ => ?_)
  refine .repeatWhile (fun function s => set.Passed state .solid (trees function) s)
    (fun function s hs => .startsArgument fun _ => ⟨fun _ => ?_, fun _ => hs⟩)
    (fun _ s hs => ⟨hs.forget, Abort.noConfusion⟩) h₁
  refine .bind (hs.build (builds_postfixExpr hinner) fun argument s₂ _ h₂ => .pure ?_)
  exact hs.nodeBetween (List.mem_singleton_self _) h₂ (List.mem_singleton_self _)
    (by simp [Expr.outline]) (by simp [Outline.children, Expr.outline]) fun _ => trivial

/-! ### Operators -/

theorem builds_operand (hinner : set.BuildsNested inner) : set.Builds (operand inner) := by
  intro state hlt
  refine .bind (.current (.ite (fun hprefix => ?_) fun _ => builds_application hinner state hlt))
  have hkind := beq_iff_eq.1 (Bool.and_eq_true_iff.1 hprefix).1
  refine .bind ((Passed.refl hlt).advance hkind rfl fun s₁ h₁ _ => ?_)
  refine .bind (h₁.build hinner.operand fun value s₂ h₂ _ => .pure ?_)
  exact h₂.nodeTo (List.mem_singleton_self _) (by simp [Expr.outline])
    (by simp [Outline.children, Expr.outline]) fun _ => trivial

/-- One more operator with its right operand. -/
theorem Passed.climb {soFar : Climb} (h : set.Passed start .solid (trees soFar) state)
    (hinner : set.BuildsNested inner) :
    set.Runs (climb inner soFar) state
      (fun answer final => set.Passed start .solid (trees answer) final) (set.Halts start) := by
  have h₀ : set.Passed state .firm [] state := .refl h.lt
  refine h.locally (.bind (.current (.ite (fun _ => .bind (h₀.failWith h₀.marks)) fun _ => ?_)))
  refine .bind (h₀.advanceAny fun s₁ h₁ => ?_)
  refine .bind (h₁.skipNewlines fun s₂ h₂ => ?_)
  refine .bind (h₂.build (hinner.expression _) fun right s₃ h₃ _ => .pure ?_)
  exact h.nodeBetween (List.mem_singleton_self _) h₃ (List.mem_singleton_self _)
    (by simp [Expr.outline]) (by simp [Outline.children, Expr.outline]) fun _ => trivial

theorem builds_expression (hinner : set.BuildsNested inner) (minPower : Nat) :
    set.Builds (expression inner minPower) := by
  intro state hlt
  refine .bind ((Passed.refl hlt).build (builds_operand hinner) fun first s₁ h₁ _ => ?_)
  exact .bind (.repeatWhile (fun soFar s => set.Passed state .solid (trees soFar) s)
    (fun soFar s hs => .bind (.current (.pure ⟨fun _ => hs.climb hinner, fun _ => .pure hs⟩)))
    (fun _ s hs => ⟨hs.forget, Abort.noConfusion⟩) h₁)

end Setting

end SableFrontend
