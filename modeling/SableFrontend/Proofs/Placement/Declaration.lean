import SableFrontend.Proofs.Grammar.Declaration
import SableFrontend.Proofs.Placement.Expr

/-!
Declarations and statements sit where they are read, given that everything that they nest does. A
declaration extends from its first token to its last, so that no token of a statement is left out
(`TokenStream.ReadsStatements`); only an expression that stands alone may have lost the brackets
around it. The members of type classes and instances stand in a row, and are merged in it.

`builds_produce` ties the knot, by induction on the levels of nesting that are left.
-/

namespace SableFrontend

theorem TokenKind.isSolid_of_isName {kind : TokenKind}
    (h : ¬(!(kind == .identifier || kind == .typeIdentifier)) = true) : kind.isSolid = true := by
  simp only [Bool.not_eq_true, Bool.not_eq_false', Bool.or_eq_true, beq_iff_eq] at h
  rcases h with rfl | rfl <;> rfl

namespace Setting

open SableFrontend.Parser

variable {set : Setting} {start state final : ParserState} {footing : Footing} {before : List Outline}
  {inner : Nested}

/-! ### Parts of headers -/

/-- The names of type parameters are no trees. -/
theorem Passed.typeParameters (h : set.Passed start .solid before state)
    {returns : List String → ParserState → Prop}
    (next : ∀ names final, set.Passed start .solid before final → returns names final) :
    set.Runs typeParameters state returns (set.Halts start) := by
  refine h.collectWhile (fun s hs => .isAt ⟨hs, fun hname => ?_⟩) fun names final hfinal =>
    next names final (hfinal.subset (List.subset_append_left _ _))
  exact .bind (hs.advance (beq_iff_eq.1 hname) rfl fun s₁ h₁ _ =>
    .pure (h₁.subset (by simp [trees])))

/-- The sign and the bracket before the body of a declaration. -/
theorem Passed.openBody (h : set.Passed start footing before state) {what : String}
    {returns : Unit → ParserState → Prop}
    (next : ∀ final, set.Passed start .solid before final → returns () final) :
    set.Runs (openBody what) state returns (set.Halts start) := by
  refine .bind (h.expect rfl fun s₁ _ h₁ _ => ?_)
  refine .bind (h₁.skipNewlines fun s₂ h₂ => ?_)
  exact .bind (h₂.expect rfl fun s₃ _ h₃ _ => .pure (next s₃ h₃))

/-! ### Declarations -/

/-- Where what was read last ends. -/
theorem Passed.high (h : set.Passed start .solid before state) :
    state.position - 1 + 1 = state.position := by
  have hpos := h.stands.1
  omega

/-- A statement that extends over everything that is read for it. -/
theorem Passed.reads (h : set.Passed start .solid before state) {tree : Outline}
    (hsits : set.stream.SitsAt state.Quiet start.position (state.position - 1) tree)
    {statement : Statement} (htree : trees statement = [tree]) (hspan : tree.span = statement.span) :
    set.stream.ReadsStatements state.Quiet start.position state.position [statement] :=
  h.high ▸ hsits.readsStatements htree hspan

/-- A declaration extends over everything that is read for it. -/
def Declares (set : Setting) (parser : Parser Declaration) (state : ParserState) : Prop :=
  set.Runs parser state
    (fun declaration final => set.Passed state .solid [] final ∧
      set.stream.SitsAt final.Quiet state.position (final.position - 1) declaration.outline)
    (set.Halts state)

theorem Passed.declared (h : set.Passed start .solid before state) {declaration : Declaration}
    (hspan : declaration.outline.span = set.stream.reach start.position (state.position - 1))
    (hchildren : declaration.outline.children ⊆ before)
    (hmade : state.Quiet → declaration.outline.WellMade) :
    set.Passed start .solid [] state ∧
      set.stream.SitsAt state.Quiet start.position (state.position - 1) declaration.outline :=
  ⟨h.subset (List.nil_subset _), h.sitsAt hspan hchildren hmade⟩

/-! ### Definitions -/

/-- The body of a definition. The definition and its clause both extend over everything read. -/
theorem Passed.definitionBody {patterns : List Pattern}
    (h : set.Passed start footing before state) (hinner : set.BuildsNested inner)
    (hpatterns : trees patterns ⊆ before) {returns : TermDef → ParserState → Prop}
    (next : ∀ definition final, set.Passed start .solid before final →
      set.Passed state .solid [] final →
      set.stream.SitsAt final.Quiet start.position (final.position - 1) definition.outline →
      returns definition final) :
    set.Runs (definitionBody inner (set.stream.token start.position) patterns) state returns
      (set.Halts start) := by
  refine h.locally (.bind ((Passed.refl h.lt).skipNewlines fun s₁ h₁ => ?_))
  refine .bind (h₁.build (hinner.expression 0) fun body s₂ h₂ _ => ?_)
  refine .bind (.spanFromPrevious (.pure ?_))
  have hall := h.onward h₂
  generalize hspan : (set.stream.token start.position).span.join
    (set.stream.token (s₂.position - 1)).span = span
  have hclause : set.Passed start .solid
      (trees ({ patterns := patterns, body := body, span := span } : Clause)) s₂ := by
    refine hall.node (by rw [Clause.span_outline, ← hspan]; rfl) ?_ fun _ => trivial
    rw [Clause.children_outline]
    exact List.append_subset.2 ⟨List.subset_append_of_subset_left _ hpatterns,
      List.subset_append_right _ _⟩
  exact next _ s₂ (hall.subset (List.subset_append_left _ _)) (h₂.subset (List.nil_subset _))
    (hclause.sitsAt hspan.symm (by simp [trees]) fun _ => trivial)

/-- What a line gives that defines or annotates a name. -/
theorem reads_definition (hinner : set.BuildsNested inner) (hlt : state.position < set.stream.size) :
    set.Runs (definition inner) state
      (fun line final => set.Passed state .solid [] final ∧
        set.stream.ReadsLine final.Quiet state.position final.position line)
      (set.Halts state) := by
  refine .bind ((Passed.refl hlt).expect rfl fun s₁ _ h₁ _ => ?_)
  refine .bind (.isAt (.ite (fun hat => ?_) fun _ => ?_))
  · refine .bind (h₁.advance (beq_iff_eq.1 hat) rfl fun s₂ h₂ _ => ?_)
    refine .bind (h₂.build hinner.typeExpr fun typeExpr s₃ h₃ _ => ?_)
    refine .bind (.spanFromPrevious ?_)
    have hascription : ∀ attachment, set.stream.SitsAt s₃.Quiet state.position (s₃.position - 1)
        (Ascription.mk (set.stream.token state.position).value typeExpr attachment
          ((set.stream.token state.position).span.join
            (set.stream.token (s₃.position - 1)).span)).outline :=
      fun attachment => h₃.sitsAt rfl (by simp [trees]) fun _ => trivial
    refine .bind (.isAt (.ite (fun hassign => ?_) fun _ => ?_))
    · refine .bind (h₃.advance (beq_iff_eq.1 hassign) rfl fun s₄ h₄ hs₄ => ?_)
      refine .bind (h₄.definitionBody hinner (List.nil_subset _) fun definition s₅ h₅ hbody hsits =>
        .pure ⟨h₅.subset (List.nil_subset _), ?_⟩)
      have hheard := hbody.quiet
      have hforward := hbody.le
      rw [hs₄] at hheard hforward
      exact .both h₅.high.symm rfl ((hascription .sameLine).mono hheard)
        (Nat.sub_le_sub_right (Nat.le_of_succ_le hforward) 1) hsits
    · exact .pure ⟨h₃.subset (List.nil_subset _), .ascription h₃.high.symm (hascription _)⟩
  · refine .bind (h₁.collectWhile (fun s hs => Runs.startsPatternAtom fun _ => ⟨hs, fun _ => ?_⟩)
      fun patterns s₂ h₂ => ?_)
    · exact hs.build hinner.patternAtom fun _ _ h' _ => h'
    refine .bind (h₂.expect rfl fun s₃ _ h₃ _ => ?_)
    exact .bind (h₃.definitionBody hinner (List.Subset.refl _) fun definition s₄ h₄ _ hsits =>
      .pure ⟨h₄.subset (List.nil_subset _), .definition h₄.high.symm hsits⟩)

/-- An annotation that stands alone is the annotation of no name yet. -/
theorem reads_pendingAscription (hinner : set.BuildsNested inner)
    (hlt : state.position < set.stream.size) (hkind : set.stream.kind state.position = .atSign) :
    set.Runs (pendingAscription inner) state
      (fun statement final => set.Passed state .solid [] final ∧
        set.stream.ReadsStatements final.Quiet state.position final.position [statement])
      (set.Halts state) := by
  refine .bind ((Passed.refl hlt).advance hkind rfl fun s₁ h₁ _ => ?_)
  refine .bind (h₁.build hinner.typeExpr fun typeExpr s₂ h₂ _ => ?_)
  refine .bind (.spanFromPrevious (.pure ⟨h₂.subset (List.nil_subset _), ?_⟩))
  have hsits : set.stream.SitsAt s₂.Quiet state.position (s₂.position - 1)
      (Ascription.mk "" typeExpr .nextDeclaration ((set.stream.token state.position).span.join
        (set.stream.token (s₂.position - 1)).span)).outline :=
    h₂.sitsAt rfl (by simp [trees]) fun _ => trivial
  exact h₂.reads hsits rfl rfl

/-! ### Data types -/

theorem builds_fieldSpec (hinner : set.BuildsNested inner) : set.Builds (fieldSpec inner) := by
  intro state hlt
  refine .bind ((Passed.refl hlt).expect rfl fun s₁ _ h₁ _ => ?_)
  refine .bind (h₁.expect rfl fun s₂ _ h₂ _ => ?_)
  refine .bind (h₂.build hinner.typeExpr fun typeExpr s₃ h₃ _ => ?_)
  refine .bind (.isAt (.ite (fun hassign => ?_) fun _ => ?_))
  · refine .bind (h₃.advance (beq_iff_eq.1 hassign) rfl fun s₄ h₄ _ => ?_)
    refine .bind (h₄.skipNewlines fun s₅ h₅ => ?_)
    refine .bind (.map (h₅.build (hinner.expression 0) fun value s₆ h₆ _ => ?_))
    exact .bind (.spanFromPrevious (.pure (h₆.node rfl
      (by simp [Outline.children, FieldSpec.outline, trees]) fun _ => trivial)))
  · exact .bind (.pure (.bind (.spanFromPrevious (.pure (h₃.node rfl
      (by simp [Outline.children, FieldSpec.outline, trees]) fun _ => trivial)))))

theorem builds_constructorSpec (hinner : set.BuildsNested inner) :
    set.Builds (constructorSpec inner) := by
  intro state hlt
  refine .bind ((Passed.refl hlt).expect rfl fun s₁ _ h₁ _ => ?_)
  refine .bind (.current (.ite (fun hopener => ?_) fun _ => ?_))
  · have hopener := beq_iff_eq.1 (Bool.and_eq_true_iff.1 hopener).1
    refine .bind (h₁.advance hopener rfl fun s₂ h₂ _ => ?_)
    refine .bind (h₂.itemsOf (builds_fieldSpec hinner) fun named s₃ h₃ => ?_)
    refine .bind (h₃.expect rfl fun s₄ _ h₄ _ => ?_)
    exact .bind (.spanFromPrevious (.pure (h₄.node rfl
      (by simp [Outline.children, ConstructorSpec.outline]) fun _ => trivial)))
  · refine .bind (h₁.collectWhile (fun s hs => .isAtAny ⟨hs, fun _ =>
      hs.build hinner.typeAtom fun _ _ h' _ => h'⟩) fun positional s₂ h₂ => ?_)
    exact .bind (.spanFromPrevious (.pure (h₂.node rfl
      (by simp [Outline.children, ConstructorSpec.outline]) fun _ => trivial)))

theorem builds_dataItem (hinner : set.BuildsNested inner) : set.Builds (dataItem inner) :=
  fun state hlt => .bind (.isAt (.ite (fun _ => .map (builds_fieldSpec hinner state hlt))
    fun _ => .map (builds_constructorSpec hinner state hlt)))

/-- The constructor of a data type that is written as its fields has the place of the type. -/
theorem declares_data (hinner : set.BuildsNested inner) (hlt : state.position < set.stream.size)
    (hkind : set.stream.kind state.position = .keyword .dataWord) :
    set.Declares (dataDeclaration inner) state := by
  refine .bind ((Passed.refl hlt).advance hkind rfl fun s₁ h₁ _ => ?_)
  refine .bind (h₁.expect rfl fun s₂ _ h₂ _ => ?_)
  refine .bind (h₂.typeParameters fun parameters s₃ h₃ => ?_)
  refine .bind (h₃.openBody fun s₄ h₄ => ?_)
  refine .bind (h₄.itemsOf (builds_dataItem hinner) fun entries s₅ h₅ => ?_)
  refine .bind (h₅.expect rfl fun s₆ _ h₆ _ => ?_)
  refine .bind (.spanFromPrevious ?_)
  have hfields := trees_lefts_subset entries
  have hconstructors := trees_rights_subset entries
  dsimp only
  split
  · refine .pure (h₆.declared rfl ?_ fun _ => trivial)
    simpa [Outline.children, Declaration.outline] using hconstructors
  · have himplicit : set.Passed state .solid [(ConstructorSpec.outline {
        name := (set.stream.token s₁.position).value, positional := []
        named := some (entries.filterMap Sum.getLeft?), implicit := true
        span := (set.stream.token state.position).span.join
          (set.stream.token (s₆.position - 1)).span })] s₆ := by
      refine h₆.node rfl ?_ fun _ => trivial
      simpa [Outline.children, ConstructorSpec.outline] using hfields
    refine .pure (himplicit.declared rfl ?_ fun _ => trivial)
    simp [Outline.children, Declaration.outline, trees]
  · next field rest heq _ =>
    have hread : field.outline ∈ trees (entries.filterMap Sum.getLeft?) :=
      heq ▸ List.mem_append_left _ (List.mem_singleton_self _)
    have hmarks := h₆.marksTree (hfields hread)
    rw [FieldSpec.span_outline] at hmarks
    refine .bind (h₆.reportError hmarks fun s₇ h₇ hposition _ =>
      .pure (h₇.declared ?_ ?_ fun _ => trivial))
    · rw [hposition]
      rfl
    · simpa [Outline.children, Declaration.outline] using hconstructors

/-! ### Effects, type classes and instances -/

theorem builds_operationSpec (hinner : set.BuildsNested inner) :
    set.Builds (operationSpec inner) := by
  intro state hlt
  have h : set.Passed state .firm [] state := .refl hlt
  refine .bind (.current (.ite (fun _ => .bind h.unexpected) fun hname => ?_))
  refine .bind (h.advance rfl (TokenKind.isSolid_of_isName hname) fun s₁ h₁ _ => ?_)
  refine .bind (h₁.expect rfl fun s₂ _ h₂ _ => ?_)
  refine .bind (h₂.build hinner.typeExpr fun typeExpr s₃ h₃ _ => ?_)
  exact .bind (.spanFromPrevious (.pure (h₃.node rfl
    (by simp [Outline.children, OperationSpec.outline, trees]) fun _ => trivial)))

theorem declares_effect (hinner : set.BuildsNested inner) (hlt : state.position < set.stream.size)
    (hkind : set.stream.kind state.position = .keyword .effectWord) :
    set.Declares (effectDeclaration inner) state := by
  refine .bind ((Passed.refl hlt).advance hkind rfl fun s₁ h₁ _ => ?_)
  refine .bind (h₁.expect rfl fun s₂ _ h₂ _ => ?_)
  refine .bind (h₂.typeParameters fun parameters s₃ h₃ => ?_)
  refine .bind (h₃.openBody fun s₄ h₄ => ?_)
  refine .bind (h₄.itemsOf (builds_operationSpec hinner) fun operations s₅ h₅ => ?_)
  refine .bind (h₅.expect rfl fun s₆ _ h₆ _ => ?_)
  refine .bind (.spanFromPrevious (.pure (h₆.declared rfl ?_ fun _ => trivial)))
  have htrees : operations.map OperationSpec.outline = trees operations :=
    (trees_eq_map (fun _ => rfl) operations).symm
  simp [Outline.children, Declaration.outline, htrees]

theorem Passed.leadingContext (h : set.Passed start footing before state)
    (hinner : set.BuildsNested inner) {what : String}
    {returns : List Constraint → ParserState → Prop}
    (next : ∀ constraints final, set.Passed start footing (before ++ trees constraints) final →
      returns constraints final) :
    set.Runs (leadingContext inner what) state returns (set.Halts start) := by
  refine .bind (.contextAhead fun _ => .ite (fun _ => ?_) fun _ => .pure (next _ _ ?_))
  · refine .bind (h.build hinner.context fun constraints s₁ h₁ _ => ?_)
    exact .bind (h₁.expectOperator fun s₂ h₂ => .pure (next _ s₂ h₂.loosen))
  · rwa [trees_nil, List.append_nil]

/-- The members of a body, which are read in groups and merged in a row. -/
theorem Passed.members {α : Type} [Forest α] (definition? : α → Option TermDef)
    (ofDefinition : TermDef → α) (h : set.Passed start .solid before state)
    (hof : ∀ definition, trees (ofDefinition definition) = [definition.outline])
    (hdefinition : ∀ item definition, definition? item = some definition →
      trees item = [definition.outline]) (hone : ∀ item : α, ∃ tree, trees item = [tree])
    {item : Parser (List α)} {closer : TokenKind} {commas : Bool} {what : String}
    (hitem : set.ReadsItem
      (fun quiet first high members => set.stream.Row quiet first first (trees members) high) item)
    {returns : List (List α) → ParserState → Prop}
    (next : ∀ groups final, set.Passed start .loose
      (before ++ trees (mergeDefinitions definition? ofDefinition groups.flatten)) final →
      returns groups final) :
    set.Runs (Parser.items item closer commas what) state returns (set.Halts start) := by
  refine h.items hitem fun groups final hfinal hrounds _ =>
    next groups final (hfinal.sitsAll fun tree hmem => ?_)
  rcases List.mem_append.1 hmem with hmem | hmem
  · exact hfinal.sits tree hmem
  · have hrow := hrounds.row id
    rw [List.reverse_reverse, ← trees_flatten] at hrow
    exact (hrow.mergeDefinitions hof hdefinition hone).sits h.le tree hmem

theorem reads_classMember (hinner : set.BuildsNested inner) :
    set.ReadsItem
      (fun quiet first high members => set.stream.Row quiet first first (trees members) high)
      (classMember inner) := fun _ hlt =>
  .bind ((reads_definition hinner hlt).mono (fun _ _ ⟨h, hline⟩ => .pure ⟨h, hline.members⟩)
    fun _ _ hhalts => hhalts)

theorem declares_typeClass (hinner : set.BuildsNested inner)
    (hlt : state.position < set.stream.size)
    (hkind : set.stream.kind state.position = .keyword .typeclassWord) :
    set.Declares (classDeclaration inner) state := by
  refine .bind ((Passed.refl hlt).advance hkind rfl fun s₁ h₁ _ => ?_)
  refine .bind (h₁.leadingContext hinner fun superclasses s₂ h₂ => ?_)
  refine .bind (h₂.expect rfl fun s₃ _ h₃ _ => ?_)
  refine .bind (h₃.expect rfl fun s₄ _ h₄ _ => ?_)
  refine .bind (h₄.openBody fun s₅ h₅ => ?_)
  refine .bind (h₅.members ClassMember.definition? .definition (fun _ => rfl)
    (fun member definition hsome => ?_) (fun _ => ⟨_, rfl⟩) (reads_classMember hinner)
    fun groups s₆ h₆ => ?_)
  · cases member <;> cases hsome
    rfl
  refine .bind (h₆.expect rfl fun s₇ _ h₇ _ => ?_)
  have hof : ∀ definition, ClassMember.definition? (.definition definition) = some definition :=
    fun _ => rfl
  refine .bind (.spanFromPrevious (.pure (h₇.declared rfl ?_ fun _ =>
    Declaration.wellMade_typeClass (merged_mergeDefinitions hof _))))
  simp [Outline.children, Declaration.outline]

theorem reads_instanceMember (hinner : set.BuildsNested inner) :
    set.ReadsItem
      (fun quiet first high members => set.stream.Row quiet first first (trees members) high)
      (instanceMember inner) := by
  intro state hlt
  have h : set.Passed state .firm [] state := .refl hlt
  refine .bind (.peek (.bind (.isAt (.ite (fun hat => .bind (h.failWith ?_)) fun _ => ?_))))
  · -- there is a token behind an identifier
    have hname := beq_iff_eq.1 (Bool.and_eq_true_iff.1 hat).1
    refine Or.inl ⟨_, TokenStream.succ_lt_size hlt ?_, rfl⟩
    rw [hname]
    exact TokenKind.noConfusion
  · exact .bind ((reads_definition hinner hlt).mono
      (fun _ _ ⟨h, hline⟩ => .pure ⟨h, hline.definition?⟩) fun _ _ hhalts => hhalts)

theorem declares_classInstance (hinner : set.BuildsNested inner)
    (hlt : state.position < set.stream.size)
    (hkind : set.stream.kind state.position = .keyword .instanceWord) :
    set.Declares (instanceDeclaration inner) state := by
  refine .bind ((Passed.refl hlt).advance hkind rfl fun s₁ h₁ _ => ?_)
  refine .bind (h₁.leadingContext hinner fun constraints s₂ h₂ => ?_)
  refine .bind (h₂.expect rfl fun s₃ _ h₃ _ => ?_)
  refine .bind (h₃.build hinner.typeAtom fun head s₄ h₄ _ => ?_)
  refine .bind (h₄.openBody fun s₅ h₅ => ?_)
  refine .bind (h₅.members some id (fun _ => rfl)
    (fun _ _ hsome => by rw [Option.some.inj hsome]; rfl) (fun _ => ⟨_, rfl⟩)
    (reads_instanceMember hinner) fun groups s₆ h₆ => ?_)
  refine .bind (h₆.expect rfl fun s₇ _ h₇ _ => ?_)
  refine .bind (.spanFromPrevious (.pure (h₇.declared rfl ?_ fun _ =>
    Declaration.wellMade_classInstance (merged_mergeDefinitions (fun _ => rfl) _))))
  simp [Outline.children, Declaration.outline, trees]

/-! ### Statements -/

/-- An expression that stands alone. -/
theorem Passed.readsExpression {value : Expr} (h : set.Passed state .solid (trees value) final) :
    set.Passed state .solid [] final ∧ set.stream.ReadsStatements final.Quiet state.position
      final.position [.item (.expression value value.span)] := by
  refine ⟨h.subset (List.nil_subset _), ?_, Or.inl ⟨value, value.span, rfl⟩⟩
  have hsits : set.stream.Sits final.Quiet state.position final.position
      (Item.expression value value.span).outline :=
    (h.sits value.outline (List.mem_singleton_self _)).wrap (by simp [Item.outline])
      (fun _ => trivial) (by simp [Outline.children, Item.outline])
  exact hsits.row

theorem reads_plainStatement (hinner : set.BuildsNested inner) {first : Token}
    (hfirst : first = set.stream.token state.position) (hlt : state.position < set.stream.size) :
    set.Runs (plainStatement inner first) state
      (fun statements final => set.Passed state .solid [] final ∧
        set.stream.ReadsStatements final.Quiet state.position final.position statements)
      (set.Halts state) := by
  subst hfirst
  have h : set.Passed state .firm [] state := .refl hlt
  have hdefinition : set.Runs (do return (← definition inner).statements) state
      (fun statements final => set.Passed state .solid [] final ∧
        set.stream.ReadsStatements final.Quiet state.position final.position statements)
      (set.Halts state) :=
    .bind ((reads_definition hinner hlt).mono
      (fun _ _ ⟨h, hline⟩ => .pure ⟨h, hline.readsStatements⟩) fun _ _ hhalts => hhalts)
  refine .bind (.firstStop ?_)
  split
  · refine .bind (h.build hinner.pattern fun pattern s₁ h₁ _ => ?_)
    refine .bind (h₁.expect rfl fun s₂ _ h₂ _ => ?_)
    refine .bind (h₂.skipNewlines fun s₃ h₃ => ?_)
    refine .bind (h₃.build (hinner.expression 0) fun value s₄ h₄ _ => ?_)
    refine .bind (.spanFromPrevious (.pure ⟨h₄.subset (List.nil_subset _), ?_⟩))
    have hsits : set.stream.SitsAt s₄.Quiet state.position (s₄.position - 1)
        (Item.bind pattern value ((set.stream.token state.position).span.join
          (set.stream.token (s₄.position - 1)).span)).outline :=
      h₄.sitsAt rfl (by simp [Outline.children, Item.outline, trees]) fun _ => trivial
    exact h₄.reads hsits rfl rfl
  · exact .ite (fun _ => .bind h.unexpected) fun _ => hdefinition
  · exact .ite (fun _ => .bind h.unexpected) fun _ => hdefinition
  · exact .bind (h.build (hinner.expression 0) fun value s₁ h₁ _ => .pure h₁.readsExpression)

/-- The statement of a declaration. -/
theorem Declares.statement {parser : Parser Declaration} (h : set.Declares parser state) :
    set.Runs (do return [Statement.ofDeclaration (← parser)]) state
      (fun statements final => set.Passed state .solid [] final ∧
        set.stream.ReadsStatements final.Quiet state.position final.position statements)
      (set.Halts state) := by
  refine .bind (h.mono (fun declaration final ⟨hfinal, hsits⟩ => .pure ⟨hfinal, ?_⟩)
    fun _ _ hhalts => hhalts)
  exact hfinal.reads hsits rfl (declaration.span_outline)

theorem reads_statement (hinner : set.BuildsNested inner) :
    set.ReadsItem set.stream.ReadsStatements (statement inner) := by
  intro state hlt
  have h : set.Passed state .firm [] state := .refl hlt
  refine .bind (.current ?_)
  split
  · next hkind => exact (declares_data hinner hlt hkind).statement
  · next hkind => exact (declares_effect hinner hlt hkind).statement
  · next hkind => exact (declares_typeClass hinner hlt hkind).statement
  · next hkind => exact (declares_classInstance hinner hlt hkind).statement
  · exact h.failWith h.marks
  · next hkind =>
    exact .bind ((reads_pendingAscription hinner hlt hkind).mono (fun _ _ h' => .pure h')
      fun _ _ hhalts => hhalts)
  · exact .bind (h.build (builds_conditional hinner) fun value s₁ h₁ _ => .pure h₁.readsExpression)
  · exact reads_plainStatement hinner rfl hlt

/-! ### All productions -/

/-- What is nested sits where it is read if what the productions with the levels that are left read
does. -/
theorem buildsNested_ofRules {budget : Nat} {rules : (rule : ExprRule) → Parser rule.Answer}
    (hexpression : ∀ minPower, set.Builds (rules (.expression minPower)))
    (hoperand : set.Builds (rules .operand))
    (hstatement : set.ReadsItem set.stream.ReadsStatements (rules .statement)) :
    set.BuildsNested (.ofRules budget rules) where
  pattern := builds_patternAt budget
  patternAtom := builds_patternAtom (builds_patternAt budget)
  typeExpr := builds_typeAt budget .type
  typeAtom := builds_typeAtom (builds_typeAt budget)
  context := builds_context (builds_typeAt budget)
  expression := hexpression
  operand := hoperand
  statement := hstatement

/-- Whatever is read sits where it is read, however deep it may nest. -/
theorem buildsNested_produce (budget : Nat) :
    set.BuildsNested (.ofRules budget (produce budget)) := by
  -- at no levels left every production gives up; one level more nests only what is known
  induction budget with
  | zero =>
    have hdeep : ∀ rule (returns : rule.Answer → ParserState → Prop) (state : ParserState),
        state.position < set.stream.size →
        set.Runs (produce 0 rule) state returns (set.Halts state) :=
      fun _ _ _ hlt => (Passed.refl hlt).throw Abort.noConfusion
    exact buildsNested_ofRules (fun _ _ hlt => hdeep _ _ _ hlt) (fun _ hlt => hdeep _ _ _ hlt)
      fun _ hlt => hdeep _ _ _ hlt
  | succ budget ih =>
    exact buildsNested_ofRules (fun minPower => builds_expression ih minPower) (builds_operand ih)
      (reads_statement ih)

theorem reads_produce (budget : Nat) :
    set.ReadsItem set.stream.ReadsStatements (produce budget .statement) :=
  (buildsNested_produce budget).statement

end Setting

end SableFrontend
