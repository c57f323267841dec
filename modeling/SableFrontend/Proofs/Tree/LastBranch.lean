import SableFrontend.Proofs.Tree.Children

/-!
Where a conditional may lack its last branch. It then has no value in one of the cases, so it may only
stand where its value is not used: as a statement of a block that is not the last one.
`Outline.Places` says so of what stands right below a node, and `Outline.Settled` of a whole tree that
may itself stand anywhere.
-/

namespace SableFrontend

namespace Outline

/-! ### Places of conditionals -/

/-- A conditional without a last branch. -/
def LacksElse (node : Outline) : Prop := node.kind = "IfExpr" ∧ node.parts "else_branch" = []

/-- Neither a conditional nor a statement that is an expression. -/
def isPlain (node : Outline) : Bool :=
  match node.kind with
  | "IfExpr" | "ExprStmt" => false
  | _ => true

/-- Right below a node, a conditional without a last branch is the expression of a statement, and a
statement that is an expression is one of the statements of a block. -/
def Places (node : Outline) : Prop :=
  ∀ field ∈ node.fields, ∀ child ∈ field.value.parts,
    (child.LacksElse → node.kind = "ExprStmt" ∧ field.name = "expr") ∧
      (child.kind = "ExprStmt" → node.kind = "BlockExpr" ∧ field.name = "statements")

/-- A tree that may stand among the statements of a block. -/
structure Listed (node : Outline) : Prop where
  places : node.All Places
  complete : ¬node.LacksElse

/-- A tree that may stand anywhere. -/
structure Settled (node : Outline) : Prop extends node.Listed where
  kind_ne : node.kind ≠ "ExprStmt"

variable {node : Outline}

theorem mem_children {child : Outline} :
    child ∈ node.children ↔ ∃ field ∈ node.fields, child ∈ field.value.parts :=
  List.mem_flatMap

/-- What may stand anywhere may stand below any node. -/
theorem places_of_children (h : ∀ child ∈ node.children, child.Settled) : node.All Places := by
  refine (all_iff node).2 ⟨fun field hfield child hchild => ?_, fun child hchild => (h child hchild).places⟩
  have hsettled := h child (mem_children.2 ⟨field, hfield, hchild⟩)
  exact ⟨fun hlacks => absurd hlacks hsettled.complete, fun hkind => absurd hkind hsettled.kind_ne⟩

/-- Only a conditional may lack a last branch. -/
theorem settled_of_children (hplain : node.isPlain = true)
    (h : ∀ child ∈ node.children, child.Settled) : node.Settled := by
  have hne : ∀ {kind : String}, node.kind = kind → kind ≠ "IfExpr" ∧ kind ≠ "ExprStmt" := by
    rintro _ rfl
    constructor <;> (intro hkind; rw [isPlain, hkind] at hplain; cases hplain)
  exact ⟨⟨places_of_children h, fun hlacks => (hne rfl).1 hlacks.1⟩, (hne rfl).2⟩

/-- Below a node that is neither a block nor a statement stands what may stand anywhere. -/
theorem settled_child (h : node.All Places) (hblock : node.kind ≠ "BlockExpr")
    (hstatement : node.kind ≠ "ExprStmt") : ∀ child ∈ node.children, child.Settled := by
  obtain ⟨hplaces, hchildren⟩ := (all_iff node).1 h
  intro child hchild
  obtain ⟨field, hfield, hpart⟩ := mem_children.1 hchild
  obtain ⟨hlacks, hkind⟩ := hplaces field hfield child hpart
  exact ⟨⟨hchildren child hchild, fun h => hstatement (hlacks h).1⟩, fun h => hblock (hkind h).1⟩

end Outline

/-! ### Trees that may stand anywhere -/

open Outline

/-- Something holds of every tree of an answer. -/
def Every {α : Type} [Forest α] (p : Outline → Prop) (answer : α) : Prop :=
  ∀ tree ∈ trees answer, p tree

section

variable {α β : Type} [Forest α] [Forest β] {p : Outline → Prop}

theorem every_nil : Every p ([] : List α) := fun _ hmem => absurd hmem List.not_mem_nil

theorem every_none : Every p (none : Option α) := fun _ hmem => absurd hmem List.not_mem_nil

theorem every_cons {first : α} {rest : List α} :
    Every p (first :: rest) ↔ Every p first ∧ Every p rest := by
  simp only [Every, trees_cons, List.forall_mem_append]

theorem every_list {list : List α} : Every p list ↔ ∀ value ∈ list, Every p value :=
  ⟨fun h value hmem tree htree => h tree (mem_trees.2 ⟨value, hmem, htree⟩),
    fun h tree hmem => by
      obtain ⟨value, hvalue, htree⟩ := mem_trees.1 hmem
      exact h value hvalue tree htree⟩

theorem Every.subset {answer : α} {part : β} (h : Every p answer)
    (hsubset : trees part ⊆ trees answer) : Every p part :=
  fun tree hmem => h tree (hsubset hmem)

theorem Every.mono {q : Outline → Prop} {answer : α} (h : Every p answer) (hpq : ∀ {node}, p node → q node) :
    Every q answer :=
  fun tree hmem => hpq (h tree hmem)

end

mutual

theorem TypeExpr.settled (type : TypeExpr) : type.outline.Settled := by
  match type with
  | .var _ _ | .con _ _ => exact settled_of_children rfl nofun
  | .app function argument _ | .arrow function argument _ =>
    refine settled_of_children rfl ?_
    simpa [children, TypeExpr.outline] using ⟨function.settled, argument.settled⟩
  | .tuple elements _ =>
    refine settled_of_children rfl ?_
    simpa [children, TypeExpr.outline, Every] using every_settled_types elements
  | .effectful effects row result _ =>
    have hrow : ∀ row : RowVariable, row.outline.Settled := fun row =>
      settled_of_children rfl nofun
    have hresult : Every Settled result := by
      match result with
      | none => exact every_none
      | some result => exact List.forall_mem_singleton.2 result.settled
    refine settled_of_children rfl ?_
    simp only [children, TypeExpr.outline, List.flatMap_cons, List.flatMap_nil,
      OutlineField.parts_ofNodes, OutlineField.parts_ofNode?, typeOutlines_eq, typeOutline?_toList, List.append_nil,
      List.forall_mem_append]
    refine ⟨every_settled_types effects, fun child hchild => ?_, hresult⟩
    obtain ⟨row, -, rfl⟩ := Option.map_eq_some_iff.1 (Option.mem_toList.1 hchild)
    exact hrow row
  | .qualified constraints body _ =>
    refine settled_of_children rfl ?_
    simpa [children, TypeExpr.outline, or_imp, forall_and] using
      ⟨every_settled_constraints constraints, body.settled⟩

theorem every_settled_types (types : List TypeExpr) : Every Settled types := by
  match types with
  | [] => exact every_nil
  | type :: rest =>
    exact every_cons.2 ⟨List.forall_mem_singleton.2 type.settled, every_settled_types rest⟩

theorem Constraint.settled (constraint : Constraint) : constraint.outline.Settled := by
  match constraint with
  | { arguments := arguments, .. } =>
    refine settled_of_children rfl ?_
    simpa [children, Constraint.outline, Every] using every_settled_types arguments

theorem every_settled_constraints (constraints : List Constraint) : Every Settled constraints := by
  match constraints with
  | [] => exact every_nil
  | constraint :: rest =>
    exact every_cons.2
      ⟨List.forall_mem_singleton.2 constraint.settled, every_settled_constraints rest⟩

end

theorem Literal.settled (literal : Literal) : literal.outline.Settled := by
  refine settled_of_children ?_ (by simp)
  cases literal <;> rfl

mutual

theorem Pattern.settled (pattern : Pattern) : pattern.outline.Settled := by
  match pattern with
  | .wildcard _ | .binding _ _ =>
    exact settled_of_children rfl nofun
  | .literal value _ =>
    refine settled_of_children rfl ?_
    simpa [children, Pattern.outline] using value.settled
  | .constructor _ arguments fields _ =>
    have hfields : Every Settled fields := by
      match fields with
      | none => exact every_none
      | some fields => exact every_settled_fields fields
    refine settled_of_children rfl ?_
    simp only [children, Pattern.outline, List.flatMap_cons, List.flatMap_nil,
      OutlineField.parts_ofNodes, OutlineField.parts_ofText, OutlineField.parts_ofNodes?, patternOutlines_eq,
      fieldPatternOutlines?_getD, List.append_nil, List.nil_append, List.forall_mem_append]
    exact ⟨every_settled_patterns arguments, hfields⟩
  | .listCons head tail _ =>
    refine settled_of_children rfl ?_
    simpa [children, Pattern.outline] using ⟨head.settled, tail.settled⟩
  | .list elements _ | .tuple elements _ =>
    refine settled_of_children rfl ?_
    simpa [children, Pattern.outline, Every] using every_settled_patterns elements

theorem every_settled_patterns (patterns : List Pattern) : Every Settled patterns := by
  match patterns with
  | [] => exact every_nil
  | pattern :: rest =>
    exact every_cons.2 ⟨List.forall_mem_singleton.2 pattern.settled, every_settled_patterns rest⟩

theorem FieldPattern.settled (field : FieldPattern) : field.outline.Settled := by
  match field with
  | { pattern := none, .. } =>
    exact settled_of_children rfl
      (by simp [children, FieldPattern.outline])
  | { pattern := some pattern, .. } =>
    refine settled_of_children rfl ?_
    simpa [children, FieldPattern.outline, trees] using pattern.settled

theorem every_settled_fields (fields : List FieldPattern) : Every Settled fields := by
  match fields with
  | [] => exact every_nil
  | field :: rest =>
    exact every_cons.2 ⟨List.forall_mem_singleton.2 field.settled, every_settled_fields rest⟩

end

/-! ### Grouping -/

theorem TermDef.kind_outline (definition : TermDef) : definition.outline.kind = "TermDef" := by
  cases definition
  rfl

/-- A definition may stand wherever its clauses may. -/
theorem TermDef.settled_iff {definition : TermDef} :
    definition.outline.Settled ↔ Every Settled definition.clauses := by
  have hkind := definition.kind_outline
  refine ⟨fun h tree htree => ?_, fun h => ?_⟩
  · exact settled_child h.places (by rw [hkind]; decide) h.kind_ne tree (by simpa using htree)
  · exact settled_of_children (by rw [isPlain, hkind]; rfl) (by simpa [Every] using h)

theorem Ascription.settled (ascription : Ascription) : ascription.outline.Settled :=
  settled_of_children rfl (by simpa using ascription.typeExpr.settled)

section

variable {α : Type} [Forest α] {p : Outline → Prop}

/-- What has been merged may stand where its parts may. -/
theorem every_mergeDefinitions {definition? : α → Option TermDef} {ofDefinition : TermDef → α}
    (hsettled : ∀ {node}, node.Settled → p node)
    (hdefinition : ∀ {definition : TermDef}, p definition.outline → definition.outline.Settled)
    (hof : ∀ definition, trees (ofDefinition definition) = [definition.outline])
    (htrees : ∀ {item definition}, definition? item = some definition →
      trees item = [definition.outline])
    {items : List α} (h : Every p items) : Every p (mergeDefinitions definition? ofDefinition items) := by
  refine every_list.2 (forall_mem_of_merged? (p := Every p) (fun hboth hfirst hsecond => ?_)
    (every_list.1 h))
  obtain ⟨first, second, heq, heq', -, rfl⟩ := exists_of_merged? hboth
  rw [Every, htrees heq, List.forall_mem_singleton] at hfirst
  rw [Every, htrees heq', List.forall_mem_singleton] at hsecond
  rw [Every, hof, List.forall_mem_singleton]
  refine hsettled (TermDef.settled_iff.2 ?_)
  rw [TermDef.append, Every, trees_append, List.forall_mem_append]
  exact ⟨TermDef.settled_iff.1 (hdefinition hfirst), TermDef.settled_iff.1 (hdefinition hsecond)⟩

theorem Statement.every_settle (hsettled : ∀ {node}, node.Settled → p node) {statement : Statement}
    {target : Option String} (h : Every p statement) : Every p (statement.settle target).1 := by
  cases statement with
  | pending typeExpr span =>
    cases target with
    | none => exact every_none
    | some name => exact List.forall_mem_singleton.2 (hsettled (Ascription.settled _))
  | item plain =>
    cases plain with
    | declaration declaration =>
      cases declaration with
      | ascription ascription =>
        obtain ⟨name, typeExpr, attachment, span⟩ := ascription
        cases attachment <;> cases target <;> first | exact every_none | exact h
      | _ => exact h
    | _ => exact h

/-- What has been grouped may stand where its parts may. -/
theorem Statement.every_group (hsettled : ∀ {node}, node.Settled → p node)
    (hdefinition : ∀ {definition : TermDef}, p definition.outline → definition.outline.Settled)
    {statements : List Statement} (h : Every p statements) : Every p (group statements).1 := by
  have hmerged : Every p (mergeDefinitions definition? ofDefinition statements) := by
    refine every_mergeDefinitions hsettled hdefinition (fun _ => rfl) (fun heq => ?_) h
    unfold definition? at heq
    split at heq <;> cases heq
    rfl
  rw [group]
  generalize mergeDefinitions definition? ofDefinition statements = merged at hmerged
  induction merged with
  | nil => exact every_nil
  | cons first rest ih =>
    obtain ⟨hfirst, hrest⟩ := every_cons.1 hmerged
    rw [settleAll_cons, Every, trees_append, List.forall_mem_append]
    refine ⟨fun tree hmem => ?_, ih hrest⟩
    obtain ⟨item, hitem, htree⟩ := mem_trees.1 hmem
    have hsettle : Every p (first.settle (rest.head?.bind annotatedName?)).1 :=
      every_settle hsettled hfirst
    rw [Option.mem_toList.1 hitem] at hsettle
    exact hsettle tree htree

end

end SableFrontend
