import SableFrontend.Grammar.Declaration
import SableFrontend.Proofs.Tree.Nodes
import SableFrontend.Proofs.Tree.Structure

/-!
The children of a node, and what a tree must be like to be made sense of. A renamer reads a tree
without asking how it was parsed, so it relies on some things that no type of tree says: that every
clause of a case has a pattern for each scrutinee, that no field of a record is given twice, and so
on. `Outline.WellMade` says them of one node, by its kind.

`Forest` collects the trees that an answer of a parser is made of; it is all that is needed to say
where an answer comes from.
-/

namespace SableFrontend

/-! ### Children -/

/-- The nodes that the value of a field holds. -/
def OutlineValue.parts : OutlineValue → List Outline
  | .node value => [value]
  | .nodes values => values
  | _ => []

namespace Outline

/-- The nodes right below a node. -/
def children (node : Outline) : List Outline := node.fields.flatMap fun field => field.value.parts

/-- The nodes in the field of a name. -/
def parts (node : Outline) (name : String) : List Outline :=
  (node.fields.filter fun field => field.name == name).flatMap fun field => field.value.parts

/-- The text in the field of a name. -/
def textOf (node : Outline) (name : String) : Option String :=
  node.fields.findSome? fun field =>
    if field.name == name then
      match field.value with
      | .text value => some value
      | _ => none
    else none

theorem allNodes_iff_forall {p : Outline → Prop} {nodes : List Outline} :
    allNodes p nodes ↔ ∀ node ∈ nodes, node.All p := by
  induction nodes with
  | nil => simp [allNodes]
  | cons first rest ih => simp [allNodes, ih]

theorem all_value_iff {p : Outline → Prop} (value : OutlineValue) :
    value.All p ↔ ∀ node ∈ value.parts, node.All p := by
  cases value <;> simp [OutlineValue.All, OutlineValue.parts, allNodes_iff_forall]

/-- A predicate holds of all nodes of a tree if it holds of its root and of all nodes below. -/
theorem all_iff {p : Outline → Prop} (node : Outline) :
    node.All p ↔ p node ∧ ∀ child ∈ node.children, child.All p := by
  obtain ⟨kind, fields, span⟩ := node
  rw [Outline.All]
  refine and_congr Iff.rfl ?_
  rw [children]
  induction fields with
  | nil => simp [allFields]
  | cons field rest ih =>
    obtain ⟨name, value⟩ := field
    simp only [allFields, OutlineField.All, all_value_iff, ih, List.flatMap_cons,
      List.mem_append, or_imp, forall_and]

end Outline

/-! ### What a tree must be like -/

/-- No two neighbours are definitions of one name. -/
def Unmerged (nodes : List Outline) : Prop :=
  nodes.IsChain fun first second =>
    ¬(first.kind = "TermDef" ∧ second.kind = "TermDef" ∧ first.textOf "name" = second.textOf "name")

/-- No two fields have the same name. -/
def DistinctNames (nodes : List Outline) : Prop := (nodes.map fun node => node.textOf "name").Nodup

/-- What a reader of a tree may rely on at a node: each case clause has a pattern for each
scrutinee, of which there is one; a lambda has a clause, and each of its clauses a pattern; a
handler has a clause for an operation, and one for returned values binds a variable or nothing; a
record, an update or a constructor pattern takes arguments or fields and no field twice, and no
argument is a field access; an effect list holds no type variable, a constraint has an argument,
and clauses of one name that stand together are one definition. -/
def Outline.WellMade (node : Outline) : Prop :=
  match node.kind with
  | "CaseExpr" => node.parts "scrutinees" ≠ [] ∧ ∀ clause ∈ node.parts "clauses",
      (clause.parts "patterns").length = (node.parts "scrutinees").length
  | "LambdaExpr" => node.parts "clauses" ≠ [] ∧
      ∀ clause ∈ node.parts "clauses", clause.parts "patterns" ≠ []
  | "HandlerExpr" => ∃ clause ∈ node.parts "clauses", clause.kind = "OperationClause"
  | "ReturnClause" => ∀ binder ∈ node.parts "binder",
      binder.kind = "BindingPattern" ∨ binder.kind = "WildcardPattern"
  | "RecordExpr" => (node.parts "args" = [] ∨ node.parts "fields" = []) ∧
      DistinctNames (node.parts "fields") ∧
      ∀ argument ∈ node.parts "args", argument.kind ≠ "FieldExpr"
  | "RecordUpdateExpr" | "RecordUpdateLambda" => DistinctNames (node.parts "fields")
  | "ConstructorPattern" => node.parts "args" = [] ∨ node.parts "fields" = []
  | "EffectType" => ∀ effect ∈ node.parts "effects", effect.kind ≠ "TypeVar"
  | "Constraint" => node.parts "args" ≠ []
  | "BlockExpr" => Unmerged (node.parts "statements")
  | "TypeClassDef" | "InstanceDef" => Unmerged (node.parts "members")
  | "Module" => Unmerged (node.parts "declarations")
  | _ => True

/-! ### The trees of an answer -/

/-- What is made up of trees, side by side. -/
class Forest (α : Type) where
  trees : α → List Outline

export Forest (trees)

section

variable {α β : Type}

instance : Forest TypeExpr := ⟨fun type => [type.outline]⟩
instance : Forest Constraint := ⟨fun constraint => [constraint.outline]⟩
instance : Forest Literal := ⟨fun literal => [literal.outline]⟩
instance : Forest Pattern := ⟨fun pattern => [pattern.outline]⟩
instance : Forest FieldPattern := ⟨fun field => [field.outline]⟩
instance : Forest OperationSpec := ⟨fun operation => [operation.outline]⟩
instance : Forest Expr := ⟨fun expr => [expr.outline]⟩
instance : Forest GuardedBranch := ⟨fun branch => [branch.outline]⟩
instance : Forest Clause := ⟨fun clause => [clause.outline]⟩
instance : Forest HandlerClause := ⟨fun clause => [clause.outline]⟩
instance : Forest ComprehensionClause := ⟨fun clause => [clause.outline]⟩
instance : Forest FieldAssign := ⟨fun field => [field.outline]⟩
instance : Forest TermDef := ⟨fun definition => [definition.outline]⟩
instance : Forest FieldSpec := ⟨fun field => [field.outline]⟩
instance : Forest ConstructorSpec := ⟨fun constructor => [constructor.outline]⟩
instance : Forest ClassMember := ⟨fun member => [member.outline]⟩
instance : Forest Declaration := ⟨fun declaration => [declaration.outline]⟩
instance : Forest Item := ⟨fun item => [item.outline]⟩
instance : Forest Parser.Climb := ⟨fun climb => [climb.left.outline]⟩
instance : Forest String := ⟨fun _ => []⟩
instance : Forest Bool := ⟨fun _ => []⟩
instance [Forest α] : Forest (List α) := ⟨List.flatMap trees⟩
instance [Forest α] : Forest (Option α) := ⟨fun value? => value?.elim [] trees⟩
instance [Forest α] [Forest β] : Forest (α ⊕ β) := ⟨Sum.elim trees trees⟩

/-- An annotation that stands alone is a tree already, but for its name. -/
instance : Forest Statement where
  trees
    | .item item => trees item
    | .pending typeExpr span => [(Ascription.mk "" typeExpr .nextDeclaration span).outline]

instance : Forest Parser.DefinitionLine := ⟨fun line => trees line.statements⟩

instance : (rule : ExprRule) → Forest rule.Answer
  | .expression _ | .operand => inferInstanceAs (Forest Expr)
  | .statement => inferInstanceAs (Forest (List Statement))

variable [Forest α] [Forest β]

@[simp] theorem trees_nil : trees ([] : List α) = [] := rfl

@[simp] theorem trees_cons (first : α) (rest : List α) :
    trees (first :: rest) = trees first ++ trees rest := rfl

@[simp] theorem trees_append (before after : List α) :
    trees (before ++ after) = trees before ++ trees after := List.flatMap_append ..

@[simp] theorem trees_none : trees (none : Option α) = [] := rfl

@[simp] theorem trees_some (value : α) : trees (some value) = trees value := rfl

@[simp] theorem trees_inl (value : α) : trees (.inl value : α ⊕ β) = trees value := rfl

@[simp] theorem trees_inr (value : β) : trees (.inr value : α ⊕ β) = trees value := rfl

@[simp] theorem trees_flatten (lists : List (List α)) : trees lists.flatten = trees lists := by
  induction lists with
  | nil => rfl
  | cons first rest ih => rw [List.flatten_cons, trees_append, trees_cons, ih]

theorem mem_trees {tree : Outline} {list : List α} :
    tree ∈ trees list ↔ ∃ value ∈ list, tree ∈ trees value := List.mem_flatMap

@[simp] theorem mem_trees_reverse {tree : Outline} {list : List α} :
    tree ∈ trees list.reverse ↔ tree ∈ trees list := by
  simp [mem_trees]

theorem trees_subset {list other : List α} (h : list ⊆ other) : trees list ⊆ trees other := by
  intro tree hmem
  obtain ⟨value, hvalue, htree⟩ := mem_trees.1 hmem
  exact mem_trees.2 ⟨value, h hvalue, htree⟩

theorem trees_sublist {part list : List α} (h : part.Sublist list) :
    (trees part).Sublist (trees list) := by
  induction h with
  | slnil => exact .slnil
  | cons value _ ih => exact ih.trans (List.sublist_append_right _ _)
  | cons_cons value _ ih => exact (List.Sublist.refl _).append ih

theorem trees_lefts_subset (list : List (α ⊕ β)) :
    trees (list.filterMap Sum.getLeft?) ⊆ trees list := by
  intro tree hmem
  obtain ⟨value, hvalue, htree⟩ := mem_trees.1 hmem
  obtain ⟨either, heither, hleft⟩ := List.mem_filterMap.1 hvalue
  rw [Sum.getLeft?_eq_some_iff] at hleft
  exact mem_trees.2 ⟨either, heither, hleft ▸ htree⟩

theorem trees_rights_subset (list : List (α ⊕ β)) :
    trees (list.filterMap Sum.getRight?) ⊆ trees list := by
  intro tree hmem
  obtain ⟨value, hvalue, htree⟩ := mem_trees.1 hmem
  obtain ⟨either, heither, hright⟩ := List.mem_filterMap.1 hvalue
  rw [Sum.getRight?_eq_some_iff] at hright
  exact mem_trees.2 ⟨either, heither, hright ▸ htree⟩

/-- The outlines of a list of trees are its trees. -/
theorem outlines_eq_trees {outline : α → Outline} {outlines : List α → List Outline}
    (hnil : outlines [] = []) (htree : ∀ value, trees value = [outline value])
    (hcons : ∀ first rest, outlines (first :: rest) = outline first :: outlines rest)
    (list : List α) : outlines list = trees list := by
  induction list with
  | nil => exact hnil
  | cons first rest ih => rw [hcons, ih, trees_cons, htree, List.singleton_append]

end

section

@[simp] theorem typeOutlines_eq (types : List TypeExpr) : typeOutlines types = trees types :=
  outlines_eq_trees rfl (fun _ => rfl) (fun _ _ => rfl) types

@[simp] theorem constraintOutlines_eq (constraints : List Constraint) :
    constraintOutlines constraints = trees constraints :=
  outlines_eq_trees rfl (fun _ => rfl) (fun _ _ => rfl) constraints

@[simp] theorem patternOutlines_eq (patterns : List Pattern) :
    patternOutlines patterns = trees patterns :=
  outlines_eq_trees rfl (fun _ => rfl) (fun _ _ => rfl) patterns

@[simp] theorem fieldPatternOutlines_eq (fields : List FieldPattern) :
    fieldPatternOutlines fields = trees fields :=
  outlines_eq_trees rfl (fun _ => rfl) (fun _ _ => rfl) fields

@[simp] theorem exprOutlines_eq (exprs : List Expr) : exprOutlines exprs = trees exprs :=
  outlines_eq_trees rfl (fun _ => rfl) (fun _ _ => rfl) exprs

@[simp] theorem branchOutlines_eq (branches : List GuardedBranch) :
    branchOutlines branches = trees branches :=
  outlines_eq_trees rfl (fun _ => rfl) (fun _ _ => rfl) branches

@[simp] theorem clauseOutlines_eq (clauses : List Clause) :
    clauseOutlines clauses = trees clauses :=
  outlines_eq_trees rfl (fun _ => rfl) (fun _ _ => rfl) clauses

@[simp] theorem handlerClauseOutlines_eq (clauses : List HandlerClause) :
    handlerClauseOutlines clauses = trees clauses :=
  outlines_eq_trees rfl (fun _ => rfl) (fun _ _ => rfl) clauses

@[simp] theorem comprehensionClauseOutlines_eq (clauses : List ComprehensionClause) :
    comprehensionClauseOutlines clauses = trees clauses :=
  outlines_eq_trees rfl (fun _ => rfl) (fun _ _ => rfl) clauses

@[simp] theorem fieldAssignOutlines_eq (fields : List FieldAssign) :
    fieldAssignOutlines fields = trees fields :=
  outlines_eq_trees rfl (fun _ => rfl) (fun _ _ => rfl) fields

@[simp] theorem termDefOutlines_eq (definitions : List TermDef) :
    termDefOutlines definitions = trees definitions :=
  outlines_eq_trees rfl (fun _ => rfl) (fun _ _ => rfl) definitions

@[simp] theorem fieldSpecOutlines_eq (fields : List FieldSpec) :
    fieldSpecOutlines fields = trees fields :=
  outlines_eq_trees rfl (fun _ => rfl) (fun _ _ => rfl) fields

@[simp] theorem constructorSpecOutlines_eq (constructors : List ConstructorSpec) :
    constructorSpecOutlines constructors = trees constructors :=
  outlines_eq_trees rfl (fun _ => rfl) (fun _ _ => rfl) constructors

@[simp] theorem classMemberOutlines_eq (members : List ClassMember) :
    classMemberOutlines members = trees members :=
  outlines_eq_trees rfl (fun _ => rfl) (fun _ _ => rfl) members

@[simp] theorem itemOutlines_eq (items : List Item) : itemOutlines items = trees items :=
  outlines_eq_trees rfl (fun _ => rfl) (fun _ _ => rfl) items

end

/-! ### Fields -/

@[simp] theorem OutlineValue.parts_flag (value : Bool) : (OutlineValue.flag value).parts = [] := rfl

namespace OutlineField

@[simp] theorem name_ofText (name value : String) : (ofText name value).name = name := rfl

@[simp] theorem name_ofText? (name : String) (value : Option String) :
    (ofText? name value).name = name := rfl

@[simp] theorem name_ofTexts (name : String) (values : List String) :
    (ofTexts name values).name = name := rfl

@[simp] theorem name_ofNode (name : String) (value : Outline) :
    (ofNode name value).name = name := rfl

@[simp] theorem name_ofNode? (name : String) (value? : Option Outline) :
    (ofNode? name value?).name = name := rfl

@[simp] theorem name_ofNodes (name : String) (values : List Outline) :
    (ofNodes name values).name = name := rfl

@[simp] theorem name_ofNodes? (name : String) (values? : Option (List Outline)) :
    (ofNodes? name values?).name = name := rfl

@[simp] theorem parts_ofText (name value : String) : (ofText name value).value.parts = [] := rfl

@[simp] theorem parts_ofText? (name : String) (value : Option String) :
    (ofText? name value).value.parts = [] := by
  cases value <;> rfl

@[simp] theorem parts_ofTexts (name : String) (values : List String) :
    (ofTexts name values).value.parts = [] := rfl

@[simp] theorem parts_ofNode (name : String) (value : Outline) :
    (ofNode name value).value.parts = [value] := rfl

@[simp] theorem parts_ofNode? (name : String) (value? : Option Outline) :
    (ofNode? name value?).value.parts = value?.toList := by
  cases value? <;> rfl

@[simp] theorem parts_ofNodes (name : String) (values : List Outline) :
    (ofNodes name values).value.parts = values := rfl

@[simp] theorem parts_ofNodes? (name : String) (values? : Option (List Outline)) :
    (ofNodes? name values?).value.parts = values?.getD [] := by
  cases values? <;> rfl

end OutlineField

section

variable {α : Type} [Forest α]

theorem toList_eq_trees {outline : α → Outline} {outline? : Option α → Option Outline}
    (hnone : outline? none = none) (htree : ∀ value, trees value = [outline value])
    (hsome : ∀ value, outline? (some value) = some (outline value)) (value? : Option α) :
    (outline? value?).toList = trees value? := by
  cases value? with
  | none =>
    rw [hnone]
    rfl
  | some value =>
    rw [hsome, trees_some, htree]
    rfl

@[simp] theorem typeOutline?_toList (type? : Option TypeExpr) :
    (typeOutline? type?).toList = trees type? :=
  toList_eq_trees rfl (fun _ => rfl) (fun _ => rfl) type?

@[simp] theorem patternOutline?_toList (pattern? : Option Pattern) :
    (patternOutline? pattern?).toList = trees pattern? :=
  toList_eq_trees rfl (fun _ => rfl) (fun _ => rfl) pattern?

@[simp] theorem exprOutline?_toList (expr? : Option Expr) :
    (exprOutline? expr?).toList = trees expr? :=
  toList_eq_trees rfl (fun _ => rfl) (fun _ => rfl) expr?

@[simp] theorem fieldPatternOutlines?_getD (fields? : Option (List FieldPattern)) :
    (fieldPatternOutlines? fields?).getD [] = trees fields? := by
  cases fields? <;> simp [fieldPatternOutlines?]

@[simp] theorem fieldSpecOutlines?_getD (fields? : Option (List FieldSpec)) :
    (fieldSpecOutlines? fields?).getD [] = trees fields? := by
  cases fields? <;> simp [fieldSpecOutlines?]

end

/-! ### Places and children of nodes -/

@[simp] theorem TypeExpr.span_outline (type : TypeExpr) : type.outline.span = type.span := by
  cases type <;> rfl

@[simp] theorem Literal.span_outline (literal : Literal) : literal.outline.span = literal.span := by
  cases literal <;> rfl

@[simp] theorem Pattern.span_outline (pattern : Pattern) : pattern.outline.span = pattern.span := by
  cases pattern <;> rfl

@[simp] theorem Expr.span_outline (expr : Expr) : expr.outline.span = expr.span := by
  cases expr with
  | literal value => exact value.span_outline
  | _ => rfl

@[simp] theorem Clause.span_outline (clause : Clause) : clause.outline.span = clause.span := by
  cases clause
  rfl

@[simp] theorem FieldAssign.span_outline (field : FieldAssign) :
    field.outline.span = field.span := by
  cases field
  rfl

@[simp] theorem TermDef.span_outline (definition : TermDef) :
    definition.outline.span = definition.span := by
  cases definition
  rfl

@[simp] theorem FieldSpec.span_outline (field : FieldSpec) : field.outline.span = field.span := by
  cases field
  rfl

@[simp] theorem ConstructorSpec.span_outline (constructor : ConstructorSpec) :
    constructor.outline.span = constructor.span := by
  cases constructor
  rfl

@[simp] theorem Declaration.span_outline (declaration : Declaration) :
    declaration.outline.span = declaration.span := by
  cases declaration <;> simp [outline, span, Ascription.outline]

@[simp] theorem Item.span_outline (item : Item) : item.outline.span = item.span := by
  cases item <;> simp [outline, span]

@[simp] theorem Literal.children_outline (literal : Literal) : literal.outline.children = [] := by
  cases literal <;> rfl

@[simp] theorem Clause.children_outline (clause : Clause) :
    clause.outline.children = trees clause.patterns ++ trees clause.body := by
  cases clause
  simp [outline, Outline.children]
  rfl

@[simp] theorem TermDef.children_outline (definition : TermDef) :
    definition.outline.children = trees definition.clauses := by
  cases definition
  simp [outline, Outline.children]

@[simp] theorem Ascription.children_outline (ascription : Ascription) :
    ascription.outline.children = [ascription.typeExpr.outline] := rfl

/-! ### Nodes that are well made -/

section

variable {α : Type} [Forest α]

/-- The trees of a list of trees are its outlines, one after the other. -/
theorem trees_eq_map {outline : α → Outline} (htree : ∀ value, trees value = [outline value])
    (list : List α) : trees list = list.map outline := by
  induction list with
  | nil => rfl
  | cons first rest ih => rw [trees_cons, htree, ih, List.map_cons, List.singleton_append]

/-- Neighbours that cannot be merged are no definitions of one name. -/
theorem Merged.unmerged {definition? : α → Option TermDef} {ofDefinition : TermDef → α}
    {outline : α → Outline} (htree : ∀ value, trees value = [outline value])
    (hdefinition : ∀ value, (outline value).kind = "TermDef" → ∃ definition,
      definition? value = some definition ∧ (outline value).textOf "name" = some definition.name)
    {list : List α} (h : Merged definition? ofDefinition list) : Unmerged (trees list) := by
  rw [trees_eq_map htree]
  refine List.isChain_map_of_isChain outline (fun first second hmerged => ?_) h
  rintro ⟨hfirst, hsecond, hname⟩
  obtain ⟨definition, hdefined, htext⟩ := hdefinition first hfirst
  obtain ⟨definition', hdefined', htext'⟩ := hdefinition second hsecond
  rw [htext, htext'] at hname
  refine merged?_eq_none_iff.1 hmerged definition.name ?_ ?_
  · rw [definedName?, hdefined, Option.map_some]
  · rw [definedName?, hdefined', Option.map_some, Option.some.inj hname]

@[simp] theorem TermDef.textOf_name (definition : TermDef) :
    definition.outline.textOf "name" = some definition.name := by
  obtain ⟨name, clauses, span⟩ := definition
  simp [TermDef.outline, Outline.textOf, OutlineField.ofText]

@[simp] theorem FieldAssign.textOf_name (field : FieldAssign) :
    field.outline.textOf "name" = some field.name := by
  obtain ⟨name, value, span⟩ := field
  simp [FieldAssign.outline, Outline.textOf, OutlineField.ofText]

theorem Item.unmerged {items : List Item} (h : Merged Item.definition? Item.ofDefinition items) :
    Unmerged (trees items) := by
  refine h.unmerged (fun _ => rfl) fun item hkind => ?_
  cases item with
  | declaration declaration =>
    cases declaration with
    | definition definition => exact ⟨definition, rfl, definition.textOf_name⟩
    | _ => exact absurd hkind (by simp [outline, Declaration.outline, Ascription.outline])
  | _ => exact absurd hkind (by simp [outline])

theorem ClassMember.unmerged {members : List ClassMember}
    (h : Merged ClassMember.definition? ClassMember.definition members) :
    Unmerged (trees members) := by
  refine h.unmerged (fun _ => rfl) fun member hkind => ?_
  cases member with
  | signature signature => exact absurd hkind (by simp [outline, Signature.outline])
  | definition definition => exact ⟨definition, rfl, definition.textOf_name⟩

theorem TermDef.unmerged {definitions : List TermDef} (h : Merged some id definitions) :
    Unmerged (trees definitions) :=
  h.unmerged (fun _ => rfl) fun definition _ => ⟨definition, rfl, definition.textOf_name⟩

end

theorem distinctNames_trees {fields : List FieldAssign}
    (h : (fields.map FieldAssign.name).Nodup) : DistinctNames (trees fields) := by
  have hnames : (trees fields).map (fun node => node.textOf "name") =
      (fields.map FieldAssign.name).map some := by
    rw [trees_eq_map fun _ => rfl, List.map_map, List.map_map]
    exact List.map_congr_left fun field _ => field.textOf_name
  rw [DistinctNames, hnames]
  exact List.Pairwise.map some (fun _ _ hne heq => hne (Option.some.inj heq)) h

theorem trees_ne_nil {α : Type} [Forest α] {outline : α → Outline}
    (htree : ∀ value, trees value = [outline value]) {list : List α} (h : list ≠ []) :
    trees list ≠ [] := by
  rw [trees_eq_map htree]
  exact fun hnil => h (List.map_eq_nil_iff.1 hnil)

theorem Literal.wellMade (literal : Literal) : literal.outline.WellMade := by
  cases literal <;> trivial

theorem Constraint.wellMade {className : String} {arguments : List TypeExpr} {span : Span}
    (h : arguments ≠ []) : (Constraint.mk className arguments span).outline.WellMade := by
  have hne := trees_ne_nil (fun _ => rfl) h
  simpa [Constraint.outline, Outline.WellMade, Outline.parts] using hne

theorem TypeExpr.kind_ne {type : TypeExpr} (h : type.asRowVariable? = none) :
    type.outline.kind ≠ "TypeVar" := by
  cases type with
  | var => cases h
  | _ => simp [outline]

theorem TypeExpr.wellMade_effectful {effects : List TypeExpr} {row : Option RowVariable}
    {result : Option TypeExpr} {span : Span} (h : ∀ effect ∈ effects, effect.asRowVariable? = none) :
    (TypeExpr.effectful effects row result span).outline.WellMade := by
  have heffects : ∀ tree ∈ trees effects, tree.kind ≠ "TypeVar" := by
    rw [trees_eq_map fun _ => rfl]
    intro tree hmem
    obtain ⟨effect, heffect, rfl⟩ := List.mem_map.1 hmem
    exact TypeExpr.kind_ne (h effect heffect)
  simpa [TypeExpr.outline, Outline.WellMade, Outline.parts] using heffects

theorem Pattern.wellMade_constructor {name : String} {arguments : List Pattern}
    {fields : Option (List FieldPattern)} {span : Span} (h : arguments = [] ∨ fields = none) :
    (Pattern.constructor name arguments fields span).outline.WellMade := by
  rcases h with rfl | rfl <;> simp [Pattern.outline, Outline.WellMade, Outline.parts]

/-- An expression that is no field access is not seen as one. -/
theorem Expr.kind_ne {expr : Expr} (h : ∀ target name span, expr ≠ .field target name span) :
    expr.outline.kind ≠ "FieldExpr" := by
  cases expr with
  | field target name span => exact absurd rfl (h target name span)
  | literal value => cases value <;> simp [outline, Literal.outline]
  | _ => simp [outline]

theorem Expr.wellMade_record {name : String} {arguments : List Expr} {fields : List FieldAssign}
    {span : Span} (hboth : arguments = [] ∨ fields = [])
    (hnames : (fields.map FieldAssign.name).Nodup)
    (hfield : ∀ argument ∈ arguments, ∀ target name span, argument ≠ .field target name span) :
    (Expr.record name arguments fields span).outline.WellMade := by
  have harguments : ∀ tree ∈ trees arguments, tree.kind ≠ "FieldExpr" := by
    rw [trees_eq_map fun _ => rfl]
    intro tree hmem
    obtain ⟨argument, hargument, rfl⟩ := List.mem_map.1 hmem
    exact Expr.kind_ne (hfield argument hargument)
  have hdistinct := distinctNames_trees hnames
  refine ⟨?_, ?_, ?_⟩
  · rcases hboth with rfl | rfl <;> simp [Expr.outline, Outline.parts]
  · simpa [Expr.outline, Outline.parts] using hdistinct
  · simpa [Expr.outline, Outline.parts] using harguments

theorem Expr.wellMade_recordUpdate {target : Expr} {fields : List FieldAssign} {span : Span}
    (h : (fields.map FieldAssign.name).Nodup) :
    (Expr.recordUpdate target fields span).outline.WellMade := by
  have hdistinct := distinctNames_trees h
  simpa [Expr.outline, Outline.WellMade, Outline.parts] using hdistinct

theorem Expr.wellMade_recordUpdateLambda {fields : List FieldAssign} {span : Span}
    (h : (fields.map FieldAssign.name).Nodup) :
    (Expr.recordUpdateLambda fields span).outline.WellMade := by
  have hdistinct := distinctNames_trees h
  simpa [Expr.outline, Outline.WellMade, Outline.parts] using hdistinct

/-- A clause shows as many patterns as it has. -/
theorem Clause.length_patterns (clause : Clause) :
    (clause.outline.parts "patterns").length = clause.patterns.length := by
  obtain ⟨patterns, body, span⟩ := clause
  have hlength : (trees patterns).length = patterns.length := by
    rw [trees_eq_map fun _ => rfl, List.length_map]
  simpa [Clause.outline, Outline.parts] using hlength

theorem Expr.wellMade_cases {scrutinees : List Expr} {clauses : List Clause} {span : Span}
    (hscrutinees : scrutinees ≠ [])
    (hclauses : ∀ clause ∈ clauses, clause.patterns.length = scrutinees.length) :
    (Expr.cases scrutinees clauses span).outline.WellMade := by
  have hne := trees_ne_nil (fun _ => rfl) hscrutinees
  have harity : ∀ tree ∈ trees clauses,
      (tree.parts "patterns").length = (trees scrutinees).length := by
    rw [trees_eq_map fun _ => rfl, trees_eq_map fun _ => rfl, List.length_map]
    intro tree hmem
    obtain ⟨clause, hclause, rfl⟩ := List.mem_map.1 hmem
    rw [clause.length_patterns, hclauses clause hclause]
  refine ⟨?_, ?_⟩
  · simpa [Expr.outline, Outline.parts] using hne
  · simpa [Expr.outline, Outline.parts] using harity

theorem Expr.wellMade_lambda {clauses : List Clause} {span : Span} (hne : clauses ≠ [])
    (hpatterns : ∀ clause ∈ clauses, clause.patterns ≠ []) :
    (Expr.lambda clauses span).outline.WellMade := by
  have hclauses := trees_ne_nil (fun _ => rfl) hne
  have hall : ∀ tree ∈ trees clauses, tree.parts "patterns" ≠ [] := by
    rw [trees_eq_map fun _ => rfl]
    intro tree hmem hnil
    obtain ⟨clause, hclause, rfl⟩ := List.mem_map.1 hmem
    have hlength := clause.length_patterns
    rw [hnil] at hlength
    exact hpatterns clause hclause (List.length_eq_zero_iff.1 hlength.symm)
  refine ⟨?_, ?_⟩
  · simpa [Expr.outline, Outline.parts] using hclauses
  · simpa [Expr.outline, Outline.parts] using hall

theorem Expr.wellMade_handler {clauses : List HandlerClause} {span : Span}
    {name continuation : String} {arguments : List Pattern} {body : Expr} {place : Span}
    (h : .operation name arguments continuation body place ∈ clauses) :
    (Expr.handler clauses span).outline.WellMade := by
  have hclause : ∃ tree ∈ trees clauses, tree.kind = "OperationClause" :=
    ⟨_, mem_trees.2 ⟨_, h, List.mem_singleton.2 rfl⟩, rfl⟩
  simpa [Expr.outline, Outline.WellMade, Outline.parts] using hclause

theorem HandlerClause.wellMade_returning {binder : Pattern} {body : Expr} {span : Span}
    (h : binder.isBinder = true) :
    (HandlerClause.returning binder body span).outline.WellMade := by
  have hkind : binder.outline.kind = "BindingPattern" ∨ binder.outline.kind = "WildcardPattern" := by
    cases binder with
    | wildcard => exact Or.inr rfl
    | binding => exact Or.inl rfl
    | _ => cases h
  simpa [HandlerClause.outline, Outline.WellMade, Outline.parts] using hkind

theorem Expr.wellMade_block {statements : List Item} {result : Expr} {span : Span}
    (h : Merged Item.definition? Item.ofDefinition statements) :
    (Expr.block statements result span).outline.WellMade := by
  simpa [Expr.outline, Outline.WellMade, Outline.parts] using Item.unmerged h

theorem Declaration.wellMade_typeClass {name parameter : String} {superclasses : List Constraint}
    {members : List ClassMember} {span : Span}
    (h : Merged ClassMember.definition? ClassMember.definition members) :
    (Declaration.typeClass name parameter superclasses members span).outline.WellMade := by
  simpa [Declaration.outline, Outline.WellMade, Outline.parts] using ClassMember.unmerged h

theorem Declaration.wellMade_classInstance {className : String} {head : TypeExpr}
    {context : List Constraint} {members : List TermDef} {span : Span}
    (h : Merged some id members) :
    (Declaration.classInstance className head context members span).outline.WellMade := by
  simpa [Declaration.outline, Outline.WellMade, Outline.parts] using TermDef.unmerged h

/-! ### Repeated fields -/

theorem Parser.nodup_of_repeatedFields {seen : List String} {fields : List FieldAssign}
    (h : repeatedFields seen fields = []) :
    (fields.map FieldAssign.name).Nodup ∧ ∀ field ∈ fields, field.name ∉ seen := by
  induction fields generalizing seen with
  | nil => simp
  | cons field rest ih =>
    rw [repeatedFields] at h
    split at h
    · cases h
    · next hseen =>
      obtain ⟨hnodup, hrest⟩ := ih h
      have hfield : field.name ∉ seen := by simpa using hseen
      refine ⟨?_, ?_⟩
      · rw [List.map_cons, List.nodup_cons]
        refine ⟨fun hmem => ?_, hnodup⟩
        obtain ⟨other, hother, hname⟩ := List.mem_map.1 hmem
        exact hrest other hother (hname ▸ List.mem_cons_self)
      · intro other hmem
        rcases List.mem_cons.1 hmem with rfl | hmem
        · exact hfield
        · exact fun hold => hrest other hmem (List.mem_cons_of_mem _ hold)

end SableFrontend
