import SableFrontend.Proofs.Tree.ListingRow
import SableFrontend.Tree.Outlines

/-!
Shapes of nodes. The kind of a node says which fields it has, in which order, and what each of them
may hold; the outline of every tree keeps to that.
-/

namespace SableFrontend

/-- What the value of a field can be. -/
inductive PartSort where
  | flag
  | text
  | integer
  | float
  | attachment
  | node
  | nodes
  | texts
  deriving DecidableEq, Repr

/-- A field of a kind of nodes; an optional one may be absent. -/
structure FieldShape where
  name : String
  sort : PartSort
  optional : Bool
  deriving DecidableEq, Repr

/-- A field that is always there. -/
def FieldShape.always (name : String) (sort : PartSort) : FieldShape :=
  { name := name, sort := sort, optional := false }

/-- A field that may be absent. -/
def FieldShape.maybe (name : String) (sort : PartSort) : FieldShape :=
  { name := name, sort := sort, optional := true }

section

variable (name : String) (sort : PartSort)

@[simp] theorem FieldShape.always_name : (always name sort).name = name := rfl
@[simp] theorem FieldShape.always_sort : (always name sort).sort = sort := rfl
@[simp] theorem FieldShape.maybe_name : (maybe name sort).name = name := rfl
@[simp] theorem FieldShape.maybe_sort : (maybe name sort).sort = sort := rfl
@[simp] theorem FieldShape.maybe_optional : (maybe name sort).optional = true := rfl

end

/-- The kinds of nodes with their fields. -/
def nodeShapes : List (String × List FieldShape) := [
  ("TypeVar", [.always "name" .text]),
  ("TypeCon", [.always "name" .text]),
  ("TypeApp", [.always "fn" .node, .always "arg" .node]),
  ("ArrowType", [.always "param" .node, .always "result" .node]),
  ("TupleType", [.always "elements" .nodes]),
  ("EffectType", [.always "effects" .nodes, .maybe "row" .node, .maybe "result" .node]),
  ("QualifiedType", [.always "constraints" .nodes, .always "body" .node]),
  ("Constraint", [.always "class_name" .text, .always "args" .nodes]),
  ("IntegerLit", [.always "value" .integer]),
  ("FloatLit", [.always "value" .float]),
  ("StringLit", [.always "value" .text]),
  ("CharLit", [.always "value" .text]),
  ("WildcardPattern", []),
  ("BindingPattern", [.always "name" .text]),
  ("LiteralPattern", [.always "literal" .node]),
  ("ConstructorPattern",
    [.always "name" .text, .always "args" .nodes, .maybe "fields" .nodes]),
  ("ListConsPattern", [.always "head" .node, .always "tail" .node]),
  ("ListPattern", [.always "elements" .nodes]),
  ("TuplePattern", [.always "elements" .nodes]),
  ("FieldPattern", [.always "name" .text, .maybe "pattern" .node]),
  ("OperationSpec", [.always "name" .text, .always "type_expr" .node]),
  ("Signature", [.always "name" .text, .always "type_expr" .node]),
  ("TypeAnnotation",
    [.always "name" .text, .always "type_expr" .node, .always "attachment" .attachment]),
  ("IdentifierExpr", [.always "name" .text]),
  ("ConstructorExpr", [.always "name" .text]),
  ("ApplyExpr", [.always "fn" .node, .always "arg" .node]),
  ("BinaryExpr", [.always "left" .node, .always "op" .text, .always "right" .node]),
  ("UnaryExpr", [.always "op" .text, .always "operand" .node]),
  ("IfExpr", [.always "branches" .nodes, .maybe "else_branch" .node]),
  ("BlockExpr", [.always "statements" .nodes, .always "result" .node]),
  ("CaseExpr", [.always "scrutinees" .nodes, .always "clauses" .nodes]),
  ("LambdaExpr", [.always "clauses" .nodes]),
  ("HandlerExpr", [.always "clauses" .nodes]),
  ("ListLiteral", [.always "elements" .nodes]),
  ("ListConsExpr", [.always "head" .node, .always "tail" .node]),
  ("ListComprehension", [.always "clauses" .nodes, .always "body" .node]),
  ("TupleExpr", [.always "elements" .nodes]),
  ("RecordExpr",
    [.always "constructor" .text, .always "args" .nodes, .always "fields" .nodes]),
  ("RecordUpdateExpr", [.always "target" .node, .always "fields" .nodes]),
  ("RecordUpdateLambda", [.always "fields" .nodes]),
  ("FieldExpr", [.always "target" .node, .always "name" .text]),
  ("AccessorLambda", [.always "path" .texts]),
  ("SectionExpr", [.always "op" .text, .maybe "left" .node, .maybe "right" .node]),
  ("GuardedBranch", [.always "condition" .node, .always "body" .node]),
  ("Clause", [.always "patterns" .nodes, .always "body" .node]),
  ("ReturnClause", [.always "binder" .node, .always "body" .node]),
  ("OperationClause",
    [.always "operation" .text, .always "args" .nodes, .always "continuation" .text,
      .always "body" .node]),
  ("Generator", [.always "pattern" .node, .always "source" .node]),
  ("Filter", [.always "condition" .node]),
  ("FieldAssign", [.always "name" .text, .maybe "value" .node]),
  ("TermDef", [.always "name" .text, .always "clauses" .nodes]),
  ("FieldSpec",
    [.always "name" .text, .always "type_expr" .node, .maybe "default" .node]),
  ("ConstructorSpec",
    [.always "name" .text, .always "positional" .nodes, .maybe "named" .nodes,
      .always "implicit" .flag]),
  ("DataDef",
    [.always "name" .text, .always "params" .texts, .always "constructors" .nodes]),
  ("EffectDef",
    [.always "name" .text, .always "params" .texts, .always "operations" .nodes]),
  ("TypeClassDef",
    [.always "name" .text, .always "param" .text, .always "superclasses" .nodes,
      .always "members" .nodes]),
  ("InstanceDef",
    [.always "class_name" .text, .always "head" .node, .always "context" .nodes,
      .always "members" .nodes]),
  ("BindStmt", [.always "pattern" .node, .always "value" .node]),
  ("ExprStmt", [.always "expr" .node]),
  ("Module", [.maybe "name" .text, .always "declarations" .nodes])]

/-- The names of kinds and fields are as they should be, and no kind has two fields of one name. -/
theorem nodeShapes_names {kind : String} {shapes : List FieldShape}
    (h : nodeShapes.lookup kind = some shapes) :
    Text.isLabel kind = true ∧ (∀ shape ∈ shapes, Text.isLabel shape.name = true) ∧
      (shapes.map FieldShape.name).Nodup := by
  have hall : (nodeShapes.all fun entry => Text.isLabel entry.1 &&
      entry.2.all (Text.isLabel ·.name) && decide (entry.2.map FieldShape.name).Nodup) = true := by
    decide +kernel
  obtain ⟨front, back, hentries, -⟩ := List.lookup_eq_some_iff.1 h
  have hentry := List.all_eq_true.1 hall (kind, shapes) (by simp [hentries])
  simpa [and_assoc] using hentry

/-! ### Outlines that keep to the shapes -/

mutual

/-- A node has the fields of its kind, and so have all nodes in it. -/
def Outline.Shaped : Outline → Prop
  | { kind := kind, fields := fields, .. } =>
    ∃ shapes, nodeShapes.lookup kind = some shapes ∧ FieldsShaped shapes fields

/-- Field by field. -/
def FieldsShaped : List FieldShape → List OutlineField → Prop
  | [], [] => True
  | shape :: shapes, field :: rest => field.Shaped shape ∧ FieldsShaped shapes rest
  | _, _ => False

/-- A field has its name, and what it may hold. -/
def OutlineField.Shaped (shape : FieldShape) : OutlineField → Prop
  | { name := name, value := value } => name = shape.name ∧ value.Shaped shape

/-- A value is of the sort that it should be of. -/
def OutlineValue.Shaped (shape : FieldShape) : OutlineValue → Prop
  | .absent => shape.optional = true
  | .flag _ => shape.sort = .flag
  | .text _ => shape.sort = .text
  | .integer _ => shape.sort = .integer
  | .float _ => shape.sort = .float
  | .attachment _ => shape.sort = .attachment
  | .texts _ => shape.sort = .texts
  | .node value => shape.sort = .node ∧ value.Shaped
  | .nodes values => shape.sort = .nodes ∧ NodesShaped values

/-- Node by node. -/
def NodesShaped : List Outline → Prop
  | [] => True
  | node :: rest => node.Shaped ∧ NodesShaped rest

end

attribute [simp] FieldsShaped OutlineField.Shaped OutlineValue.Shaped NodesShaped

theorem Outline.shaped_mk {kind : String} {fields : List OutlineField} {span : Span} :
    Outline.Shaped ⟨kind, fields, span⟩ ↔
      ∃ shapes, nodeShapes.lookup kind = some shapes ∧ FieldsShaped shapes fields := by
  rw [Outline.Shaped]

theorem nodesShaped_map {α : Type} {outline : α → Outline} (h : ∀ value, (outline value).Shaped)
    (values : List α) : NodesShaped (values.map outline) := by
  induction values with
  | nil => simp
  | cons value rest ih => simp [h value, ih]

namespace OutlineField

variable {shape : FieldShape} {name : String}

@[simp] theorem shaped_ofText {value : String} :
    (ofText name value).Shaped shape ↔ name = shape.name ∧ shape.sort = .text := by
  simp [ofText]

@[simp] theorem shaped_ofText? {value : Option String} :
    (ofText? name value).Shaped (.maybe name .text) := by
  cases value <;> simp [ofText?]

@[simp] theorem shaped_ofTexts {values : List String} :
    (ofTexts name values).Shaped shape ↔ name = shape.name ∧ shape.sort = .texts := by
  simp [ofTexts]

@[simp] theorem shaped_ofNode {value : Outline} :
    (ofNode name value).Shaped shape ↔ name = shape.name ∧ shape.sort = .node ∧ value.Shaped := by
  simp [ofNode]

theorem shaped_ofNode? {value : Option Outline} (h : ∀ node ∈ value, node.Shaped) :
    (ofNode? name value).Shaped (.maybe name .node) := by
  cases value with
  | none => simp [ofNode?]
  | some node => simpa [ofNode?] using h node rfl

theorem shaped_ofNodes? {values : Option (List Outline)} (h : ∀ nodes ∈ values, NodesShaped nodes) :
    (ofNodes? name values).Shaped (.maybe name .nodes) := by
  cases values with
  | none => simp [ofNodes?]
  | some nodes => simpa [ofNodes?] using h nodes rfl

@[simp] theorem shaped_ofNodes {values : List Outline} :
    (ofNodes name values).Shaped shape ↔
      name = shape.name ∧ shape.sort = .nodes ∧ NodesShaped values := by
  simp [ofNodes]

end OutlineField

open OutlineField (shaped_ofNode? shaped_ofNodes?)

/-! ### Types and patterns -/

theorem RowVariable.shaped (row : RowVariable) : row.outline.Shaped :=
  Outline.shaped_mk.2 ⟨_, rfl, by simp⟩

mutual

theorem TypeExpr.shaped (type : TypeExpr) : type.outline.Shaped := by
  match type with
  | .var _ _ | .con _ _ => exact Outline.shaped_mk.2 ⟨_, rfl, by simp⟩
  | .app first second _ | .arrow first second _ =>
    exact Outline.shaped_mk.2 ⟨_, rfl, by simp [first.shaped, second.shaped]⟩
  | .tuple elements _ => exact Outline.shaped_mk.2 ⟨_, rfl, by simp [typesShaped elements]⟩
  | .effectful effects row result _ =>
    have hrow : ∀ node ∈ row.map RowVariable.outline, node.Shaped := by
      simp [RowVariable.shaped]
    exact Outline.shaped_mk.2 ⟨_, rfl, by
      simp [typesShaped effects, shaped_ofNode? hrow, shaped_ofNode? (typeShaped? result)]⟩
  | .qualified constraints body _ =>
    exact Outline.shaped_mk.2 ⟨_, rfl, by simp [constraintsShaped constraints, body.shaped]⟩

theorem typesShaped (types : List TypeExpr) : NodesShaped (typeOutlines types) := by
  match types with
  | [] => simp [typeOutlines]
  | type :: rest => simp [typeOutlines, type.shaped, typesShaped rest]

theorem typeShaped? (type : Option TypeExpr) : ∀ node ∈ typeOutline? type, node.Shaped := by
  match type with
  | none => simp [typeOutline?]
  | some type => simp [typeOutline?, type.shaped]

theorem Constraint.shaped (constraint : Constraint) : constraint.outline.Shaped := by
  match constraint with
  | { className := _, arguments := arguments, span := _ } =>
    exact Outline.shaped_mk.2 ⟨_, rfl, by simp [typesShaped arguments]⟩

theorem constraintsShaped (constraints : List Constraint) :
    NodesShaped (constraintOutlines constraints) := by
  match constraints with
  | [] => simp [constraintOutlines]
  | constraint :: rest =>
    simp [constraintOutlines, constraint.shaped, constraintsShaped rest]

end

theorem Literal.shaped (literal : Literal) : literal.outline.Shaped := by
  cases literal <;> exact Outline.shaped_mk.2 ⟨_, rfl, by simp⟩

mutual

theorem Pattern.shaped (pattern : Pattern) : pattern.outline.Shaped := by
  match pattern with
  | .wildcard _ | .binding _ _ => exact Outline.shaped_mk.2 ⟨_, rfl, by simp⟩
  | .literal value _ => exact Outline.shaped_mk.2 ⟨_, rfl, by simp [value.shaped]⟩
  | .constructor _ arguments fields _ =>
    exact Outline.shaped_mk.2 ⟨_, rfl, by
      simp [patternsShaped arguments, shaped_ofNodes? (fieldPatternsShaped? fields)]⟩
  | .listCons head tail _ =>
    exact Outline.shaped_mk.2 ⟨_, rfl, by simp [head.shaped, tail.shaped]⟩
  | .list elements _ | .tuple elements _ =>
    exact Outline.shaped_mk.2 ⟨_, rfl, by simp [patternsShaped elements]⟩

theorem patternsShaped (patterns : List Pattern) : NodesShaped (patternOutlines patterns) := by
  match patterns with
  | [] => simp [patternOutlines]
  | pattern :: rest => simp [patternOutlines, pattern.shaped, patternsShaped rest]

theorem patternShaped? (pattern : Option Pattern) :
    ∀ node ∈ patternOutline? pattern, node.Shaped := by
  match pattern with
  | none => simp [patternOutline?]
  | some pattern => simp [patternOutline?, pattern.shaped]

theorem FieldPattern.shaped (field : FieldPattern) : field.outline.Shaped := by
  match field with
  | { name := _, pattern := pattern, span := _ } =>
    exact Outline.shaped_mk.2 ⟨_, rfl, by simp [shaped_ofNode? (patternShaped? pattern)]⟩

theorem fieldPatternsShaped (fields : List FieldPattern) :
    NodesShaped (fieldPatternOutlines fields) := by
  match fields with
  | [] => simp [fieldPatternOutlines]
  | field :: rest => simp [fieldPatternOutlines, field.shaped, fieldPatternsShaped rest]

theorem fieldPatternsShaped? (fields : Option (List FieldPattern)) :
    ∀ nodes ∈ fieldPatternOutlines? fields, NodesShaped nodes := by
  match fields with
  | none => simp [fieldPatternOutlines?]
  | some fields => simp [fieldPatternOutlines?, fieldPatternsShaped fields]

end

/-! ### Expressions and declarations -/

theorem OperationSpec.shaped (operation : OperationSpec) : operation.outline.Shaped :=
  Outline.shaped_mk.2 ⟨_, rfl, by simp [TypeExpr.shaped]⟩

theorem Signature.shaped (signature : Signature) : signature.outline.Shaped :=
  Outline.shaped_mk.2 ⟨_, rfl, by simp [TypeExpr.shaped]⟩

theorem Ascription.shaped (ascription : Ascription) : ascription.outline.Shaped :=
  Outline.shaped_mk.2 ⟨_, rfl, by simp [TypeExpr.shaped]⟩

mutual

theorem Expr.shaped (expr : Expr) : expr.outline.Shaped := by
  match expr with
  | .literal value => exact value.shaped
  | .identifier _ _ | .constructor _ _ | .accessor _ _ => exact Outline.shaped_mk.2 ⟨_, rfl, by simp⟩
  | .apply first second _ | .binary first _ second _ | .listCons first second _ =>
    exact Outline.shaped_mk.2 ⟨_, rfl, by simp [first.shaped, second.shaped]⟩
  | .unary _ inner _ | .field inner _ _ =>
    exact Outline.shaped_mk.2 ⟨_, rfl, by simp [inner.shaped]⟩
  | .conditional branches otherwise _ =>
    exact Outline.shaped_mk.2 ⟨_, rfl, by
      simp [branchesShaped branches, shaped_ofNode? (exprShaped? otherwise)]⟩
  | .block statements result _ =>
    exact Outline.shaped_mk.2 ⟨_, rfl, by simp [itemsShaped statements, result.shaped]⟩
  | .cases scrutinees clauses _ =>
    exact Outline.shaped_mk.2 ⟨_, rfl, by simp [exprsShaped scrutinees, clausesShaped clauses]⟩
  | .lambda clauses _ => exact Outline.shaped_mk.2 ⟨_, rfl, by simp [clausesShaped clauses]⟩
  | .handler clauses _ =>
    exact Outline.shaped_mk.2 ⟨_, rfl, by simp [handlerClausesShaped clauses]⟩
  | .list elements _ | .tuple elements _ =>
    exact Outline.shaped_mk.2 ⟨_, rfl, by simp [exprsShaped elements]⟩
  | .comprehension clauses body _ =>
    exact Outline.shaped_mk.2 ⟨_, rfl, by
      simp [comprehensionClausesShaped clauses, body.shaped]⟩
  | .record _ arguments fields _ =>
    exact Outline.shaped_mk.2 ⟨_, rfl, by simp [exprsShaped arguments, fieldAssignsShaped fields]⟩
  | .recordUpdate target fields _ =>
    exact Outline.shaped_mk.2 ⟨_, rfl, by simp [target.shaped, fieldAssignsShaped fields]⟩
  | .recordUpdateLambda fields _ =>
    exact Outline.shaped_mk.2 ⟨_, rfl, by simp [fieldAssignsShaped fields]⟩
  | .operatorSection _ left right _ =>
    exact Outline.shaped_mk.2 ⟨_, rfl, by
      simp [shaped_ofNode? (exprShaped? left), shaped_ofNode? (exprShaped? right)]⟩

theorem exprsShaped (exprs : List Expr) : NodesShaped (exprOutlines exprs) := by
  match exprs with
  | [] => simp [exprOutlines]
  | expr :: rest => simp [exprOutlines, expr.shaped, exprsShaped rest]

theorem exprShaped? (expr : Option Expr) : ∀ node ∈ exprOutline? expr, node.Shaped := by
  match expr with
  | none => simp [exprOutline?]
  | some expr => simp [exprOutline?, expr.shaped]

theorem GuardedBranch.shaped (branch : GuardedBranch) : branch.outline.Shaped := by
  match branch with
  | { condition := condition, body := body, span := _ } =>
    exact Outline.shaped_mk.2 ⟨_, rfl, by simp [condition.shaped, body.shaped]⟩

theorem branchesShaped (branches : List GuardedBranch) : NodesShaped (branchOutlines branches) := by
  match branches with
  | [] => simp [branchOutlines]
  | branch :: rest => simp [branchOutlines, branch.shaped, branchesShaped rest]

theorem Clause.shaped (clause : Clause) : clause.outline.Shaped := by
  match clause with
  | { patterns := patterns, body := body, span := _ } =>
    exact Outline.shaped_mk.2 ⟨_, rfl, by simp [patternsShaped patterns, body.shaped]⟩

theorem clausesShaped (clauses : List Clause) : NodesShaped (clauseOutlines clauses) := by
  match clauses with
  | [] => simp [clauseOutlines]
  | clause :: rest => simp [clauseOutlines, clause.shaped, clausesShaped rest]

theorem HandlerClause.shaped (clause : HandlerClause) : clause.outline.Shaped := by
  match clause with
  | .returning binder body _ =>
    exact Outline.shaped_mk.2 ⟨_, rfl, by simp [binder.shaped, body.shaped]⟩
  | .operation _ arguments _ body _ =>
    exact Outline.shaped_mk.2 ⟨_, rfl, by simp [patternsShaped arguments, body.shaped]⟩

theorem handlerClausesShaped (clauses : List HandlerClause) :
    NodesShaped (handlerClauseOutlines clauses) := by
  match clauses with
  | [] => simp [handlerClauseOutlines]
  | clause :: rest => simp [handlerClauseOutlines, clause.shaped, handlerClausesShaped rest]

theorem ComprehensionClause.shaped (clause : ComprehensionClause) : clause.outline.Shaped := by
  match clause with
  | .generator pattern source _ =>
    exact Outline.shaped_mk.2 ⟨_, rfl, by simp [pattern.shaped, source.shaped]⟩
  | .filter condition _ => exact Outline.shaped_mk.2 ⟨_, rfl, by simp [condition.shaped]⟩

theorem comprehensionClausesShaped (clauses : List ComprehensionClause) :
    NodesShaped (comprehensionClauseOutlines clauses) := by
  match clauses with
  | [] => simp [comprehensionClauseOutlines]
  | clause :: rest =>
    simp [comprehensionClauseOutlines, clause.shaped, comprehensionClausesShaped rest]

theorem FieldAssign.shaped (field : FieldAssign) : field.outline.Shaped := by
  match field with
  | { name := _, value := value, span := _ } =>
    exact Outline.shaped_mk.2 ⟨_, rfl, by simp [shaped_ofNode? (exprShaped? value)]⟩

theorem fieldAssignsShaped (fields : List FieldAssign) :
    NodesShaped (fieldAssignOutlines fields) := by
  match fields with
  | [] => simp [fieldAssignOutlines]
  | field :: rest => simp [fieldAssignOutlines, field.shaped, fieldAssignsShaped rest]

theorem TermDef.shaped (definition : TermDef) : definition.outline.Shaped := by
  match definition with
  | { name := _, clauses := clauses, span := _ } =>
    exact Outline.shaped_mk.2 ⟨_, rfl, by simp [clausesShaped clauses]⟩

theorem termDefsShaped (definitions : List TermDef) : NodesShaped (termDefOutlines definitions) := by
  match definitions with
  | [] => simp [termDefOutlines]
  | definition :: rest => simp [termDefOutlines, definition.shaped, termDefsShaped rest]

theorem FieldSpec.shaped (field : FieldSpec) : field.outline.Shaped := by
  match field with
  | { name := _, typeExpr := typeExpr, defaultValue := value, span := _ } =>
    exact Outline.shaped_mk.2 ⟨_, rfl, by
      simp [typeExpr.shaped, shaped_ofNode? (exprShaped? value)]⟩

theorem fieldSpecsShaped (fields : List FieldSpec) : NodesShaped (fieldSpecOutlines fields) := by
  match fields with
  | [] => simp [fieldSpecOutlines]
  | field :: rest => simp [fieldSpecOutlines, field.shaped, fieldSpecsShaped rest]

theorem fieldSpecsShaped? (fields : Option (List FieldSpec)) :
    ∀ nodes ∈ fieldSpecOutlines? fields, NodesShaped nodes := by
  match fields with
  | none => simp [fieldSpecOutlines?]
  | some fields => simp [fieldSpecOutlines?, fieldSpecsShaped fields]

theorem ConstructorSpec.shaped (constructor : ConstructorSpec) : constructor.outline.Shaped := by
  match constructor with
  | { name := _, positional := positional, named := named, implicit := _, span := _ } =>
    exact Outline.shaped_mk.2 ⟨_, rfl, by
      simp [typesShaped positional, shaped_ofNodes? (fieldSpecsShaped? named)]⟩

theorem constructorSpecsShaped (constructors : List ConstructorSpec) :
    NodesShaped (constructorSpecOutlines constructors) := by
  match constructors with
  | [] => simp [constructorSpecOutlines]
  | constructor :: rest =>
    simp [constructorSpecOutlines, constructor.shaped, constructorSpecsShaped rest]

theorem ClassMember.shaped (member : ClassMember) : member.outline.Shaped := by
  match member with
  | .signature signature => exact signature.shaped
  | .definition definition => exact definition.shaped

theorem classMembersShaped (members : List ClassMember) :
    NodesShaped (classMemberOutlines members) := by
  match members with
  | [] => simp [classMemberOutlines]
  | member :: rest => simp [classMemberOutlines, member.shaped, classMembersShaped rest]

theorem Declaration.shaped (declaration : Declaration) : declaration.outline.Shaped := by
  match declaration with
  | .definition definition => exact definition.shaped
  | .ascription ascription => exact ascription.shaped
  | .data _ _ constructors _ =>
    exact Outline.shaped_mk.2 ⟨_, rfl, by simp [constructorSpecsShaped constructors]⟩
  | .effect _ _ operations _ =>
    exact Outline.shaped_mk.2 ⟨_, rfl, by
      simp [nodesShaped_map OperationSpec.shaped operations]⟩
  | .typeClass _ _ superclasses members _ =>
    exact Outline.shaped_mk.2 ⟨_, rfl, by
      simp [constraintsShaped superclasses, classMembersShaped members]⟩
  | .classInstance _ head context members _ =>
    exact Outline.shaped_mk.2 ⟨_, rfl, by
      simp [head.shaped, constraintsShaped context, termDefsShaped members]⟩

theorem Item.shaped (item : Item) : item.outline.Shaped := by
  match item with
  | .declaration declaration => exact declaration.shaped
  | .bind pattern value _ =>
    exact Outline.shaped_mk.2 ⟨_, rfl, by simp [pattern.shaped, value.shaped]⟩
  | .expression value _ => exact Outline.shaped_mk.2 ⟨_, rfl, by simp [value.shaped]⟩

theorem itemsShaped (items : List Item) : NodesShaped (itemOutlines items) := by
  match items with
  | [] => simp [itemOutlines]
  | item :: rest => simp [itemOutlines, item.shaped, itemsShaped rest]

end

/-- The outline of a module keeps to the shapes. -/
theorem Module.shaped (source : Module) : source.outline.Shaped :=
  Outline.shaped_mk.2 ⟨_, rfl, by simp [nodesShaped_map Declaration.shaped]⟩

end SableFrontend
