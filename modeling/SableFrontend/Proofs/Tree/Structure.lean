import SableFrontend.Proofs.Tree.Lawful

/-!
Structure without places. Moving the places of a tree moves those of its outline, and two outlines
that are the same once their places are moved have the same structure.
-/

namespace SableFrontend

variable (r : Relocation)

/-! ### Outlines -/

mutual

def Outline.relocate : Outline → Outline
  | { kind := kind, fields := fields, span := span } =>
    { kind := kind, fields := relocateFields fields, span := span.relocate r }

def relocateFields : List OutlineField → List OutlineField
  | [] => []
  | field :: rest => field.relocate :: relocateFields rest

def OutlineField.relocate : OutlineField → OutlineField
  | { name := name, value := value } => { name := name, value := value.relocate }

def OutlineValue.relocate : OutlineValue → OutlineValue
  | .node value => .node value.relocate
  | .nodes values => .nodes (relocateNodes values)
  | .absent => .absent
  | .flag value => .flag value
  | .text value => .text value
  | .integer value => .integer value
  | .float value => .float value
  | .attachment value => .attachment value
  | .texts values => .texts values

def relocateNodes : List Outline → List Outline
  | [] => []
  | node :: rest => node.relocate :: relocateNodes rest

end

variable {r} {r' : Relocation}

mutual

/-- Only the places of two outlines that can be moved to be the same tell them apart. -/
theorem Outline.sameStructure_of_relocate_eq (a b : Outline) (h : a.relocate r = b.relocate r') :
    a.sameStructure b = true := by
  match a, b with
  | { kind := kind, fields := fields, span := span },
    { kind := kind', fields := fields', span := span' } =>
    simp only [Outline.relocate, Outline.mk.injEq] at h
    simp [Outline.sameStructure, h.1, sameFields_of_relocate_eq fields fields' h.2.1]
termination_by structural a

theorem sameFields_of_relocate_eq (a b : List OutlineField)
    (h : relocateFields r a = relocateFields r' b) : sameFields a b = true := by
  match a, b with
  | [], [] => simp [sameFields]
  | [], _ :: _ => simp [relocateFields] at h
  | _ :: _, [] => simp [relocateFields] at h
  | field :: rest, other :: others =>
    simp only [relocateFields, List.cons.injEq] at h
    simp [sameFields, OutlineField.sameField_of_relocate_eq field other h.1,
      sameFields_of_relocate_eq rest others h.2]
termination_by structural a

theorem OutlineField.sameField_of_relocate_eq (a b : OutlineField)
    (h : a.relocate r = b.relocate r') : a.sameField b = true := by
  match a, b with
  | { name := name, value := value }, { name := name', value := value' } =>
    simp only [OutlineField.relocate, OutlineField.mk.injEq] at h
    simp [OutlineField.sameField, h.1, OutlineValue.sameValue_of_relocate_eq value value' h.2]
termination_by structural a

theorem OutlineValue.sameValue_of_relocate_eq (a b : OutlineValue)
    (h : a.relocate r = b.relocate r') : a.sameValue b = true := by
  match a with
  | .node node =>
    cases b with
    | node other =>
      simp only [OutlineValue.relocate, OutlineValue.node.injEq] at h
      simp [OutlineValue.sameValue, Outline.sameStructure_of_relocate_eq node other h]
    | _ => simp [OutlineValue.relocate] at h
  | .nodes nodes =>
    cases b with
    | nodes others =>
      simp only [OutlineValue.relocate, OutlineValue.nodes.injEq] at h
      simp [OutlineValue.sameValue, sameNodes_of_relocate_eq nodes others h]
    | _ => simp [OutlineValue.relocate] at h
  | .absent | .flag _ | .text _ | .integer _ | .float _ | .attachment _ | .texts _ =>
    cases b <;> simp_all [OutlineValue.relocate, OutlineValue.sameValue]
termination_by structural a

theorem sameNodes_of_relocate_eq (a b : List Outline)
    (h : relocateNodes r a = relocateNodes r' b) : sameNodes a b = true := by
  match a, b with
  | [], [] => simp [sameNodes]
  | [], _ :: _ => simp [relocateNodes] at h
  | _ :: _, [] => simp [relocateNodes] at h
  | node :: rest, other :: others =>
    simp only [relocateNodes, List.cons.injEq] at h
    simp [sameNodes, Outline.sameStructure_of_relocate_eq node other h.1,
      sameNodes_of_relocate_eq rest others h.2]
termination_by structural a

end

/-! ### Fields -/

attribute [simp] Outline.relocate relocateFields relocateNodes OutlineField.relocate
  OutlineValue.relocate

namespace OutlineField

@[simp] theorem relocate_ofText (name value : String) :
    (ofText name value).relocate r = ofText name value := by
  simp [ofText]

@[simp] theorem relocate_ofText? (name : String) (value : Option String) :
    (ofText? name value).relocate r = ofText? name value := by
  cases value <;> simp [ofText?]

@[simp] theorem relocate_ofTexts (name : String) (values : List String) :
    (ofTexts name values).relocate r = ofTexts name values := by
  simp [ofTexts]

@[simp] theorem relocate_ofNode (name : String) (value : Outline) :
    (ofNode name value).relocate r = ofNode name (value.relocate r) := by
  simp [ofNode]

@[simp] theorem relocate_ofNode? (name : String) (value : Option Outline) :
    (ofNode? name value).relocate r = ofNode? name (value.map (Outline.relocate r)) := by
  cases value <;> simp [ofNode?]

@[simp] theorem relocate_ofNodes (name : String) (values : List Outline) :
    (ofNodes name values).relocate r = ofNodes name (relocateNodes r values) := by
  simp [ofNodes]

@[simp] theorem relocate_ofNodes? (name : String) (values : Option (List Outline)) :
    (ofNodes? name values).relocate r = ofNodes? name (values.map (relocateNodes r)) := by
  cases values <;> simp [ofNodes?]

end OutlineField

theorem relocateNodes_eq_map (nodes : List Outline) :
    relocateNodes r nodes = nodes.map (Outline.relocate r) := by
  induction nodes with
  | nil => simp
  | cons node rest ih => simp [ih]

/-! ### Types and patterns -/

@[simp] theorem RowVariable.outline_relocate (row : RowVariable) :
    (row.relocate r).outline = row.outline.relocate r := by
  simp [outline, RowVariable.relocate]

mutual

theorem TypeExpr.outline_relocate (type : TypeExpr) :
    (type.relocate r).outline = type.outline.relocate r := by
  match type with
  | .var _ _ | .con _ _ => simp [TypeExpr.outline]
  | .app first second _ | .arrow first second _ =>
    simp [TypeExpr.outline, first.outline_relocate, second.outline_relocate]
  | .tuple elements _ => simp [TypeExpr.outline, typeOutlines_relocate elements]
  | .effectful effects row result _ =>
    simp [TypeExpr.outline, typeOutlines_relocate effects, typeOutline?_relocate result,
      Function.comp_def]
  | .qualified constraints body _ =>
    simp [TypeExpr.outline, constraintOutlines_relocate constraints, body.outline_relocate]

theorem typeOutlines_relocate (types : List TypeExpr) :
    typeOutlines (types.map (TypeExpr.relocate r)) = relocateNodes r (typeOutlines types) := by
  match types with
  | [] => simp [typeOutlines]
  | type :: rest => simp [typeOutlines, type.outline_relocate, typeOutlines_relocate rest]

theorem typeOutline?_relocate (type : Option TypeExpr) :
    typeOutline? (type.map (TypeExpr.relocate r)) =
      (typeOutline? type).map (Outline.relocate r) := by
  match type with
  | none => simp [typeOutline?]
  | some type => simp [typeOutline?, type.outline_relocate]

theorem Constraint.outline_relocate (constraint : Constraint) :
    (constraint.relocate r).outline = constraint.outline.relocate r := by
  match constraint with
  | { className := _, arguments := arguments, span := _ } =>
    simp [Constraint.outline, typeOutlines_relocate arguments]

theorem constraintOutlines_relocate (constraints : List Constraint) :
    constraintOutlines (constraints.map (Constraint.relocate r)) =
      relocateNodes r (constraintOutlines constraints) := by
  match constraints with
  | [] => simp [constraintOutlines]
  | constraint :: rest =>
    simp [constraintOutlines, constraint.outline_relocate, constraintOutlines_relocate rest]

end

@[simp] theorem Literal.outline_relocate (literal : Literal) :
    (literal.relocate r).outline = literal.outline.relocate r := by
  cases literal <;> simp [outline, Literal.relocate]

mutual

theorem Pattern.outline_relocate (pattern : Pattern) :
    (pattern.relocate r).outline = pattern.outline.relocate r := by
  match pattern with
  | .wildcard _ | .binding _ _ | .literal _ _ => simp [Pattern.outline]
  | .constructor _ arguments fields _ =>
    simp [Pattern.outline, patternOutlines_relocate arguments, fieldPatternOutlines?_relocate fields]
  | .listCons head tail _ =>
    simp [Pattern.outline, head.outline_relocate, tail.outline_relocate]
  | .list elements _ | .tuple elements _ =>
    simp [Pattern.outline, patternOutlines_relocate elements]

theorem patternOutlines_relocate (patterns : List Pattern) :
    patternOutlines (patterns.map (Pattern.relocate r)) =
      relocateNodes r (patternOutlines patterns) := by
  match patterns with
  | [] => simp [patternOutlines]
  | pattern :: rest =>
    simp [patternOutlines, pattern.outline_relocate, patternOutlines_relocate rest]

theorem FieldPattern.outline_relocate (field : FieldPattern) :
    (field.relocate r).outline = field.outline.relocate r := by
  match field with
  | { name := _, pattern := none, span := _ } => simp [FieldPattern.outline, patternOutline?]
  | { name := _, pattern := some pattern, span := _ } =>
    simp [FieldPattern.outline, patternOutline?, pattern.outline_relocate]

theorem fieldPatternOutlines_relocate (fields : List FieldPattern) :
    fieldPatternOutlines (fields.map (FieldPattern.relocate r)) =
      relocateNodes r (fieldPatternOutlines fields) := by
  match fields with
  | [] => simp [fieldPatternOutlines]
  | field :: rest =>
    simp [fieldPatternOutlines, field.outline_relocate, fieldPatternOutlines_relocate rest]

theorem fieldPatternOutlines?_relocate (fields : Option (List FieldPattern)) :
    fieldPatternOutlines? (fields.map (List.map (FieldPattern.relocate r))) =
      (fieldPatternOutlines? fields).map (relocateNodes r) := by
  match fields with
  | none => simp [fieldPatternOutlines?]
  | some fields => simp [fieldPatternOutlines?, fieldPatternOutlines_relocate fields]

end

attribute [simp] TypeExpr.outline_relocate typeOutlines_relocate typeOutline?_relocate
  Constraint.outline_relocate constraintOutlines_relocate Pattern.outline_relocate
  patternOutlines_relocate

/-! ### Expressions and declarations -/

mutual

theorem Expr.outline_relocate (expr : Expr) :
    (expr.relocate r).outline = expr.outline.relocate r := by
  match expr with
  | .literal _ | .identifier _ _ | .constructor _ _ | .accessor _ _ => simp [Expr.outline]
  | .apply first second _ | .binary first _ second _ | .listCons first second _ =>
    simp [Expr.outline, first.outline_relocate, second.outline_relocate]
  | .unary _ inner _ | .field inner _ _ => simp [Expr.outline, inner.outline_relocate]
  | .conditional branches otherwise _ =>
    simp [Expr.outline, branchOutlines_relocate branches, exprOutline?_relocate otherwise]
  | .block statements result _ =>
    simp [Expr.outline, itemOutlines_relocate statements, result.outline_relocate]
  | .cases scrutinees clauses _ =>
    simp [Expr.outline, exprOutlines_relocate scrutinees, clauseOutlines_relocate clauses]
  | .lambda clauses _ => simp [Expr.outline, clauseOutlines_relocate clauses]
  | .handler clauses _ => simp [Expr.outline, handlerClauseOutlines_relocate clauses]
  | .list elements _ | .tuple elements _ =>
    simp [Expr.outline, exprOutlines_relocate elements]
  | .comprehension clauses body _ =>
    simp [Expr.outline, comprehensionClauseOutlines_relocate clauses, body.outline_relocate]
  | .record _ arguments fields _ =>
    simp [Expr.outline, exprOutlines_relocate arguments, fieldAssignOutlines_relocate fields]
  | .recordUpdate target fields _ =>
    simp [Expr.outline, target.outline_relocate, fieldAssignOutlines_relocate fields]
  | .recordUpdateLambda fields _ =>
    simp [Expr.outline, fieldAssignOutlines_relocate fields]
  | .operatorSection _ left right _ =>
    simp [Expr.outline, exprOutline?_relocate left, exprOutline?_relocate right]

theorem exprOutlines_relocate (exprs : List Expr) :
    exprOutlines (exprs.map (Expr.relocate r)) = relocateNodes r (exprOutlines exprs) := by
  match exprs with
  | [] => simp [exprOutlines]
  | expr :: rest => simp [exprOutlines, expr.outline_relocate, exprOutlines_relocate rest]

theorem exprOutline?_relocate (expr : Option Expr) :
    exprOutline? (expr.map (Expr.relocate r)) =
      (exprOutline? expr).map (Outline.relocate r) := by
  match expr with
  | none => simp [exprOutline?]
  | some expr => simp [exprOutline?, expr.outline_relocate]

theorem GuardedBranch.outline_relocate (branch : GuardedBranch) :
    (branch.relocate r).outline = branch.outline.relocate r := by
  match branch with
  | { condition := condition, body := body, span := _ } =>
    simp [GuardedBranch.outline, condition.outline_relocate, body.outline_relocate]

theorem branchOutlines_relocate (branches : List GuardedBranch) :
    branchOutlines (branches.map (GuardedBranch.relocate r)) =
      relocateNodes r (branchOutlines branches) := by
  match branches with
  | [] => simp [branchOutlines]
  | branch :: rest =>
    simp [branchOutlines, branch.outline_relocate, branchOutlines_relocate rest]

theorem Clause.outline_relocate (clause : Clause) :
    (clause.relocate r).outline = clause.outline.relocate r := by
  match clause with
  | { patterns := _, body := body, span := _ } => simp [Clause.outline, body.outline_relocate]

theorem clauseOutlines_relocate (clauses : List Clause) :
    clauseOutlines (clauses.map (Clause.relocate r)) =
      relocateNodes r (clauseOutlines clauses) := by
  match clauses with
  | [] => simp [clauseOutlines]
  | clause :: rest => simp [clauseOutlines, clause.outline_relocate, clauseOutlines_relocate rest]

theorem HandlerClause.outline_relocate (clause : HandlerClause) :
    (clause.relocate r).outline = clause.outline.relocate r := by
  match clause with
  | .returning _ body _ | .operation _ _ _ body _ =>
    simp [HandlerClause.outline, body.outline_relocate]

theorem handlerClauseOutlines_relocate (clauses : List HandlerClause) :
    handlerClauseOutlines (clauses.map (HandlerClause.relocate r)) =
      relocateNodes r (handlerClauseOutlines clauses) := by
  match clauses with
  | [] => simp [handlerClauseOutlines]
  | clause :: rest =>
    simp [handlerClauseOutlines, clause.outline_relocate, handlerClauseOutlines_relocate rest]

theorem ComprehensionClause.outline_relocate (clause : ComprehensionClause) :
    (clause.relocate r).outline = clause.outline.relocate r := by
  match clause with
  | .generator _ inner _ | .filter inner _ =>
    simp [ComprehensionClause.outline, inner.outline_relocate]

theorem comprehensionClauseOutlines_relocate (clauses : List ComprehensionClause) :
    comprehensionClauseOutlines (clauses.map (ComprehensionClause.relocate r)) =
      relocateNodes r (comprehensionClauseOutlines clauses) := by
  match clauses with
  | [] => simp [comprehensionClauseOutlines]
  | clause :: rest =>
    simp [comprehensionClauseOutlines, clause.outline_relocate,
      comprehensionClauseOutlines_relocate rest]

theorem FieldAssign.outline_relocate (field : FieldAssign) :
    (field.relocate r).outline = field.outline.relocate r := by
  match field with
  | { name := _, value := none, span := _ } => simp [FieldAssign.outline, exprOutline?]
  | { name := _, value := some value, span := _ } =>
    simp [FieldAssign.outline, exprOutline?, value.outline_relocate]

theorem fieldAssignOutlines_relocate (fields : List FieldAssign) :
    fieldAssignOutlines (fields.map (FieldAssign.relocate r)) =
      relocateNodes r (fieldAssignOutlines fields) := by
  match fields with
  | [] => simp [fieldAssignOutlines]
  | field :: rest =>
    simp [fieldAssignOutlines, field.outline_relocate, fieldAssignOutlines_relocate rest]

theorem TermDef.outline_relocate (definition : TermDef) :
    (definition.relocate r).outline = definition.outline.relocate r := by
  match definition with
  | { name := _, clauses := clauses, span := _ } =>
    simp [TermDef.outline, clauseOutlines_relocate clauses]

theorem termDefOutlines_relocate (definitions : List TermDef) :
    termDefOutlines (definitions.map (TermDef.relocate r)) =
      relocateNodes r (termDefOutlines definitions) := by
  match definitions with
  | [] => simp [termDefOutlines]
  | definition :: rest =>
    simp [termDefOutlines, definition.outline_relocate, termDefOutlines_relocate rest]

theorem FieldSpec.outline_relocate (field : FieldSpec) :
    (field.relocate r).outline = field.outline.relocate r := by
  match field with
  | { name := _, typeExpr := _, defaultValue := none, span := _ } =>
    simp [FieldSpec.outline, exprOutline?]
  | { name := _, typeExpr := _, defaultValue := some value, span := _ } =>
    simp [FieldSpec.outline, exprOutline?, value.outline_relocate]

theorem fieldSpecOutlines_relocate (fields : List FieldSpec) :
    fieldSpecOutlines (fields.map (FieldSpec.relocate r)) =
      relocateNodes r (fieldSpecOutlines fields) := by
  match fields with
  | [] => simp [fieldSpecOutlines]
  | field :: rest =>
    simp [fieldSpecOutlines, field.outline_relocate, fieldSpecOutlines_relocate rest]

theorem ConstructorSpec.outline_relocate (constructor : ConstructorSpec) :
    (constructor.relocate r).outline = constructor.outline.relocate r := by
  match constructor with
  | { name := _, positional := _, named := none, implicit := _, span := _ } =>
    simp [ConstructorSpec.outline, fieldSpecOutlines?]
  | { name := _, positional := _, named := some named, implicit := _, span := _ } =>
    simp [ConstructorSpec.outline, fieldSpecOutlines?, fieldSpecOutlines_relocate named]

theorem constructorSpecOutlines_relocate (constructors : List ConstructorSpec) :
    constructorSpecOutlines (constructors.map (ConstructorSpec.relocate r)) =
      relocateNodes r (constructorSpecOutlines constructors) := by
  match constructors with
  | [] => simp [constructorSpecOutlines]
  | constructor :: rest =>
    simp [constructorSpecOutlines, constructor.outline_relocate,
      constructorSpecOutlines_relocate rest]

theorem ClassMember.outline_relocate (member : ClassMember) :
    (member.relocate r).outline = member.outline.relocate r := by
  match member with
  | .signature _ => simp [ClassMember.outline, Signature.outline]
  | .definition definition => simp [ClassMember.outline, definition.outline_relocate]

theorem classMemberOutlines_relocate (members : List ClassMember) :
    classMemberOutlines (members.map (ClassMember.relocate r)) =
      relocateNodes r (classMemberOutlines members) := by
  match members with
  | [] => simp [classMemberOutlines]
  | member :: rest =>
    simp [classMemberOutlines, member.outline_relocate, classMemberOutlines_relocate rest]

theorem Declaration.outline_relocate (declaration : Declaration) :
    (declaration.relocate r).outline = declaration.outline.relocate r := by
  match declaration with
  | .definition definition => simp [Declaration.outline, definition.outline_relocate]
  | .ascription _ => simp [Declaration.outline, Ascription.outline]
  | .data _ _ constructors _ =>
    simp [Declaration.outline, constructorSpecOutlines_relocate constructors]
  | .effect _ _ _ _ =>
    simp [Declaration.outline, OperationSpec.outline, relocateNodes_eq_map, Function.comp_def]
  | .typeClass _ _ _ members _ =>
    simp [Declaration.outline, classMemberOutlines_relocate members]
  | .classInstance _ _ _ members _ =>
    simp [Declaration.outline, termDefOutlines_relocate members]

theorem Item.outline_relocate (item : Item) :
    (item.relocate r).outline = item.outline.relocate r := by
  match item with
  | .declaration declaration => simp [Item.outline, declaration.outline_relocate]
  | .bind _ value _ | .expression value _ => simp [Item.outline, value.outline_relocate]

theorem itemOutlines_relocate (items : List Item) :
    itemOutlines (items.map (Item.relocate r)) = relocateNodes r (itemOutlines items) := by
  match items with
  | [] => simp [itemOutlines]
  | item :: rest => simp [itemOutlines, item.outline_relocate, itemOutlines_relocate rest]

end

/-- What is moved keeps its structure. -/
theorem Relocation.sameStructure_move {α : Type} [Relocatable α] [LawfulRelocatable α]
    {outline : α → Outline}
    (houtline : ∀ (r : Relocation) value, outline (r.move value) = (outline value).relocate r)
    (r : Relocation) (value : α) : (outline value).sameStructure (outline (r.move value)) = true := by
  have hmoved : (outline value).relocate .forget = (outline (r.move value)).relocate .forget := by
    rw [← houtline, ← houtline, move_move, andThen_forget]
  exact Outline.sameStructure_of_relocate_eq _ _ hmoved

/-! ### Modules -/

@[simp] theorem Module.outline_relocate (source : Module) :
    (source.relocate r).outline = source.outline.relocate r := by
  simp [outline, Module.relocate, relocateNodes_eq_map, Function.comp_def,
    Declaration.outline_relocate]

/-- Modules that are the same once their places are moved have the same structure. -/
theorem Module.sameStructure_of_relocate_eq {left right : Module}
    (h : left.relocate r = right.relocate r') : left.sameStructure right = true :=
  Outline.sameStructure_of_relocate_eq left.outline right.outline
    (by rw [← outline_relocate, h, outline_relocate])

/-- Modules of one name have the same structure if their declarations differ only in their places. -/
theorem Module.sameStructure_of_forget {left right : Module} (hname : left.name = right.name)
    (hdeclarations : Relocation.forget.move left.declarations =
      Relocation.forget.move right.declarations) : left.sameStructure right = true := by
  have hsame : left.relocate .forget = right.relocate .forget := by
    unfold relocate
    rw [Span.relocate_forget left.span right.span, Module.mk.injEq]
    exact ⟨hname, hdeclarations, rfl⟩
  exact sameStructure_of_relocate_eq hsame

/-- A module keeps its structure when its declarations are moved. -/
theorem Module.sameStructure_move (r : Relocation) (name : Option String)
    (declarations : List Declaration) (span span' : Span) :
    sameStructure { name := name, declarations := declarations, span := span }
      { name := name, declarations := r.move declarations, span := span' } = true := by
  have hmove : Relocation.forget.move (r.move declarations) =
      Relocation.forget.move declarations := Relocation.move_move ..
  exact sameStructure_of_forget rfl hmove.symm

/-- Reading a module ends in the same way as another time: with modules of the same structure, or
given up alike. -/
def Module.SameOutcome {ε : Type} : Except ε Module → Except ε Module → Prop
  | .ok source, .ok other => source.sameStructure other = true
  | .error abort, .error other => abort = other
  | _, _ => False

instance {ε : Type} [DecidableEq ε] :
    (source other : Except ε Module) → Decidable (Module.SameOutcome source other)
  | .ok source, .ok other => inferInstanceAs (Decidable (source.sameStructure other = true))
  | .error abort, .error other => inferInstanceAs (Decidable (abort = other))
  | .ok _, .error _ | .error _, .ok _ => inferInstanceAs (Decidable False)

end SableFrontend
