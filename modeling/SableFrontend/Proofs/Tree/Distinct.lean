import SableFrontend.Tree.Outlines

/-!
Outlines show everything: trees of one sort with the same outline are the same tree.
-/

namespace SableFrontend

/-! ### Fields -/

namespace OutlineField

variable {name name' : String}

@[simp] theorem ofText_inj {value value' : String} :
    ofText name value = ofText name' value' ↔ name = name' ∧ value = value' := by
  simp [ofText]

@[simp] theorem ofText?_inj {value value' : Option String} :
    ofText? name value = ofText? name' value' ↔ name = name' ∧ value = value' := by
  cases value <;> cases value' <;> simp [ofText?]

@[simp] theorem ofTexts_inj {values values' : List String} :
    ofTexts name values = ofTexts name' values' ↔ name = name' ∧ values = values' := by
  simp [ofTexts]

@[simp] theorem ofNode_inj {value value' : Outline} :
    ofNode name value = ofNode name' value' ↔ name = name' ∧ value = value' := by
  simp [ofNode]

@[simp] theorem ofNode?_inj {value value' : Option Outline} :
    ofNode? name value = ofNode? name' value' ↔ name = name' ∧ value = value' := by
  cases value <;> cases value' <;> simp [ofNode?]

@[simp] theorem ofNodes_inj {values values' : List Outline} :
    ofNodes name values = ofNodes name' values' ↔ name = name' ∧ values = values' := by
  simp [ofNodes]

@[simp] theorem ofNodes?_inj {values values' : Option (List Outline)} :
    ofNodes? name values = ofNodes? name' values' ↔ name = name' ∧ values = values' := by
  cases values <;> cases values' <;> simp [ofNodes?]

end OutlineField

/-! ### Types and patterns -/

theorem RowVariable.outline_inj {a b : RowVariable} : a.outline = b.outline ↔ a = b := by
  cases a
  cases b
  simp [outline]

mutual

theorem TypeExpr.outline_inj (a b : TypeExpr) : a.outline = b.outline ↔ a = b := by
  match a with
  | .var _ _ | .con _ _ => cases b <;> simp [TypeExpr.outline]
  | .app first second _ | .arrow first second _ =>
    cases b <;> simp [TypeExpr.outline, first.outline_inj, second.outline_inj, and_assoc]
  | .tuple elements _ => cases b <;> simp [TypeExpr.outline, typeOutlines_inj elements]
  | .effectful effects row result _ =>
    have hrow : ∀ row', row.map RowVariable.outline = row'.map RowVariable.outline ↔
        row = row' := by
      intro row'
      cases row <;> cases row' <;> simp [RowVariable.outline_inj]
    cases b <;>
      simp [TypeExpr.outline, typeOutlines_inj effects, hrow, typeOutline?_inj result, and_assoc]
  | .qualified constraints body _ =>
    cases b <;>
      simp [TypeExpr.outline, constraintOutlines_inj constraints, body.outline_inj, and_assoc]
termination_by structural a

theorem typeOutlines_inj (a b : List TypeExpr) : typeOutlines a = typeOutlines b ↔ a = b := by
  match a with
  | [] => cases b <;> simp [typeOutlines]
  | type :: rest => cases b <;> simp [typeOutlines, type.outline_inj, typeOutlines_inj rest]
termination_by structural a

theorem typeOutline?_inj (a b : Option TypeExpr) : typeOutline? a = typeOutline? b ↔ a = b := by
  match a with
  | none => cases b <;> simp [typeOutline?]
  | some type => cases b <;> simp [typeOutline?, type.outline_inj]
termination_by structural a

theorem Constraint.outline_inj (a b : Constraint) : a.outline = b.outline ↔ a = b := by
  match a with
  | { className := _, arguments := arguments, span := _ } =>
    cases b
    simp [Constraint.outline, typeOutlines_inj arguments, and_assoc]
termination_by structural a

theorem constraintOutlines_inj (a b : List Constraint) :
    constraintOutlines a = constraintOutlines b ↔ a = b := by
  match a with
  | [] => cases b <;> simp [constraintOutlines]
  | constraint :: rest =>
    cases b <;> simp [constraintOutlines, constraint.outline_inj, constraintOutlines_inj rest]
termination_by structural a

end

/-! ### Patterns -/

/-- The kinds of literals. -/
def Literal.kinds : List String := ["IntegerLit", "FloatLit", "StringLit", "CharLit"]

theorem Literal.outline_ne {literal : Literal} {kind : String} {fields : List OutlineField}
    {span : Span} (h : kind ∉ kinds) : literal.outline ≠ ⟨kind, fields, span⟩ := by
  rintro heq
  refine h ?_
  cases literal <;> simp_all [outline, kinds]

theorem Literal.ne_outline {literal : Literal} {kind : String} {fields : List OutlineField}
    {span : Span} (h : kind ∉ kinds) : ⟨kind, fields, span⟩ ≠ literal.outline :=
  (outline_ne h).symm

theorem Literal.outline_inj {a b : Literal} : a.outline = b.outline ↔ a = b := by
  cases a <;> cases b <;> simp [outline]

mutual

theorem Pattern.outline_inj (a b : Pattern) : a.outline = b.outline ↔ a = b := by
  match a with
  | .wildcard _ | .binding _ _ => cases b <;> simp [Pattern.outline]
  | .literal _ _ => cases b <;> simp [Pattern.outline, Literal.outline_inj]
  | .constructor _ arguments fields _ =>
    cases b <;>
      simp [Pattern.outline, patternOutlines_inj arguments, fieldPatternOutlines?_inj fields,
        and_assoc]
  | .listCons head tail _ =>
    cases b <;> simp [Pattern.outline, head.outline_inj, tail.outline_inj, and_assoc]
  | .list elements _ | .tuple elements _ =>
    cases b <;> simp [Pattern.outline, patternOutlines_inj elements]
termination_by structural a

theorem patternOutlines_inj (a b : List Pattern) :
    patternOutlines a = patternOutlines b ↔ a = b := by
  match a with
  | [] => cases b <;> simp [patternOutlines]
  | pattern :: rest =>
    cases b <;> simp [patternOutlines, pattern.outline_inj, patternOutlines_inj rest]
termination_by structural a

theorem patternOutline?_inj (a b : Option Pattern) :
    patternOutline? a = patternOutline? b ↔ a = b := by
  match a with
  | none => cases b <;> simp [patternOutline?]
  | some pattern => cases b <;> simp [patternOutline?, pattern.outline_inj]
termination_by structural a

theorem FieldPattern.outline_inj (a b : FieldPattern) : a.outline = b.outline ↔ a = b := by
  match a with
  | { name := _, pattern := pattern, span := _ } =>
    cases b
    simp [FieldPattern.outline, patternOutline?_inj pattern, and_assoc]
termination_by structural a

theorem fieldPatternOutlines_inj (a b : List FieldPattern) :
    fieldPatternOutlines a = fieldPatternOutlines b ↔ a = b := by
  match a with
  | [] => cases b <;> simp [fieldPatternOutlines]
  | field :: rest =>
    cases b <;> simp [fieldPatternOutlines, field.outline_inj, fieldPatternOutlines_inj rest]
termination_by structural a

theorem fieldPatternOutlines?_inj (a b : Option (List FieldPattern)) :
    fieldPatternOutlines? a = fieldPatternOutlines? b ↔ a = b := by
  match a with
  | none => cases b <;> simp [fieldPatternOutlines?]
  | some fields => cases b <;> simp [fieldPatternOutlines?, fieldPatternOutlines_inj fields]
termination_by structural a

end

/-! ### Expressions and declarations -/

theorem OperationSpec.outline_inj {a b : OperationSpec} : a.outline = b.outline ↔ a = b := by
  cases a
  cases b
  simp [outline, TypeExpr.outline_inj, and_assoc]

theorem Signature.outline_inj {a b : Signature} : a.outline = b.outline ↔ a = b := by
  cases a
  cases b
  simp [outline, TypeExpr.outline_inj, and_assoc]

theorem Ascription.outline_inj {a b : Ascription} : a.outline = b.outline ↔ a = b := by
  cases a
  cases b
  simp [outline, TypeExpr.outline_inj, and_assoc]

theorem operationOutlines_inj {a b : List OperationSpec} :
    a.map OperationSpec.outline = b.map OperationSpec.outline ↔ a = b :=
  List.map_inj_right fun _ _ => OperationSpec.outline_inj.1

theorem TermDef.outline_ne {definition : TermDef} {kind : String} {fields : List OutlineField}
    {span : Span} (h : kind ≠ "TermDef") : definition.outline ≠ ⟨kind, fields, span⟩ := by
  rintro heq
  cases definition
  rw [TermDef.outline, Outline.mk.injEq] at heq
  exact h heq.1.symm

theorem TermDef.ne_outline {definition : TermDef} {kind : String} {fields : List OutlineField}
    {span : Span} (h : kind ≠ "TermDef") : ⟨kind, fields, span⟩ ≠ definition.outline :=
  (outline_ne h).symm

/-- The kinds of declarations. -/
def Declaration.kinds : List String :=
  ["TermDef", "TypeAnnotation", "DataDef", "EffectDef", "TypeClassDef", "InstanceDef"]

theorem Declaration.outline_ne {declaration : Declaration} {kind : String}
    {fields : List OutlineField} {span : Span} (h : kind ∉ kinds) :
    declaration.outline ≠ ⟨kind, fields, span⟩ := by
  rintro heq
  refine h ?_
  match declaration with
  | .definition { name := _, clauses := _, span := _ } =>
    simp_all [outline, TermDef.outline, kinds]
  | .ascription _ => simp_all [outline, Ascription.outline, kinds]
  | .data _ _ _ _ | .effect _ _ _ _ | .typeClass _ _ _ _ _ | .classInstance _ _ _ _ _ =>
    simp_all [outline, kinds]

theorem Declaration.ne_outline {declaration : Declaration} {kind : String}
    {fields : List OutlineField} {span : Span} (h : kind ∉ kinds) :
    ⟨kind, fields, span⟩ ≠ declaration.outline :=
  (outline_ne h).symm

mutual

theorem Expr.outline_inj (a b : Expr) : a.outline = b.outline ↔ a = b := by
  have hliteral := @Literal.outline_ne
  have hliteral' := @Literal.ne_outline
  match a with
  | .literal _ =>
    cases b <;> simp [Expr.outline, hliteral, Literal.kinds, Literal.outline_inj]
  | .identifier _ _ | .constructor _ _ | .accessor _ _ =>
    cases b <;> simp [Expr.outline, hliteral', Literal.kinds]
  | .apply first second _ | .binary first _ second _ | .listCons first second _ =>
    cases b <;> simp [Expr.outline, hliteral', Literal.kinds, first.outline_inj,
      second.outline_inj, and_assoc]
  | .unary _ inner _ | .field inner _ _ =>
    cases b <;> simp [Expr.outline, hliteral', Literal.kinds, inner.outline_inj, and_assoc]
  | .conditional branches otherwise _ =>
    cases b <;> simp [Expr.outline, hliteral', Literal.kinds, branchOutlines_inj branches,
      exprOutline?_inj otherwise, and_assoc]
  | .block statements result _ =>
    cases b <;> simp [Expr.outline, hliteral', Literal.kinds, itemOutlines_inj statements,
      result.outline_inj, and_assoc]
  | .cases scrutinees clauses _ =>
    cases b <;> simp [Expr.outline, hliteral', Literal.kinds, exprOutlines_inj scrutinees,
      clauseOutlines_inj clauses, and_assoc]
  | .lambda clauses _ =>
    cases b <;> simp [Expr.outline, hliteral', Literal.kinds, clauseOutlines_inj clauses]
  | .handler clauses _ =>
    cases b <;> simp [Expr.outline, hliteral', Literal.kinds, handlerClauseOutlines_inj clauses]
  | .list elements _ | .tuple elements _ =>
    cases b <;> simp [Expr.outline, hliteral', Literal.kinds, exprOutlines_inj elements]
  | .comprehension clauses body _ =>
    cases b <;> simp [Expr.outline, hliteral', Literal.kinds,
      comprehensionClauseOutlines_inj clauses, body.outline_inj, and_assoc]
  | .record _ arguments fields _ =>
    cases b <;> simp [Expr.outline, hliteral', Literal.kinds, exprOutlines_inj arguments,
      fieldAssignOutlines_inj fields, and_assoc]
  | .recordUpdate target fields _ =>
    cases b <;> simp [Expr.outline, hliteral', Literal.kinds, target.outline_inj,
      fieldAssignOutlines_inj fields, and_assoc]
  | .recordUpdateLambda fields _ =>
    cases b <;> simp [Expr.outline, hliteral', Literal.kinds, fieldAssignOutlines_inj fields]
  | .operatorSection _ left right _ =>
    cases b <;> simp [Expr.outline, hliteral', Literal.kinds, exprOutline?_inj left,
      exprOutline?_inj right, and_assoc]
termination_by structural a

theorem exprOutlines_inj (a b : List Expr) : exprOutlines a = exprOutlines b ↔ a = b := by
  match a with
  | [] => cases b <;> simp [exprOutlines]
  | expr :: rest => cases b <;> simp [exprOutlines, expr.outline_inj, exprOutlines_inj rest]
termination_by structural a

theorem exprOutline?_inj (a b : Option Expr) : exprOutline? a = exprOutline? b ↔ a = b := by
  match a with
  | none => cases b <;> simp [exprOutline?]
  | some expr => cases b <;> simp [exprOutline?, expr.outline_inj]
termination_by structural a

theorem GuardedBranch.outline_inj (a b : GuardedBranch) : a.outline = b.outline ↔ a = b := by
  match a with
  | { condition := condition, body := body, span := _ } =>
    cases b
    simp [GuardedBranch.outline, condition.outline_inj, body.outline_inj, and_assoc]
termination_by structural a

theorem branchOutlines_inj (a b : List GuardedBranch) :
    branchOutlines a = branchOutlines b ↔ a = b := by
  match a with
  | [] => cases b <;> simp [branchOutlines]
  | branch :: rest => cases b <;> simp [branchOutlines, branch.outline_inj, branchOutlines_inj rest]
termination_by structural a

theorem Clause.outline_inj (a b : Clause) : a.outline = b.outline ↔ a = b := by
  match a with
  | { patterns := _, body := body, span := _ } =>
    cases b
    simp [Clause.outline, patternOutlines_inj, body.outline_inj, and_assoc]
termination_by structural a

theorem clauseOutlines_inj (a b : List Clause) : clauseOutlines a = clauseOutlines b ↔ a = b := by
  match a with
  | [] => cases b <;> simp [clauseOutlines]
  | clause :: rest => cases b <;> simp [clauseOutlines, clause.outline_inj, clauseOutlines_inj rest]
termination_by structural a

theorem HandlerClause.outline_inj (a b : HandlerClause) : a.outline = b.outline ↔ a = b := by
  match a with
  | .returning _ body _ | .operation _ _ _ body _ =>
    cases b <;> simp [HandlerClause.outline, Pattern.outline_inj, patternOutlines_inj,
      body.outline_inj, and_assoc]
termination_by structural a

theorem handlerClauseOutlines_inj (a b : List HandlerClause) :
    handlerClauseOutlines a = handlerClauseOutlines b ↔ a = b := by
  match a with
  | [] => cases b <;> simp [handlerClauseOutlines]
  | clause :: rest =>
    cases b <;> simp [handlerClauseOutlines, clause.outline_inj, handlerClauseOutlines_inj rest]
termination_by structural a

theorem ComprehensionClause.outline_inj (a b : ComprehensionClause) :
    a.outline = b.outline ↔ a = b := by
  match a with
  | .generator _ inner _ | .filter inner _ =>
    cases b <;> simp [ComprehensionClause.outline, Pattern.outline_inj, inner.outline_inj,
      and_assoc]
termination_by structural a

theorem comprehensionClauseOutlines_inj (a b : List ComprehensionClause) :
    comprehensionClauseOutlines a = comprehensionClauseOutlines b ↔ a = b := by
  match a with
  | [] => cases b <;> simp [comprehensionClauseOutlines]
  | clause :: rest =>
    cases b <;> simp [comprehensionClauseOutlines, clause.outline_inj,
      comprehensionClauseOutlines_inj rest]
termination_by structural a

theorem FieldAssign.outline_inj (a b : FieldAssign) : a.outline = b.outline ↔ a = b := by
  match a with
  | { name := _, value := value, span := _ } =>
    cases b
    simp [FieldAssign.outline, exprOutline?_inj value, and_assoc]
termination_by structural a

theorem fieldAssignOutlines_inj (a b : List FieldAssign) :
    fieldAssignOutlines a = fieldAssignOutlines b ↔ a = b := by
  match a with
  | [] => cases b <;> simp [fieldAssignOutlines]
  | field :: rest =>
    cases b <;> simp [fieldAssignOutlines, field.outline_inj, fieldAssignOutlines_inj rest]
termination_by structural a

theorem TermDef.outline_inj (a b : TermDef) : a.outline = b.outline ↔ a = b := by
  match a with
  | { name := _, clauses := clauses, span := _ } =>
    cases b
    simp [TermDef.outline, clauseOutlines_inj clauses, and_assoc]
termination_by structural a

theorem termDefOutlines_inj (a b : List TermDef) :
    termDefOutlines a = termDefOutlines b ↔ a = b := by
  match a with
  | [] => cases b <;> simp [termDefOutlines]
  | definition :: rest =>
    cases b <;> simp [termDefOutlines, definition.outline_inj, termDefOutlines_inj rest]
termination_by structural a

theorem FieldSpec.outline_inj (a b : FieldSpec) : a.outline = b.outline ↔ a = b := by
  match a with
  | { name := _, typeExpr := _, defaultValue := value, span := _ } =>
    cases b
    simp [FieldSpec.outline, TypeExpr.outline_inj, exprOutline?_inj value, and_assoc]
termination_by structural a

theorem fieldSpecOutlines_inj (a b : List FieldSpec) :
    fieldSpecOutlines a = fieldSpecOutlines b ↔ a = b := by
  match a with
  | [] => cases b <;> simp [fieldSpecOutlines]
  | field :: rest =>
    cases b <;> simp [fieldSpecOutlines, field.outline_inj, fieldSpecOutlines_inj rest]
termination_by structural a

theorem fieldSpecOutlines?_inj (a b : Option (List FieldSpec)) :
    fieldSpecOutlines? a = fieldSpecOutlines? b ↔ a = b := by
  match a with
  | none => cases b <;> simp [fieldSpecOutlines?]
  | some fields => cases b <;> simp [fieldSpecOutlines?, fieldSpecOutlines_inj fields]
termination_by structural a

theorem ConstructorSpec.outline_inj (a b : ConstructorSpec) : a.outline = b.outline ↔ a = b := by
  match a with
  | { name := _, positional := _, named := named, implicit := _, span := _ } =>
    cases b
    simp [ConstructorSpec.outline, typeOutlines_inj, fieldSpecOutlines?_inj named, and_assoc]
termination_by structural a

theorem constructorSpecOutlines_inj (a b : List ConstructorSpec) :
    constructorSpecOutlines a = constructorSpecOutlines b ↔ a = b := by
  match a with
  | [] => cases b <;> simp [constructorSpecOutlines]
  | constructor :: rest =>
    cases b <;> simp [constructorSpecOutlines, constructor.outline_inj,
      constructorSpecOutlines_inj rest]
termination_by structural a

theorem ClassMember.outline_inj (a b : ClassMember) : a.outline = b.outline ↔ a = b := by
  match a, b with
  | .signature _, .signature _ => simp [ClassMember.outline, Signature.outline_inj]
  | .definition definition, .definition _ => simp [ClassMember.outline, definition.outline_inj]
  | .signature _, .definition { name := _, clauses := _, span := _ }
  | .definition { name := _, clauses := _, span := _ }, .signature _ =>
    simp [ClassMember.outline, Signature.outline, TermDef.outline]
termination_by structural a

theorem classMemberOutlines_inj (a b : List ClassMember) :
    classMemberOutlines a = classMemberOutlines b ↔ a = b := by
  match a with
  | [] => cases b <;> simp [classMemberOutlines]
  | member :: rest =>
    cases b <;> simp [classMemberOutlines, member.outline_inj, classMemberOutlines_inj rest]
termination_by structural a

theorem Declaration.outline_inj (a b : Declaration) : a.outline = b.outline ↔ a = b := by
  have hdefinition := @TermDef.outline_ne
  have hdefinition' := @TermDef.ne_outline
  match a with
  | .definition definition =>
    cases b with
    | definition _ => simp [Declaration.outline, definition.outline_inj]
    | ascription _ => simp [Declaration.outline, Ascription.outline, hdefinition]
    | _ => simp [Declaration.outline, hdefinition]
  | .ascription _ =>
    cases b with
    | ascription _ => simp [Declaration.outline, Ascription.outline_inj]
    | _ => simp [Declaration.outline, Ascription.outline, hdefinition']
  | .data _ _ constructors _ =>
    cases b <;> simp [Declaration.outline, Ascription.outline, hdefinition',
      constructorSpecOutlines_inj constructors, and_assoc]
  | .effect _ _ _ _ =>
    cases b <;> simp [Declaration.outline, Ascription.outline, hdefinition',
      operationOutlines_inj, and_assoc]
  | .typeClass _ _ _ members _ =>
    cases b <;> simp [Declaration.outline, Ascription.outline, hdefinition',
      constraintOutlines_inj, classMemberOutlines_inj members, and_assoc]
  | .classInstance _ _ _ members _ =>
    cases b <;> simp [Declaration.outline, Ascription.outline, hdefinition',
      TypeExpr.outline_inj, constraintOutlines_inj, termDefOutlines_inj members, and_assoc]
termination_by structural a

theorem Item.outline_inj (a b : Item) : a.outline = b.outline ↔ a = b := by
  have hdeclaration := @Declaration.outline_ne
  have hdeclaration' := @Declaration.ne_outline
  match a with
  | .declaration declaration =>
    cases b <;> simp [Item.outline, hdeclaration, Declaration.kinds, declaration.outline_inj]
  | .bind _ value _ | .expression value _ =>
    cases b <;> simp [Item.outline, hdeclaration', Declaration.kinds,
      Pattern.outline_inj, value.outline_inj, and_assoc]
termination_by structural a

theorem itemOutlines_inj (a b : List Item) : itemOutlines a = itemOutlines b ↔ a = b := by
  match a with
  | [] => cases b <;> simp [itemOutlines]
  | item :: rest => cases b <;> simp [itemOutlines, item.outline_inj, itemOutlines_inj rest]
termination_by structural a

end

/-- Modules with the same outline are the same. -/
theorem Module.outline_inj {a b : Module} : a.outline = b.outline ↔ a = b := by
  have hdeclarations :
      a.declarations.map Declaration.outline = b.declarations.map Declaration.outline ↔
      a.declarations = b.declarations := List.map_inj_right fun x y => (x.outline_inj y).1
  cases a
  cases b
  simp_all [outline, and_assoc]

end SableFrontend
