import SableFrontend.Tree.Outline

/-!
The outlines of the trees: which kind and which fields each part of a source shows.
-/

namespace SableFrontend

/-! ### Fields -/

namespace OutlineField

/-- A field that holds a text. -/
def ofText (name value : String) : OutlineField := { name := name, value := .text value }

/-- A field that holds a text or nothing. -/
def ofText? (name : String) (value : Option String) : OutlineField :=
  { name := name, value := value.elim .absent .text }

/-- A field that holds texts. -/
def ofTexts (name : String) (values : List String) : OutlineField :=
  { name := name, value := .texts values }

/-- A field that holds a node. -/
def ofNode (name : String) (value : Outline) : OutlineField :=
  { name := name, value := .node value }

/-- A field that holds a node or nothing. -/
def ofNode? (name : String) (value : Option Outline) : OutlineField :=
  { name := name, value := value.elim .absent .node }

/-- A field that holds nodes. -/
def ofNodes (name : String) (values : List Outline) : OutlineField :=
  { name := name, value := .nodes values }

/-- A field that holds nodes or nothing. -/
def ofNodes? (name : String) (values : Option (List Outline)) : OutlineField :=
  { name := name, value := values.elim .absent .nodes }

end OutlineField

open OutlineField

/-! ### Types -/

def RowVariable.outline (row : RowVariable) : Outline :=
  { kind := "TypeVar", fields := [ofText "name" row.name], span := row.span }

mutual

def TypeExpr.outline : TypeExpr → Outline
  | .var name span => { kind := "TypeVar", fields := [ofText "name" name], span := span }
  | .con name span => { kind := "TypeCon", fields := [ofText "name" name], span := span }
  | .app function argument span =>
    { kind := "TypeApp"
      fields := [ofNode "fn" function.outline, ofNode "arg" argument.outline]
      span := span }
  | .arrow parameter result span =>
    { kind := "ArrowType"
      fields := [ofNode "param" parameter.outline, ofNode "result" result.outline]
      span := span }
  | .tuple elements span =>
    { kind := "TupleType", fields := [ofNodes "elements" (typeOutlines elements)], span := span }
  | .effectful effects row result span =>
    { kind := "EffectType"
      fields := [
        ofNodes "effects" (typeOutlines effects), ofNode? "row" (row.map RowVariable.outline),
        ofNode? "result" (typeOutline? result)]
      span := span }
  | .qualified constraints body span =>
    { kind := "QualifiedType"
      fields := [ofNodes "constraints" (constraintOutlines constraints),
        ofNode "body" body.outline]
      span := span }

def typeOutlines : List TypeExpr → List Outline
  | [] => []
  | type :: rest => type.outline :: typeOutlines rest

def typeOutline? : Option TypeExpr → Option Outline
  | none => none
  | some type => some type.outline

def Constraint.outline : Constraint → Outline
  | { className := className, arguments := arguments, span := span } =>
    { kind := "Constraint"
      fields := [ofText "class_name" className, ofNodes "args" (typeOutlines arguments)]
      span := span }

def constraintOutlines : List Constraint → List Outline
  | [] => []
  | constraint :: rest => constraint.outline :: constraintOutlines rest

end

/-! ### Patterns -/

def Literal.outline : Literal → Outline
  | .integer value span =>
    { kind := "IntegerLit", fields := [{ name := "value", value := .integer value }], span := span }
  | .float value span =>
    { kind := "FloatLit", fields := [{ name := "value", value := .float value }], span := span }
  | .text value span => { kind := "StringLit", fields := [ofText "value" value], span := span }
  | .character value span => { kind := "CharLit", fields := [ofText "value" value], span := span }

mutual

def Pattern.outline : Pattern → Outline
  | .wildcard span => { kind := "WildcardPattern", fields := [], span := span }
  | .binding name span =>
    { kind := "BindingPattern", fields := [ofText "name" name], span := span }
  | .literal value span =>
    { kind := "LiteralPattern", fields := [ofNode "literal" value.outline], span := span }
  | .constructor name arguments fields span =>
    { kind := "ConstructorPattern"
      fields := [
        ofText "name" name, ofNodes "args" (patternOutlines arguments),
        ofNodes? "fields" (fieldPatternOutlines? fields)]
      span := span }
  | .listCons head tail span =>
    { kind := "ListConsPattern"
      fields := [ofNode "head" head.outline, ofNode "tail" tail.outline]
      span := span }
  | .list elements span =>
    { kind := "ListPattern", fields := [ofNodes "elements" (patternOutlines elements)]
      span := span }
  | .tuple elements span =>
    { kind := "TuplePattern", fields := [ofNodes "elements" (patternOutlines elements)]
      span := span }

def patternOutlines : List Pattern → List Outline
  | [] => []
  | pattern :: rest => pattern.outline :: patternOutlines rest

def patternOutline? : Option Pattern → Option Outline
  | none => none
  | some pattern => some pattern.outline

def FieldPattern.outline : FieldPattern → Outline
  | { name := name, pattern := pattern, span := span } =>
    { kind := "FieldPattern"
      fields := [ofText "name" name, ofNode? "pattern" (patternOutline? pattern)]
      span := span }

def fieldPatternOutlines : List FieldPattern → List Outline
  | [] => []
  | field :: rest => field.outline :: fieldPatternOutlines rest

def fieldPatternOutlines? : Option (List FieldPattern) → Option (List Outline)
  | none => none
  | some fields => some (fieldPatternOutlines fields)

end

/-! ### Declarations without terms -/

def OperationSpec.outline (operation : OperationSpec) : Outline :=
  { kind := "OperationSpec"
    fields := [ofText "name" operation.name, ofNode "type_expr" operation.typeExpr.outline]
    span := operation.span }

def Signature.outline (signature : Signature) : Outline :=
  { kind := "Signature"
    fields := [ofText "name" signature.name, ofNode "type_expr" signature.typeExpr.outline]
    span := signature.span }

def Ascription.outline (ascription : Ascription) : Outline :=
  { kind := "TypeAnnotation"
    fields := [
      ofText "name" ascription.name, ofNode "type_expr" ascription.typeExpr.outline,
      { name := "attachment", value := .attachment ascription.attachment }]
    span := ascription.span }

/-! ### Expressions -/

mutual

def Expr.outline : Expr → Outline
  | .literal value => value.outline
  | .identifier name span =>
    { kind := "IdentifierExpr", fields := [ofText "name" name], span := span }
  | .constructor name span =>
    { kind := "ConstructorExpr", fields := [ofText "name" name], span := span }
  | .apply function argument span =>
    { kind := "ApplyExpr"
      fields := [ofNode "fn" function.outline, ofNode "arg" argument.outline]
      span := span }
  | .binary left op right span =>
    { kind := "BinaryExpr"
      fields := [ofNode "left" left.outline, ofText "op" op, ofNode "right" right.outline]
      span := span }
  | .unary op operand span =>
    { kind := "UnaryExpr", fields := [ofText "op" op, ofNode "operand" operand.outline]
      span := span }
  | .conditional branches otherwise span =>
    { kind := "IfExpr"
      fields := [
        ofNodes "branches" (branchOutlines branches),
        ofNode? "else_branch" (exprOutline? otherwise)]
      span := span }
  | .block statements result span =>
    { kind := "BlockExpr"
      fields := [ofNodes "statements" (itemOutlines statements), ofNode "result" result.outline]
      span := span }
  | .cases scrutinees clauses span =>
    { kind := "CaseExpr"
      fields := [
        ofNodes "scrutinees" (exprOutlines scrutinees), ofNodes "clauses" (clauseOutlines clauses)]
      span := span }
  | .lambda clauses span =>
    { kind := "LambdaExpr", fields := [ofNodes "clauses" (clauseOutlines clauses)], span := span }
  | .handler clauses span =>
    { kind := "HandlerExpr", fields := [ofNodes "clauses" (handlerClauseOutlines clauses)]
      span := span }
  | .list elements span =>
    { kind := "ListLiteral", fields := [ofNodes "elements" (exprOutlines elements)], span := span }
  | .listCons head tail span =>
    { kind := "ListConsExpr"
      fields := [ofNode "head" head.outline, ofNode "tail" tail.outline]
      span := span }
  | .comprehension clauses body span =>
    { kind := "ListComprehension"
      fields := [
        ofNodes "clauses" (comprehensionClauseOutlines clauses), ofNode "body" body.outline]
      span := span }
  | .tuple elements span =>
    { kind := "TupleExpr", fields := [ofNodes "elements" (exprOutlines elements)], span := span }
  | .record name arguments fields span =>
    { kind := "RecordExpr"
      fields := [
        ofText "constructor" name, ofNodes "args" (exprOutlines arguments),
        ofNodes "fields" (fieldAssignOutlines fields)]
      span := span }
  | .recordUpdate target fields span =>
    { kind := "RecordUpdateExpr"
      fields := [ofNode "target" target.outline, ofNodes "fields" (fieldAssignOutlines fields)]
      span := span }
  | .recordUpdateLambda fields span =>
    { kind := "RecordUpdateLambda", fields := [ofNodes "fields" (fieldAssignOutlines fields)]
      span := span }
  | .field target name span =>
    { kind := "FieldExpr", fields := [ofNode "target" target.outline, ofText "name" name]
      span := span }
  | .accessor path span =>
    { kind := "AccessorLambda", fields := [ofTexts "path" path], span := span }
  | .operatorSection op left right span =>
    { kind := "SectionExpr"
      fields := [
        ofText "op" op, ofNode? "left" (exprOutline? left), ofNode? "right" (exprOutline? right)]
      span := span }

def exprOutlines : List Expr → List Outline
  | [] => []
  | expr :: rest => expr.outline :: exprOutlines rest

def exprOutline? : Option Expr → Option Outline
  | none => none
  | some expr => some expr.outline

def GuardedBranch.outline : GuardedBranch → Outline
  | { condition := condition, body := body, span := span } =>
    { kind := "GuardedBranch"
      fields := [ofNode "condition" condition.outline, ofNode "body" body.outline]
      span := span }

def branchOutlines : List GuardedBranch → List Outline
  | [] => []
  | branch :: rest => branch.outline :: branchOutlines rest

def Clause.outline : Clause → Outline
  | { patterns := patterns, body := body, span := span } =>
    { kind := "Clause"
      fields := [ofNodes "patterns" (patternOutlines patterns), ofNode "body" body.outline]
      span := span }

def clauseOutlines : List Clause → List Outline
  | [] => []
  | clause :: rest => clause.outline :: clauseOutlines rest

def HandlerClause.outline : HandlerClause → Outline
  | .returning binder body span =>
    { kind := "ReturnClause"
      fields := [ofNode "binder" binder.outline, ofNode "body" body.outline]
      span := span }
  | .operation name arguments continuation body span =>
    { kind := "OperationClause"
      fields := [
        ofText "operation" name, ofNodes "args" (patternOutlines arguments),
        ofText "continuation" continuation, ofNode "body" body.outline]
      span := span }

def handlerClauseOutlines : List HandlerClause → List Outline
  | [] => []
  | clause :: rest => clause.outline :: handlerClauseOutlines rest

def ComprehensionClause.outline : ComprehensionClause → Outline
  | .generator pattern source span =>
    { kind := "Generator"
      fields := [ofNode "pattern" pattern.outline, ofNode "source" source.outline]
      span := span }
  | .filter condition span =>
    { kind := "Filter", fields := [ofNode "condition" condition.outline], span := span }

def comprehensionClauseOutlines : List ComprehensionClause → List Outline
  | [] => []
  | clause :: rest => clause.outline :: comprehensionClauseOutlines rest

def FieldAssign.outline : FieldAssign → Outline
  | { name := name, value := value, span := span } =>
    { kind := "FieldAssign"
      fields := [ofText "name" name, ofNode? "value" (exprOutline? value)]
      span := span }

def fieldAssignOutlines : List FieldAssign → List Outline
  | [] => []
  | field :: rest => field.outline :: fieldAssignOutlines rest

def TermDef.outline : TermDef → Outline
  | { name := name, clauses := clauses, span := span } =>
    { kind := "TermDef"
      fields := [ofText "name" name, ofNodes "clauses" (clauseOutlines clauses)]
      span := span }

def termDefOutlines : List TermDef → List Outline
  | [] => []
  | definition :: rest => definition.outline :: termDefOutlines rest

def FieldSpec.outline : FieldSpec → Outline
  | { name := name, typeExpr := typeExpr, defaultValue := defaultValue, span := span } =>
    { kind := "FieldSpec"
      fields := [
        ofText "name" name, ofNode "type_expr" typeExpr.outline,
        ofNode? "default" (exprOutline? defaultValue)]
      span := span }

def fieldSpecOutlines : List FieldSpec → List Outline
  | [] => []
  | field :: rest => field.outline :: fieldSpecOutlines rest

def fieldSpecOutlines? : Option (List FieldSpec) → Option (List Outline)
  | none => none
  | some fields => some (fieldSpecOutlines fields)

def ConstructorSpec.outline : ConstructorSpec → Outline
  | { name := name, positional := positional, named := named, implicit := implicit,
      span := span } =>
    { kind := "ConstructorSpec"
      fields := [
        ofText "name" name, ofNodes "positional" (typeOutlines positional),
        ofNodes? "named" (fieldSpecOutlines? named),
        { name := "implicit", value := .flag implicit }]
      span := span }

def constructorSpecOutlines : List ConstructorSpec → List Outline
  | [] => []
  | constructor :: rest => constructor.outline :: constructorSpecOutlines rest

def ClassMember.outline : ClassMember → Outline
  | .signature signature => signature.outline
  | .definition definition => definition.outline

def classMemberOutlines : List ClassMember → List Outline
  | [] => []
  | member :: rest => member.outline :: classMemberOutlines rest

def Declaration.outline : Declaration → Outline
  | .definition definition => definition.outline
  | .ascription ascription => ascription.outline
  | .data name parameters constructors span =>
    { kind := "DataDef"
      fields := [
        ofText "name" name, ofTexts "params" parameters,
        ofNodes "constructors" (constructorSpecOutlines constructors)]
      span := span }
  | .effect name parameters operations span =>
    { kind := "EffectDef"
      fields := [
        ofText "name" name, ofTexts "params" parameters,
        ofNodes "operations" (operations.map OperationSpec.outline)]
      span := span }
  | .typeClass name parameter superclasses members span =>
    { kind := "TypeClassDef"
      fields := [
        ofText "name" name, ofText "param" parameter,
        ofNodes "superclasses" (constraintOutlines superclasses),
        ofNodes "members" (classMemberOutlines members)]
      span := span }
  | .classInstance className head context members span =>
    { kind := "InstanceDef"
      fields := [
        ofText "class_name" className, ofNode "head" head.outline,
        ofNodes "context" (constraintOutlines context),
        ofNodes "members" (termDefOutlines members)]
      span := span }

def Item.outline : Item → Outline
  | .declaration declaration => declaration.outline
  | .bind pattern value span =>
    { kind := "BindStmt"
      fields := [ofNode "pattern" pattern.outline, ofNode "value" value.outline]
      span := span }
  | .expression value span =>
    { kind := "ExprStmt", fields := [ofNode "expr" value.outline], span := span }

def itemOutlines : List Item → List Outline
  | [] => []
  | item :: rest => item.outline :: itemOutlines rest

end

/-! ### Modules -/

def Module.outline (source : Module) : Outline :=
  { kind := "Module"
    fields := [
      ofText? "name" source.name,
      ofNodes "declarations" (source.declarations.map Declaration.outline)]
    span := source.span }

/-- Whether two sources have the same structure. -/
def Module.sameStructure (left right : Module) : Bool :=
  left.outline.sameStructure right.outline

end SableFrontend
