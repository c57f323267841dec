import SableFrontend.Grammar.Declaration
import SableFrontend.Tree.Outlines

namespace SableFrontend

/-! ### Spans -/

/-- Where a span starts, with the source that it lies in. -/
structure SpanStart where
  file : String
  line : Int
  column : Int
  offset : Int

/-- Where a span stops. -/
structure SpanStop where
  line : Int
  column : Int
  offset : Int

/-- Another place for every start and every stop of a span. -/
structure Relocation where
  onStart : SpanStart → SpanStart
  onStop : SpanStop → SpanStop

namespace Span

def first (span : Span) : SpanStart := ⟨span.file, span.startLine, span.startColumn, span.start⟩

def last (span : Span) : SpanStop := ⟨span.endLine, span.endColumn, span.stop⟩

/-- The span from a start to a stop. -/
def ofEnds (first : SpanStart) (last : SpanStop) : Span where
  file := first.file
  startLine := first.line
  startColumn := first.column
  endLine := last.line
  endColumn := last.column
  start := first.offset
  stop := last.offset

def relocate (r : Relocation) (span : Span) : Span :=
  ofEnds (r.onStart span.first) (r.onStop span.last)

theorem relocate_join (r : Relocation) (first last : Span) :
    (first.join last).relocate r = (first.relocate r).join (last.relocate r) := rfl

end Span

/-- What has places, each of which can be moved. -/
class Relocatable (α : Type) where
  relocate : Relocation → α → α

namespace Relocation

variable {α β : Type} [Relocatable α] [Relocatable β]

/-- Moves every place in a value. -/
abbrev move (r : Relocation) : α → α := Relocatable.relocate r

instance : Relocatable Unit := ⟨fun _ => id⟩
instance : Relocatable Bool := ⟨fun _ => id⟩
instance : Relocatable Nat := ⟨fun _ => id⟩
instance : Relocatable String := ⟨fun _ => id⟩
instance : Relocatable (List α) := ⟨fun r => List.map r.move⟩
instance : Relocatable (Option α) := ⟨fun r => Option.map r.move⟩
instance : Relocatable (α ⊕ β) := ⟨fun r => Sum.map r.move r.move⟩
instance : Relocatable (α × β) := ⟨fun r => Prod.map r.move r.move⟩

end Relocation

variable (r : Relocation)

instance : Relocatable Span := ⟨Span.relocate⟩

def Token.relocate (token : Token) : Token := { token with span := token.span.relocate r }

def RowVariable.relocate (row : RowVariable) : RowVariable :=
  { row with span := row.span.relocate r }

mutual

def TypeExpr.relocate : TypeExpr → TypeExpr
  | .var name span => .var name (span.relocate r)
  | .con name span => .con name (span.relocate r)
  | .app function argument span => .app function.relocate argument.relocate (span.relocate r)
  | .arrow parameter result span => .arrow parameter.relocate result.relocate (span.relocate r)
  | .tuple elements span => .tuple (elements.map fun e => e.relocate) (span.relocate r)
  | .effectful effects row result span =>
    .effectful (effects.map fun e => e.relocate) (row.map (·.relocate r))
      (match result with | none => none | some result => some result.relocate) (span.relocate r)
  | .qualified constraints body span =>
    .qualified (constraints.map fun c => c.relocate) body.relocate (span.relocate r)

def Constraint.relocate : Constraint → Constraint
  | { className := className, arguments := arguments, span := span } =>
    { className := className, arguments := arguments.map fun a => a.relocate
      span := span.relocate r }

end

def Literal.relocate : Literal → Literal
  | .integer value span => .integer value (span.relocate r)
  | .float value span => .float value (span.relocate r)
  | .text value span => .text value (span.relocate r)
  | .character value span => .character value (span.relocate r)

mutual

def Pattern.relocate : Pattern → Pattern
  | .wildcard span => .wildcard (span.relocate r)
  | .binding name span => .binding name (span.relocate r)
  | .literal value span => .literal (value.relocate r) (span.relocate r)
  | .constructor name arguments fields span =>
    .constructor name (arguments.map fun a => a.relocate)
      (match fields with | none => none | some fields => some (fields.map fun f => f.relocate))
      (span.relocate r)
  | .listCons head tail span => .listCons head.relocate tail.relocate (span.relocate r)
  | .list elements span => .list (elements.map fun e => e.relocate) (span.relocate r)
  | .tuple elements span => .tuple (elements.map fun e => e.relocate) (span.relocate r)

def FieldPattern.relocate : FieldPattern → FieldPattern
  | { name := name, pattern := pattern, span := span } =>
    { name := name
      pattern := match pattern with | none => none | some pattern => some pattern.relocate
      span := span.relocate r }

end

def OperationSpec.relocate (operation : OperationSpec) : OperationSpec :=
  { operation with
    typeExpr := operation.typeExpr.relocate r, span := operation.span.relocate r }

def Signature.relocate (signature : Signature) : Signature :=
  { signature with
    typeExpr := signature.typeExpr.relocate r, span := signature.span.relocate r }

def Ascription.relocate (ascription : Ascription) : Ascription :=
  { ascription with
    typeExpr := ascription.typeExpr.relocate r, span := ascription.span.relocate r }

mutual

def Expr.relocate : Expr → Expr
  | .literal value => .literal (value.relocate r)
  | .identifier name span => .identifier name (span.relocate r)
  | .constructor name span => .constructor name (span.relocate r)
  | .apply function argument span => .apply function.relocate argument.relocate (span.relocate r)
  | .binary left op right span => .binary left.relocate op right.relocate (span.relocate r)
  | .unary op operand span => .unary op operand.relocate (span.relocate r)
  | .conditional branches otherwise span =>
    .conditional (branches.map fun b => b.relocate)
      (match otherwise with | none => none | some value => some value.relocate)
      (span.relocate r)
  | .block statements result span =>
    .block (statements.map fun s => s.relocate) result.relocate (span.relocate r)
  | .cases scrutinees clauses span =>
    .cases (scrutinees.map fun s => s.relocate) (clauses.map fun c => c.relocate)
      (span.relocate r)
  | .lambda clauses span => .lambda (clauses.map fun c => c.relocate) (span.relocate r)
  | .handler clauses span => .handler (clauses.map fun c => c.relocate) (span.relocate r)
  | .list elements span => .list (elements.map fun e => e.relocate) (span.relocate r)
  | .listCons head tail span => .listCons head.relocate tail.relocate (span.relocate r)
  | .comprehension clauses body span =>
    .comprehension (clauses.map fun c => c.relocate) body.relocate (span.relocate r)
  | .tuple elements span => .tuple (elements.map fun e => e.relocate) (span.relocate r)
  | .record name arguments fields span =>
    .record name (arguments.map fun a => a.relocate) (fields.map fun f => f.relocate)
      (span.relocate r)
  | .recordUpdate target fields span =>
    .recordUpdate target.relocate (fields.map fun f => f.relocate) (span.relocate r)
  | .recordUpdateLambda fields span =>
    .recordUpdateLambda (fields.map fun f => f.relocate) (span.relocate r)
  | .field target name span => .field target.relocate name (span.relocate r)
  | .accessor path span => .accessor path (span.relocate r)
  | .operatorSection op left right span =>
    .operatorSection op (match left with | none => none | some left => some left.relocate)
      (match right with | none => none | some right => some right.relocate) (span.relocate r)

def GuardedBranch.relocate : GuardedBranch → GuardedBranch
  | { condition := condition, body := body, span := span } =>
    { condition := condition.relocate, body := body.relocate, span := span.relocate r }

def Clause.relocate : Clause → Clause
  | { patterns := patterns, body := body, span := span } =>
    { patterns := patterns.map (·.relocate r), body := body.relocate, span := span.relocate r }

def HandlerClause.relocate : HandlerClause → HandlerClause
  | .returning binder body span => .returning (binder.relocate r) body.relocate (span.relocate r)
  | .operation name arguments continuation body span =>
    .operation name (arguments.map (·.relocate r)) continuation body.relocate (span.relocate r)

def ComprehensionClause.relocate : ComprehensionClause → ComprehensionClause
  | .generator pattern source span =>
    .generator (pattern.relocate r) source.relocate (span.relocate r)
  | .filter condition span => .filter condition.relocate (span.relocate r)

def FieldAssign.relocate : FieldAssign → FieldAssign
  | { name := name, value := value, span := span } =>
    { name := name
      value := match value with | none => none | some value => some value.relocate
      span := span.relocate r }

def TermDef.relocate : TermDef → TermDef
  | { name := name, clauses := clauses, span := span } =>
    { name := name, clauses := clauses.map fun c => c.relocate, span := span.relocate r }

def FieldSpec.relocate : FieldSpec → FieldSpec
  | { name := name, typeExpr := typeExpr, defaultValue := defaultValue, span := span } =>
    { name := name
      typeExpr := typeExpr.relocate r
      defaultValue := match defaultValue with | none => none | some value => some value.relocate
      span := span.relocate r }

def ConstructorSpec.relocate : ConstructorSpec → ConstructorSpec
  | { name := name, positional := positional, named := named, implicit := implicit,
      span := span } =>
    { name := name
      positional := positional.map (·.relocate r)
      named := match named with | none => none | some fields => some (fields.map fun f => f.relocate)
      implicit := implicit
      span := span.relocate r }

def ClassMember.relocate : ClassMember → ClassMember
  | .signature signature => .signature (signature.relocate r)
  | .definition definition => .definition definition.relocate

def Declaration.relocate : Declaration → Declaration
  | .definition definition => .definition definition.relocate
  | .ascription ascription => .ascription (ascription.relocate r)
  | .data name parameters constructors span =>
    .data name parameters (constructors.map fun c => c.relocate) (span.relocate r)
  | .effect name parameters operations span =>
    .effect name parameters (operations.map (·.relocate r)) (span.relocate r)
  | .typeClass name parameter superclasses members span =>
    .typeClass name parameter (superclasses.map (·.relocate r)) (members.map fun m => m.relocate)
      (span.relocate r)
  | .classInstance className head context members span =>
    .classInstance className (head.relocate r) (context.map (·.relocate r))
      (members.map fun m => m.relocate) (span.relocate r)

def Item.relocate : Item → Item
  | .declaration declaration => .declaration declaration.relocate
  | .bind pattern value span => .bind (pattern.relocate r) value.relocate (span.relocate r)
  | .expression value span => .expression value.relocate (span.relocate r)

end


def Statement.relocate : Statement → Statement
  | .item plain => .item (plain.relocate r)
  | .pending typeExpr span => .pending (typeExpr.relocate r) (span.relocate r)

def Module.relocate (source : Module) : Module where
  name := source.name
  declarations := source.declarations.map (·.relocate r)
  span := source.span.relocate r

def Parser.DefinitionLine.relocate (line : Parser.DefinitionLine) : Parser.DefinitionLine where
  ascription := line.ascription.map (·.relocate r)
  definition := line.definition.map (·.relocate r)

def Parser.Climb.relocate (climb : Parser.Climb) : Parser.Climb :=
  { climb with left := climb.left.relocate r }

def Label.relocate (label : Label) : Label := { label with span := label.span.relocate r }

def Diagnostic.relocate (diagnostic : Diagnostic) : Diagnostic :=
  { diagnostic with labels := diagnostic.labels.map (·.relocate r) }

instance : Relocatable Token := ⟨Token.relocate⟩
instance : Relocatable RowVariable := ⟨RowVariable.relocate⟩
instance : Relocatable TypeExpr := ⟨TypeExpr.relocate⟩
instance : Relocatable Constraint := ⟨Constraint.relocate⟩
instance : Relocatable Literal := ⟨Literal.relocate⟩
instance : Relocatable Pattern := ⟨Pattern.relocate⟩
instance : Relocatable FieldPattern := ⟨FieldPattern.relocate⟩
instance : Relocatable OperationSpec := ⟨OperationSpec.relocate⟩
instance : Relocatable Expr := ⟨Expr.relocate⟩
instance : Relocatable GuardedBranch := ⟨GuardedBranch.relocate⟩
instance : Relocatable Clause := ⟨Clause.relocate⟩
instance : Relocatable HandlerClause := ⟨HandlerClause.relocate⟩
instance : Relocatable ComprehensionClause := ⟨ComprehensionClause.relocate⟩
instance : Relocatable FieldAssign := ⟨FieldAssign.relocate⟩
instance : Relocatable TermDef := ⟨TermDef.relocate⟩
instance : Relocatable FieldSpec := ⟨FieldSpec.relocate⟩
instance : Relocatable ConstructorSpec := ⟨ConstructorSpec.relocate⟩
instance : Relocatable ClassMember := ⟨ClassMember.relocate⟩
instance : Relocatable Declaration := ⟨Declaration.relocate⟩
instance : Relocatable Item := ⟨Item.relocate⟩
instance : Relocatable Statement := ⟨Statement.relocate⟩
instance : Relocatable Module := ⟨Module.relocate⟩
instance : Relocatable Parser.DefinitionLine := ⟨Parser.DefinitionLine.relocate⟩
instance : Relocatable Parser.Climb := ⟨Parser.Climb.relocate⟩
instance : Relocatable Diagnostic := ⟨Diagnostic.relocate⟩

attribute [simp] Relocation.move Relocatable.relocate Span.relocate_join
  TypeExpr.relocate Constraint.relocate Pattern.relocate FieldPattern.relocate
  OperationSpec.relocate Signature.relocate Ascription.relocate Expr.relocate GuardedBranch.relocate Clause.relocate HandlerClause.relocate ComprehensionClause.relocate
  FieldAssign.relocate TermDef.relocate FieldSpec.relocate ConstructorSpec.relocate
  ClassMember.relocate Declaration.relocate Item.relocate

/-! ### What does not move -/

@[simp] theorem Token.relocate_kind (token : Token) : (token.relocate r).kind = token.kind := rfl

@[simp] theorem Token.relocate_value (token : Token) : (token.relocate r).value = token.value := rfl

@[simp] theorem Token.relocate_span (token : Token) :
    (token.relocate r).span = token.span.relocate r := rfl

@[simp] theorem Token.relocate_describe (token : Token) :
    (token.relocate r).describe = token.describe := rfl

@[simp] theorem Token.relocate_isOperator (token : Token) (spelling : String) :
    (token.relocate r).isOperator spelling = token.isOperator spelling := rfl

variable {r}

/-! ### Optional parts -/

@[simp] theorem TypeExpr.relocate_effectful (effects : List TypeExpr) (row : Option RowVariable)
    (result : Option TypeExpr) (span : Span) :
    (effectful effects row result span).relocate r =
      effectful (r.move effects) (r.move row) (r.move result) (r.move span) := by
  cases result <;> simp

@[simp] theorem Pattern.relocate_constructor (name : String) (arguments : List Pattern)
    (fields : Option (List FieldPattern)) (span : Span) :
    (constructor name arguments fields span).relocate r =
      constructor name (r.move arguments) (r.move fields) (r.move span) := by
  cases fields <;> simp

@[simp] theorem Expr.relocate_conditional (branches : List GuardedBranch)
    (otherwise : Option Expr) (span : Span) :
    (conditional branches otherwise span).relocate r =
      conditional (r.move branches) (r.move otherwise) (r.move span) := by
  cases otherwise <;> simp

@[simp] theorem Expr.relocate_operatorSection (op : String) (left right : Option Expr)
    (span : Span) :
    (operatorSection op left right span).relocate r =
      operatorSection op (r.move left) (r.move right) (r.move span) := by
  cases left <;> cases right <;> simp

@[simp] theorem FieldAssign.relocate_mk (name : String) (value : Option Expr) (span : Span) :
    (FieldAssign.mk name value span).relocate r = ⟨name, r.move value, r.move span⟩ := by
  cases value <;> simp

@[simp] theorem FieldSpec.relocate_mk (name : String) (typeExpr : TypeExpr)
    (defaultValue : Option Expr) (span : Span) :
    (FieldSpec.mk name typeExpr defaultValue span).relocate r =
      ⟨name, r.move typeExpr, r.move defaultValue, r.move span⟩ := by
  cases defaultValue <;> simp

@[simp] theorem Statement.relocate_item (plain : Item) :
    (item plain).relocate r = item (plain.relocate r) := rfl

@[simp] theorem Statement.relocate_ofDeclaration (declaration : Declaration) :
    (ofDeclaration declaration).relocate r = ofDeclaration (declaration.relocate r) := by
  simp [ofDeclaration, Statement.relocate, Item.relocate]

@[simp] theorem Statement.relocate_pending (typeExpr : TypeExpr) (span : Span) :
    (pending typeExpr span).relocate r = pending (typeExpr.relocate r) (span.relocate r) := rfl

@[simp] theorem Diagnostic.relocate_errorAt (kind : DiagnosticKind) (message : String)
    (span : Span) (notes expected : List String) :
    (errorAt kind message span notes expected).relocate r =
      errorAt kind message (span.relocate r) notes expected := rfl

@[simp] theorem Diagnostic.relocate_warningAt (kind : DiagnosticKind) (message : String)
    (span : Span) (notes : List String) :
    (warningAt kind message span notes).relocate r =
      warningAt kind message (span.relocate r) notes := rfl

/-! ### Places of trees -/

@[simp] theorem TypeExpr.relocate_span (type : TypeExpr) :
    (type.relocate r).span = type.span.relocate r := by
  cases type <;> simp [span]

theorem TypeExpr.relocate_asRowVariable? (type : TypeExpr) :
    (type.relocate r).asRowVariable? = r.move type.asRowVariable? := by
  cases type <;> simp [asRowVariable?, RowVariable.relocate]

@[simp] theorem Literal.relocate_span (literal : Literal) :
    (literal.relocate r).span = literal.span.relocate r := by
  cases literal <;> rfl

@[simp] theorem Literal.relocate_withSpan (literal : Literal) (place : Span) :
    (literal.withSpan place).relocate r = (literal.relocate r).withSpan (place.relocate r) := by
  cases literal <;> rfl

@[simp] theorem Literal.relocate_negate (literal : Literal) :
    literal.negate.relocate r = (literal.relocate r).negate := by
  cases literal <;> rfl

@[simp] theorem Pattern.relocate_span (pattern : Pattern) :
    (pattern.relocate r).span = pattern.span.relocate r := by
  cases pattern <;> simp [span]

@[simp] theorem Pattern.relocate_isBinder (pattern : Pattern) :
    (pattern.relocate r).isBinder = pattern.isBinder := by
  cases pattern <;> simp [isBinder]

@[simp] theorem Expr.relocate_span (expr : Expr) :
    (expr.relocate r).span = expr.span.relocate r := by
  cases expr <;> simp [span]

@[simp] theorem FieldAssign.relocate_name (field : FieldAssign) :
    (field.relocate r).name = field.name := by
  cases field; simp

@[simp] theorem FieldAssign.relocate_span (field : FieldAssign) :
    (field.relocate r).span = field.span.relocate r := by
  cases field; simp

@[simp] theorem Clause.relocate_patterns (clause : Clause) :
    (clause.relocate r).patterns = clause.patterns.map (Pattern.relocate r) := by
  cases clause; simp

@[simp] theorem Clause.relocate_span (clause : Clause) :
    (clause.relocate r).span = clause.span.relocate r := by
  cases clause; simp

@[simp] theorem Clause.relocate_body (clause : Clause) :
    (clause.relocate r).body = clause.body.relocate r := by
  cases clause; simp

@[simp] theorem FieldSpec.relocate_span (field : FieldSpec) :
    (field.relocate r).span = field.span.relocate r := by
  cases field; simp

@[simp] theorem TermDef.relocate_name (definition : TermDef) :
    (definition.relocate r).name = definition.name := by
  cases definition; simp

@[simp] theorem TermDef.relocate_append (first second : TermDef) :
    (first.relocate r).append (second.relocate r) = (first.append second).relocate r := by
  cases first; cases second; simp [TermDef.append]

theorem Parser.DefinitionLine.relocate_statements (line : DefinitionLine) :
    (line.relocate r).statements = r.move line.statements := by
  obtain ⟨ascription, definition⟩ := line
  cases ascription <;> cases definition <;>
    simp [DefinitionLine.relocate, DefinitionLine.statements, Relocation.move, Relocatable.relocate,
      Statement.ofDeclaration, Statement.ofDefinition]

theorem Parser.DefinitionLine.relocate_members (line : DefinitionLine) :
    (line.relocate r).members = r.move line.members := by
  obtain ⟨ascription, definition⟩ := line
  cases ascription <;> cases definition <;>
    simp [DefinitionLine.relocate, DefinitionLine.members, Relocation.move, Relocatable.relocate,
      Ascription.relocate, Signature.relocate]

/-! ### Lists of alternatives -/

section

variable {α β : Type} [Relocatable α] [Relocatable β]

theorem Relocation.move_filterMap {f : α → Option β}
    (hf : ∀ value, f (r.move value) = r.move (f value)) (list : List α) :
    (r.move list).filterMap f = r.move (list.filterMap f) := by
  induction list with
  | nil => rfl
  | cons first rest ih =>
    show List.filterMap f (r.move first :: r.move rest) = _
    rw [List.filterMap_cons, List.filterMap_cons, hf, ih]
    cases f first <;> rfl

theorem Relocation.move_filter {p : α → Bool} (hp : ∀ value, p (r.move value) = p value)
    (list : List α) : (r.move list).filter p = r.move (list.filter p) := by
  induction list with
  | nil => rfl
  | cons first rest ih =>
    show List.filter p (r.move first :: r.move rest) = _
    rw [List.filter_cons, List.filter_cons, hp, ih]
    split <;> rfl

theorem Relocation.move_append (first second : List α) :
    r.move (first ++ second) = r.move first ++ r.move second :=
  List.map_append

theorem Relocation.move_flatten (lists : List (List α)) :
    (r.move lists).flatten = r.move lists.flatten :=
  (List.map_flatten ..).symm

theorem Relocation.move_getLeft (list : List (α ⊕ β)) :
    (r.move list).filterMap Sum.getLeft? = r.move (list.filterMap Sum.getLeft?) :=
  move_filterMap (fun value => by cases value <;> rfl) list

theorem Relocation.move_getRight (list : List (α ⊕ β)) :
    (r.move list).filterMap Sum.getRight? = r.move (list.filterMap Sum.getRight?) :=
  move_filterMap (fun value => by cases value <;> rfl) list

end

/-! ### Lists with a tail -/

@[simp] theorem Pattern.relocate_listCons_foldr (elements : List Pattern) (tail : Pattern)
    (place : Span) :
    (elements.foldr (fun element rest => listCons element rest place) tail).relocate r =
      (elements.map (Pattern.relocate r)).foldr
        (fun element rest => listCons element rest (place.relocate r)) (tail.relocate r) := by
  induction elements with
  | nil => rfl
  | cons element rest ih => simp [ih]

@[simp] theorem Expr.relocate_listCons_foldr (elements : List Expr) (tail : Expr) (place : Span) :
    (elements.foldr (fun element rest => listCons element rest place) tail).relocate r =
      (elements.map (Expr.relocate r)).foldr
        (fun element rest => listCons element rest (place.relocate r)) (tail.relocate r) := by
  induction elements with
  | nil => rfl
  | cons element rest ih => simp [ih]

/-! ### Grouping -/

theorem mergeDefinitions_map {α : Type} {definition? : α → Option TermDef}
    {ofDefinition : TermDef → α} {move : α → α}
    (hdefinition : ∀ item, definition? (move item) = (definition? item).map (TermDef.relocate r))
    (hof : ∀ definition : TermDef, ofDefinition (definition.relocate r) =
      move (ofDefinition definition)) (items : List α) :
    mergeDefinitions definition? ofDefinition (items.map move) =
      (mergeDefinitions definition? ofDefinition items).map move := by
  have hstep : ∀ before item, mergeStep definition? ofDefinition (before.map move) (move item) =
      (mergeStep definition? ofDefinition before item).map move := by
    intro before item
    cases before with
    | nil => rfl
    | cons last rest =>
      simp only [mergeStep, List.map_cons, hdefinition]
      cases definition? last with
      | none => rfl
      | some first =>
        cases definition? item with
        | none => rfl
        | some second =>
          simp only [Option.map_some, TermDef.relocate_name, TermDef.relocate_append, hof]
          split <;> rfl
  have hfold : ∀ before, List.foldl (mergeStep definition? ofDefinition) (before.map move)
      (items.map move) =
      (List.foldl (mergeStep definition? ofDefinition) before items).map move := by
    induction items with
    | nil => exact fun _ => rfl
    | cons item rest ih =>
      intro before
      rw [List.map_cons, List.foldl_cons, List.foldl_cons, hstep, ih]
  have hwhole := hfold []
  rw [List.map_nil] at hwhole
  rw [mergeDefinitions, mergeDefinitions, hwhole, List.map_reverse]

namespace Statement

theorem relocate_definition? (statement : Statement) :
    (statement.relocate r).definition? = statement.definition?.map (TermDef.relocate r) := by
  cases statement with
  | pending => simp [definition?]
  | item plain =>
    cases plain with
    | declaration declaration => cases declaration <;> simp [definition?]
    | _ => simp [definition?]

theorem relocate_annotatedName? (statement : Statement) :
    (statement.relocate r).annotatedName? = statement.annotatedName? := by
  cases statement with
  | pending => simp [annotatedName?]
  | item plain =>
    cases plain with
    | declaration declaration => cases declaration <;> simp [annotatedName?]
    | _ => simp [annotatedName?]

theorem relocate_settle (target : Option String) (statement : Statement) :
    (statement.relocate r).settle target =
      ((statement.settle target).1.map (Item.relocate r),
        (statement.settle target).2.map (Diagnostic.relocate r)) := by
  cases statement with
  | pending typeExpr span => cases target <;> simp [settle]
  | item plain =>
    cases plain with
    | declaration declaration =>
      cases declaration with
      | ascription ascription =>
        obtain ⟨name, typeExpr, attachment, span⟩ := ascription
        cases attachment <;> cases target
        · simp [settle]
        · simp only [settle, Statement.relocate, Item.relocate, Declaration.relocate, Ascription.relocate]
          split <;> simp
        · simp [settle]
        · simp [settle]
      | _ => simp [settle]
    | _ => simp [settle]

/-- Moving the statements of a block moves what grouping makes of them and reports. -/
theorem relocate_group (statements : List Statement) :
    group (r.move statements) =
      (r.move (group statements).1, r.move (group statements).2) := by
  have hmerge : mergeDefinitions definition? ofDefinition (r.move statements) =
      (mergeDefinitions definition? ofDefinition statements).map (Statement.relocate r) :=
    mergeDefinitions_map relocate_definition? (fun definition => by simp [ofDefinition]) statements
  have hsettle : ∀ statements : List Statement,
      settleAll (statements.map (Statement.relocate r)) =
        (r.move (settleAll statements).1, r.move (settleAll statements).2) := by
    intro statements
    induction statements with
    | nil => rfl
    | cons statement rest ih =>
      have hname : (rest.map (Statement.relocate r)).head?.bind annotatedName? =
          rest.head?.bind annotatedName? := by
        cases rest with
        | nil => rfl
        | cons next others => exact relocate_annotatedName? next
      rw [List.map_cons, settleAll, settleAll, hname, ih, relocate_settle]
      simp only [Relocation.move, Relocatable.relocate, List.map_append, Option.toList_map]
  rw [group, group, hmerge, hsettle]

end Statement

end SableFrontend
