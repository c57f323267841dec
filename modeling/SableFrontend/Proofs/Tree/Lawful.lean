import SableFrontend.Proofs.Tree.Relocation

/-!
Laws of relocation. Moving every place to itself changes nothing, and moving twice is moving once to
where the second move leads. So trees that differ in their places only become the same when all
places are forgotten.
-/

namespace SableFrontend

/-- Every place stays. -/
def Relocation.id : Relocation := ⟨fun first => first, fun last => last⟩

/-- Moving first by one relocation, then by another. -/
def Relocation.andThen (r r' : Relocation) : Relocation :=
  ⟨fun first => r'.onStart (r.onStart first), fun last => r'.onStop (r.onStop last)⟩

/-- All places become the same. -/
def Relocation.forget : Relocation :=
  ⟨fun _ => { file := "", line := 0, column := 0, offset := 0 },
    fun _ => { line := 0, column := 0, offset := 0 }⟩

namespace Span

@[simp] theorem relocate_id (span : Span) : span.relocate .id = span := rfl

@[simp] theorem relocate_relocate (r r' : Relocation) (span : Span) :
    (span.relocate r).relocate r' = span.relocate (r.andThen r') := rfl

theorem relocate_forget (span span' : Span) : span.relocate .forget = span'.relocate .forget := rfl

end Span

@[simp] theorem Relocation.andThen_forget (r : Relocation) : r.andThen .forget = .forget := rfl

/-- What moving a value does is as it should be. -/
structure Relocation.LawfulAt {α : Type} (move : Relocation → α → α) (value : α) : Prop where
  move_id : move .id value = value
  move_move : ∀ r r', move r' (move r value) = move (r.andThen r') value

namespace Relocation.LawfulAt

variable {α : Type} {move : Relocation → α → α}

theorem map_id {list : List α} (h : ∀ value ∈ list, LawfulAt move value) :
    list.map (move .id) = list :=
  (List.map_congr_left fun value hmem => (h value hmem).move_id).trans (List.map_id list)

theorem map_comp {list : List α} (h : ∀ value ∈ list, LawfulAt move value) (r r' : Relocation) :
    list.map (move r' ∘ move r) = list.map (move (r.andThen r')) :=
  List.map_congr_left fun value hmem => (h value hmem).move_move r r'

end Relocation.LawfulAt

open Relocation (LawfulAt)
open Relocation.LawfulAt

/-! ### Types and patterns -/

@[simp] theorem RowVariable.relocate_id (row : RowVariable) : row.relocate .id = row := rfl

@[simp] theorem RowVariable.relocate_relocate (r r' : Relocation) (row : RowVariable) :
    (row.relocate r).relocate r' = row.relocate (r.andThen r') := rfl

mutual

theorem TypeExpr.lawfulAt (type : TypeExpr) : LawfulAt TypeExpr.relocate type := by
  match type with
  | .var _ _ | .con _ _ => exact ⟨by simp, by simp⟩
  | .app first second _ | .arrow first second _ =>
    have hfirst := first.lawfulAt
    have hsecond := second.lawfulAt
    exact ⟨by simp [hfirst.move_id, hsecond.move_id],
      by simp [hfirst.move_move, hsecond.move_move]⟩
  | .tuple elements _ =>
    have hall : ∀ e ∈ elements, LawfulAt TypeExpr.relocate e := fun e _ => e.lawfulAt
    exact ⟨by simp [map_id hall], by simp [map_comp hall]⟩
  | .effectful effects row none _ =>
    have hall : ∀ e ∈ effects, LawfulAt TypeExpr.relocate e := fun e _ => e.lawfulAt
    exact ⟨by cases row <;> simp [map_id hall], by cases row <;> simp [map_comp hall]⟩
  | .effectful effects row (some result) _ =>
    have hall : ∀ e ∈ effects, LawfulAt TypeExpr.relocate e := fun e _ => e.lawfulAt
    have hresult := result.lawfulAt
    exact ⟨by cases row <;> simp [map_id hall, hresult.move_id],
      by cases row <;> simp [map_comp hall, hresult.move_move]⟩
  | .qualified constraints body _ =>
    have hall : ∀ c ∈ constraints, LawfulAt Constraint.relocate c := fun c _ => c.lawfulAt
    have hbody := body.lawfulAt
    exact ⟨by simp [map_id hall, hbody.move_id], by simp [map_comp hall, hbody.move_move]⟩

theorem Constraint.lawfulAt (constraint : Constraint) :
    LawfulAt Constraint.relocate constraint := by
  match constraint with
  | { className := _, arguments := arguments, span := _ } =>
    have hall : ∀ a ∈ arguments, LawfulAt TypeExpr.relocate a := fun a _ => a.lawfulAt
    exact ⟨by simp [map_id hall], by simp [map_comp hall]⟩

end

theorem Literal.lawfulAt (literal : Literal) : LawfulAt Literal.relocate literal := by
  cases literal <;> exact ⟨rfl, fun _ _ => rfl⟩

mutual

theorem Pattern.lawfulAt (pattern : Pattern) : LawfulAt Pattern.relocate pattern := by
  match pattern with
  | .wildcard _ | .binding _ _ => exact ⟨by simp, by simp⟩
  | .literal value _ =>
    have hvalue := value.lawfulAt
    exact ⟨by simp [hvalue.move_id], by simp [hvalue.move_move]⟩
  | .constructor _ arguments none _ =>
    have hall : ∀ a ∈ arguments, LawfulAt Pattern.relocate a := fun a _ => a.lawfulAt
    exact ⟨by simp [map_id hall], by simp [map_comp hall]⟩
  | .constructor _ arguments (some fields) _ =>
    have hall : ∀ a ∈ arguments, LawfulAt Pattern.relocate a := fun a _ => a.lawfulAt
    have hfields : ∀ f ∈ fields, LawfulAt FieldPattern.relocate f := fun f _ => f.lawfulAt
    exact ⟨by simp [map_id hall, map_id hfields], by simp [map_comp hall, map_comp hfields]⟩
  | .listCons head tail _ =>
    have hhead := head.lawfulAt
    have htail := tail.lawfulAt
    exact ⟨by simp [hhead.move_id, htail.move_id], by simp [hhead.move_move, htail.move_move]⟩
  | .list elements _ | .tuple elements _ =>
    have hall : ∀ e ∈ elements, LawfulAt Pattern.relocate e := fun e _ => e.lawfulAt
    exact ⟨by simp [map_id hall], by simp [map_comp hall]⟩

theorem FieldPattern.lawfulAt (field : FieldPattern) : LawfulAt FieldPattern.relocate field := by
  match field with
  | { name := _, pattern := none, span := _ } => exact ⟨by simp, by simp⟩
  | { name := _, pattern := some pattern, span := _ } =>
    have hpattern := pattern.lawfulAt
    exact ⟨by simp [hpattern.move_id], by simp [hpattern.move_move]⟩

end

theorem OperationSpec.lawfulAt (operation : OperationSpec) :
    LawfulAt OperationSpec.relocate operation :=
  have htype := operation.typeExpr.lawfulAt
  ⟨by simp [htype.move_id], by simp [htype.move_move]⟩

/-! ### Expressions and declarations -/

mutual

theorem Expr.lawfulAt (expr : Expr) : LawfulAt Expr.relocate expr := by
  match expr with
  | .literal value =>
    have hvalue := value.lawfulAt
    exact ⟨by simp [hvalue.move_id], by simp [hvalue.move_move]⟩
  | .identifier _ _ | .constructor _ _ | .accessor _ _ => exact ⟨by simp, by simp⟩
  | .apply first second _ | .binary first _ second _ | .listCons first second _ =>
    have hfirst := first.lawfulAt
    have hsecond := second.lawfulAt
    exact ⟨by simp [hfirst.move_id, hsecond.move_id],
      by simp [hfirst.move_move, hsecond.move_move]⟩
  | .unary _ inner _ | .field inner _ _ =>
    have hinner := inner.lawfulAt
    exact ⟨by simp [hinner.move_id], by simp [hinner.move_move]⟩
  | .conditional branches none _ =>
    have hall : ∀ b ∈ branches, LawfulAt GuardedBranch.relocate b := fun b _ => b.lawfulAt
    exact ⟨by simp [map_id hall], by simp [map_comp hall]⟩
  | .conditional branches (some otherwise) _ =>
    have hall : ∀ b ∈ branches, LawfulAt GuardedBranch.relocate b := fun b _ => b.lawfulAt
    have hlast := otherwise.lawfulAt
    exact ⟨by simp [map_id hall, hlast.move_id], by simp [map_comp hall, hlast.move_move]⟩
  | .block statements result _ =>
    have hall : ∀ s ∈ statements, LawfulAt Item.relocate s := fun s _ => s.lawfulAt
    have hresult := result.lawfulAt
    exact ⟨by simp [map_id hall, hresult.move_id], by simp [map_comp hall, hresult.move_move]⟩
  | .cases scrutinees clauses _ =>
    have hall : ∀ s ∈ scrutinees, LawfulAt Expr.relocate s := fun s _ => s.lawfulAt
    have hclauses : ∀ c ∈ clauses, LawfulAt Clause.relocate c := fun c _ => c.lawfulAt
    exact ⟨by simp [map_id hall, map_id hclauses], by simp [map_comp hall, map_comp hclauses]⟩
  | .lambda clauses _ =>
    have hclauses : ∀ c ∈ clauses, LawfulAt Clause.relocate c := fun c _ => c.lawfulAt
    exact ⟨by simp [map_id hclauses], by simp [map_comp hclauses]⟩
  | .handler clauses _ =>
    have hclauses : ∀ c ∈ clauses, LawfulAt HandlerClause.relocate c := fun c _ => c.lawfulAt
    exact ⟨by simp [map_id hclauses], by simp [map_comp hclauses]⟩
  | .list elements _ | .tuple elements _ =>
    have hall : ∀ e ∈ elements, LawfulAt Expr.relocate e := fun e _ => e.lawfulAt
    exact ⟨by simp [map_id hall], by simp [map_comp hall]⟩
  | .comprehension clauses body _ =>
    have hclauses : ∀ c ∈ clauses, LawfulAt ComprehensionClause.relocate c :=
      fun c _ => c.lawfulAt
    have hbody := body.lawfulAt
    exact ⟨by simp [map_id hclauses, hbody.move_id], by simp [map_comp hclauses, hbody.move_move]⟩
  | .record _ arguments fields _ =>
    have hall : ∀ a ∈ arguments, LawfulAt Expr.relocate a := fun a _ => a.lawfulAt
    have hfields : ∀ f ∈ fields, LawfulAt FieldAssign.relocate f := fun f _ => f.lawfulAt
    exact ⟨by simp [map_id hall, map_id hfields], by simp [map_comp hall, map_comp hfields]⟩
  | .recordUpdate target fields _ =>
    have htarget := target.lawfulAt
    have hfields : ∀ f ∈ fields, LawfulAt FieldAssign.relocate f := fun f _ => f.lawfulAt
    exact ⟨by simp [htarget.move_id, map_id hfields],
      by simp [htarget.move_move, map_comp hfields]⟩
  | .recordUpdateLambda fields _ =>
    have hfields : ∀ f ∈ fields, LawfulAt FieldAssign.relocate f := fun f _ => f.lawfulAt
    exact ⟨by simp [map_id hfields], by simp [map_comp hfields]⟩
  | .operatorSection _ none none _ => exact ⟨by simp, by simp⟩
  | .operatorSection _ (some side) none _ | .operatorSection _ none (some side) _ =>
    have hside := side.lawfulAt
    exact ⟨by simp [hside.move_id], by simp [hside.move_move]⟩
  | .operatorSection _ (some left) (some right) _ =>
    have hleft := left.lawfulAt
    have hright := right.lawfulAt
    exact ⟨by simp [hleft.move_id, hright.move_id], by simp [hleft.move_move, hright.move_move]⟩

theorem GuardedBranch.lawfulAt (branch : GuardedBranch) :
    LawfulAt GuardedBranch.relocate branch := by
  match branch with
  | { condition := condition, body := body, span := _ } =>
    have hcondition := condition.lawfulAt
    have hbody := body.lawfulAt
    exact ⟨by simp [hcondition.move_id, hbody.move_id],
      by simp [hcondition.move_move, hbody.move_move]⟩

theorem Clause.lawfulAt (clause : Clause) : LawfulAt Clause.relocate clause := by
  match clause with
  | { patterns := patterns, body := body, span := _ } =>
    have hall : ∀ p ∈ patterns, LawfulAt Pattern.relocate p := fun p _ => p.lawfulAt
    have hbody := body.lawfulAt
    exact ⟨by simp [map_id hall, hbody.move_id], by simp [map_comp hall, hbody.move_move]⟩

theorem HandlerClause.lawfulAt (clause : HandlerClause) :
    LawfulAt HandlerClause.relocate clause := by
  match clause with
  | .returning binder body _ =>
    have hbinder := binder.lawfulAt
    have hbody := body.lawfulAt
    exact ⟨by simp [hbinder.move_id, hbody.move_id], by simp [hbinder.move_move, hbody.move_move]⟩
  | .operation _ arguments _ body _ =>
    have hall : ∀ a ∈ arguments, LawfulAt Pattern.relocate a := fun a _ => a.lawfulAt
    have hbody := body.lawfulAt
    exact ⟨by simp [map_id hall, hbody.move_id], by simp [map_comp hall, hbody.move_move]⟩

theorem ComprehensionClause.lawfulAt (clause : ComprehensionClause) :
    LawfulAt ComprehensionClause.relocate clause := by
  match clause with
  | .generator pattern source _ =>
    have hpattern := pattern.lawfulAt
    have hsource := source.lawfulAt
    exact ⟨by simp [hpattern.move_id, hsource.move_id],
      by simp [hpattern.move_move, hsource.move_move]⟩
  | .filter condition _ =>
    have hcondition := condition.lawfulAt
    exact ⟨by simp [hcondition.move_id], by simp [hcondition.move_move]⟩

theorem FieldAssign.lawfulAt (field : FieldAssign) : LawfulAt FieldAssign.relocate field := by
  match field with
  | { name := _, value := none, span := _ } => exact ⟨by simp, by simp⟩
  | { name := _, value := some value, span := _ } =>
    have hvalue := value.lawfulAt
    exact ⟨by simp [hvalue.move_id], by simp [hvalue.move_move]⟩

theorem TermDef.lawfulAt (definition : TermDef) : LawfulAt TermDef.relocate definition := by
  match definition with
  | { name := _, clauses := clauses, span := _ } =>
    have hclauses : ∀ c ∈ clauses, LawfulAt Clause.relocate c := fun c _ => c.lawfulAt
    exact ⟨by simp [map_id hclauses], by simp [map_comp hclauses]⟩

theorem FieldSpec.lawfulAt (field : FieldSpec) : LawfulAt FieldSpec.relocate field := by
  match field with
  | { name := _, typeExpr := typeExpr, defaultValue := none, span := _ } =>
    have htype := typeExpr.lawfulAt
    exact ⟨by simp [htype.move_id], by simp [htype.move_move]⟩
  | { name := _, typeExpr := typeExpr, defaultValue := some value, span := _ } =>
    have htype := typeExpr.lawfulAt
    have hvalue := value.lawfulAt
    exact ⟨by simp [htype.move_id, hvalue.move_id], by simp [htype.move_move, hvalue.move_move]⟩

theorem ConstructorSpec.lawfulAt (constructor : ConstructorSpec) :
    LawfulAt ConstructorSpec.relocate constructor := by
  match constructor with
  | { name := _, positional := positional, named := none, implicit := _, span := _ } =>
    have hall : ∀ p ∈ positional, LawfulAt TypeExpr.relocate p := fun p _ => p.lawfulAt
    exact ⟨by simp [map_id hall], by simp [map_comp hall]⟩
  | { name := _, positional := positional, named := some named, implicit := _, span := _ } =>
    have hall : ∀ p ∈ positional, LawfulAt TypeExpr.relocate p := fun p _ => p.lawfulAt
    have hnamed : ∀ f ∈ named, LawfulAt FieldSpec.relocate f := fun f _ => f.lawfulAt
    exact ⟨by simp [map_id hall, map_id hnamed], by simp [map_comp hall, map_comp hnamed]⟩

theorem ClassMember.lawfulAt (member : ClassMember) :
    LawfulAt ClassMember.relocate member := by
  match member with
  | .signature signature =>
    have htype := signature.typeExpr.lawfulAt
    exact ⟨by simp [htype.move_id], by simp [htype.move_move]⟩
  | .definition definition =>
    have hdefinition := definition.lawfulAt
    exact ⟨by simp [hdefinition.move_id], by simp [hdefinition.move_move]⟩

theorem Declaration.lawfulAt (declaration : Declaration) :
    LawfulAt Declaration.relocate declaration := by
  match declaration with
  | .definition definition =>
    have hdefinition := definition.lawfulAt
    exact ⟨by simp [hdefinition.move_id], by simp [hdefinition.move_move]⟩
  | .ascription ascription =>
    have htype := ascription.typeExpr.lawfulAt
    exact ⟨by simp [htype.move_id], by simp [htype.move_move]⟩
  | .data _ _ constructors _ =>
    have hall : ∀ c ∈ constructors, LawfulAt ConstructorSpec.relocate c := fun c _ => c.lawfulAt
    exact ⟨by simp [map_id hall], by simp [map_comp hall]⟩
  | .effect _ _ operations _ =>
    have hall : ∀ o ∈ operations, LawfulAt OperationSpec.relocate o := fun o _ => o.lawfulAt
    exact ⟨by simp only [Declaration.relocate, map_id hall, Span.relocate_id],
      by simp only [Declaration.relocate, List.map_map, map_comp hall, Span.relocate_relocate,
        implies_true]⟩
  | .typeClass _ _ superclasses members _ =>
    have hsuper : ∀ c ∈ superclasses, LawfulAt Constraint.relocate c := fun c _ => c.lawfulAt
    have hall : ∀ m ∈ members, LawfulAt ClassMember.relocate m := fun m _ => m.lawfulAt
    exact ⟨by simp [map_id hsuper, map_id hall], by simp [map_comp hsuper, map_comp hall]⟩
  | .classInstance _ head context members _ =>
    have hhead := head.lawfulAt
    have hcontext : ∀ c ∈ context, LawfulAt Constraint.relocate c := fun c _ => c.lawfulAt
    have hall : ∀ m ∈ members, LawfulAt TermDef.relocate m := fun m _ => m.lawfulAt
    exact ⟨by simp [hhead.move_id, map_id hcontext, map_id hall],
      by simp [hhead.move_move, map_comp hcontext, map_comp hall]⟩

theorem Item.lawfulAt (item : Item) : LawfulAt Item.relocate item := by
  match item with
  | .declaration declaration =>
    have hdeclaration := declaration.lawfulAt
    exact ⟨by simp [hdeclaration.move_id], by simp [hdeclaration.move_move]⟩
  | .bind pattern value _ =>
    have hpattern := pattern.lawfulAt
    have hvalue := value.lawfulAt
    exact ⟨by simp [hpattern.move_id, hvalue.move_id], by simp [hpattern.move_move, hvalue.move_move]⟩
  | .expression value _ =>
    have hvalue := value.lawfulAt
    exact ⟨by simp [hvalue.move_id], by simp [hvalue.move_move]⟩

end

theorem Statement.lawfulAt (statement : Statement) : LawfulAt Statement.relocate statement := by
  cases statement with
  | item item =>
    have hitem := item.lawfulAt
    exact ⟨by simp [hitem.move_id], by simp [hitem.move_move]⟩
  | pending typeExpr span =>
    have htype := typeExpr.lawfulAt
    exact ⟨by simp [htype.move_id], by simp [htype.move_move]⟩

theorem Module.lawfulAt (source : Module) : LawfulAt Module.relocate source := by
  have hall : ∀ d ∈ source.declarations, LawfulAt Declaration.relocate d := fun d _ => d.lawfulAt
  exact ⟨by simp [Module.relocate, map_id hall], by simp [Module.relocate, map_comp hall]⟩

theorem Diagnostic.lawfulAt (diagnostic : Diagnostic) :
    LawfulAt Diagnostic.relocate diagnostic := by
  have hall : ∀ l ∈ diagnostic.labels, LawfulAt Label.relocate l :=
    fun _ _ => ⟨rfl, fun _ _ => rfl⟩
  exact ⟨by simp [Diagnostic.relocate, map_id hall], by simp [Diagnostic.relocate, map_comp hall]⟩

/-! ### Laws as instances -/

/-- What moves as it should. -/
class LawfulRelocatable (α : Type) [Relocatable α] : Prop where
  lawfulAt : ∀ value : α, LawfulAt Relocatable.relocate value

namespace Relocation

variable {α : Type} [Relocatable α] [LawfulRelocatable α]

instance : LawfulRelocatable TypeExpr := ⟨TypeExpr.lawfulAt⟩
instance : LawfulRelocatable Pattern := ⟨Pattern.lawfulAt⟩
instance : LawfulRelocatable Expr := ⟨Expr.lawfulAt⟩
instance : LawfulRelocatable Declaration := ⟨Declaration.lawfulAt⟩
instance : LawfulRelocatable Item := ⟨Item.lawfulAt⟩
instance : LawfulRelocatable Statement := ⟨Statement.lawfulAt⟩
instance : LawfulRelocatable Module := ⟨Module.lawfulAt⟩
instance : LawfulRelocatable Diagnostic := ⟨Diagnostic.lawfulAt⟩
instance : LawfulRelocatable String := ⟨fun _ => ⟨rfl, fun _ _ => rfl⟩⟩
instance : LawfulRelocatable (Option α) := by
  refine ⟨fun value? => ?_⟩
  cases value? with
  | none => exact ⟨rfl, fun _ _ => rfl⟩
  | some value =>
    have hvalue := LawfulRelocatable.lawfulAt value
    exact ⟨congrArg some hvalue.move_id, fun r r' => congrArg some (hvalue.move_move r r')⟩
instance : LawfulRelocatable (List α) :=
  ⟨fun list => ⟨map_id fun value _ => LawfulRelocatable.lawfulAt value, fun r r' => by
    show List.map _ (List.map _ list) = _
    rw [List.map_map]
    exact map_comp (fun value _ => LawfulRelocatable.lawfulAt value) r r'⟩⟩

theorem move_id (value : α) : id.move value = value :=
  (LawfulRelocatable.lawfulAt value).move_id

theorem move_move (r r' : Relocation) (value : α) :
    r'.move (r.move value) = (r.andThen r').move value :=
  (LawfulRelocatable.lawfulAt value).move_move r r'

end Relocation

end SableFrontend
