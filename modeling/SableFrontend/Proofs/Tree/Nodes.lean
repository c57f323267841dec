import SableFrontend.Grammar.Declaration
import SableFrontend.Proofs.Tree.Grouping
import SableFrontend.Tree.Outlines

/-!
The nodes of trees. `Outline.All` says that something holds of a node and of every node below it, and
`Outlined.All` says so of whatever is made up of trees. What a list of trees shows is what its trees
show (`allNodes_iff`), so that a predicate that holds of the parts of a tree holds of the tree if it
holds of the node at its root.
-/

namespace SableFrontend

/-! ### Nodes of outlines -/

section

variable (p : Outline → Prop)

mutual

/-- A predicate holds of a node and of every node below it. -/
def Outline.All : Outline → Prop
  | { kind := kind, fields := fields, span := span } =>
    p { kind := kind, fields := fields, span := span } ∧ allFields fields

def allFields : List OutlineField → Prop
  | [] => True
  | field :: rest => field.All ∧ allFields rest

def OutlineField.All : OutlineField → Prop
  | { value := value, .. } => value.All

def OutlineValue.All : OutlineValue → Prop
  | .node value => value.All
  | .nodes values => allNodes values
  | _ => True

def allNodes : List Outline → Prop
  | [] => True
  | node :: rest => node.All ∧ allNodes rest

end

end

variable {p : Outline → Prop} {α β : Type}

/-- What holds of the nodes of a list of trees holds of those of each tree. -/
theorem allNodes_iff {outline : α → Outline} {outlines : List α → List Outline}
    (hnil : outlines [] = [])
    (hcons : ∀ first rest, outlines (first :: rest) = outline first :: outlines rest)
    {list : List α} : allNodes p (outlines list) ↔ ∀ tree ∈ list, (outline tree).All p := by
  induction list with
  | nil =>
    rw [hnil]
    exact ⟨fun _ _ hmem => absurd hmem List.not_mem_nil, fun _ => trivial⟩
  | cons first rest ih =>
    rw [hcons, List.forall_mem_cons, ← ih]
    exact Iff.rfl

theorem allFields_ofNode? {name : String} {rest : List OutlineField} {outline : α → Outline}
    {outline? : Option α → Option Outline} (hnone : outline? none = none)
    (hsome : ∀ tree, outline? (some tree) = some (outline tree)) {tree? : Option α} :
    allFields p (.ofNode? name (outline? tree?) :: rest) ↔
      (∀ tree ∈ tree?, (outline tree).All p) ∧ allFields p rest := by
  refine and_congr ?_ Iff.rfl
  cases tree? with
  | none =>
    rw [hnone]
    exact ⟨fun _ _ hmem => absurd hmem (Option.not_mem_none _), fun _ => trivial⟩
  | some tree =>
    rw [hsome]
    exact ⟨fun h _ hmem => Option.some.inj hmem ▸ h, fun h => h tree rfl⟩

/-! ### Square brackets -/

/-- What square brackets can be, where a sign and a body count as one. -/
inductive BracketUse where
  | record
  | update
  | accessor
  | operatorSection
  | clauses
  | block
  deriving DecidableEq, Repr

/-- What the square brackets of an expression of a kind are. -/
def BracketUse.ofKind? : String → Option BracketUse
  | "RecordExpr" => some record
  | "RecordUpdateExpr" | "RecordUpdateLambda" => some update
  | "AccessorLambda" => some accessor
  | "SectionExpr" => some operatorSection
  | "LambdaExpr" | "HandlerExpr" => some clauses
  | "BlockExpr" => some block
  | _ => none

/-- What square brackets of a form are. -/
def BracketForm.use? : BracketForm → Option BracketUse
  | record => some .record
  | recordUpdate => some .update
  | accessor => some .accessor
  | operatorSection | leftSection => some .operatorSection
  | lambda | handler => some .clauses
  | block => some .block
  | ambiguous => none

/-- A predicate holds of all nodes that are no expressions in square brackets. -/
def HoldsOutside (p : Outline → Prop) : Prop :=
  ∀ node, BracketUse.ofKind? node.kind = none → p node

mutual

theorem TypeExpr.all_outline (hp : HoldsOutside p) (type : TypeExpr) : type.outline.All p := by
  match type with
  | .var _ _ => exact ⟨hp _ rfl, trivial, trivial⟩
  | .con _ _ => exact ⟨hp _ rfl, trivial, trivial⟩
  | .app function argument _ =>
    exact ⟨hp _ rfl, function.all_outline hp, argument.all_outline hp, trivial⟩
  | .arrow parameter result _ =>
    exact ⟨hp _ rfl, parameter.all_outline hp, result.all_outline hp, trivial⟩
  | .tuple elements _ => exact ⟨hp _ rfl, all_typeOutlines hp elements, trivial⟩
  | .effectful effects row result _ =>
    refine ⟨hp _ rfl, all_typeOutlines hp effects, ?_, ?_, trivial⟩
    · cases row with
      | none => trivial
      | some row => exact ⟨hp _ rfl, trivial, trivial⟩
    · match result with
      | none => trivial
      | some result => exact result.all_outline hp
  | .qualified constraints body _ =>
    exact ⟨hp _ rfl, all_constraintOutlines hp constraints, body.all_outline hp, trivial⟩

theorem all_typeOutlines (hp : HoldsOutside p) (types : List TypeExpr) : allNodes p (typeOutlines types) := by
  match types with
  | [] => trivial
  | type :: rest => exact ⟨type.all_outline hp, all_typeOutlines hp rest⟩

theorem Constraint.all_outline (hp : HoldsOutside p) (constraint : Constraint) : constraint.outline.All p := by
  match constraint with
  | { arguments := arguments, .. } =>
    exact ⟨hp _ rfl, trivial, all_typeOutlines hp arguments, trivial⟩

theorem all_constraintOutlines (hp : HoldsOutside p) (constraints : List Constraint) :
    allNodes p (constraintOutlines constraints) := by
  match constraints with
  | [] => trivial
  | constraint :: rest => exact ⟨constraint.all_outline hp, all_constraintOutlines hp rest⟩

end

theorem Literal.all_outline (hp : HoldsOutside p) (literal : Literal) : literal.outline.All p := by
  cases literal <;> exact ⟨hp _ rfl, trivial, trivial⟩

mutual

theorem Pattern.all_outline (hp : HoldsOutside p) (pattern : Pattern) : pattern.outline.All p := by
  match pattern with
  | .wildcard _ => exact ⟨hp _ rfl, trivial⟩
  | .binding _ _ => exact ⟨hp _ rfl, trivial, trivial⟩
  | .literal value _ => exact ⟨hp _ rfl, value.all_outline hp, trivial⟩
  | .constructor _ arguments fields _ =>
    refine ⟨hp _ rfl, trivial, all_patternOutlines hp arguments, ?_, trivial⟩
    match fields with
    | none => trivial
    | some fields => exact all_fieldPatternOutlines hp fields
  | .listCons head tail _ => exact ⟨hp _ rfl, head.all_outline hp, tail.all_outline hp, trivial⟩
  | .list elements _ => exact ⟨hp _ rfl, all_patternOutlines hp elements, trivial⟩
  | .tuple elements _ => exact ⟨hp _ rfl, all_patternOutlines hp elements, trivial⟩

theorem all_patternOutlines (hp : HoldsOutside p) (patterns : List Pattern) : allNodes p (patternOutlines patterns) := by
  match patterns with
  | [] => trivial
  | pattern :: rest => exact ⟨pattern.all_outline hp, all_patternOutlines hp rest⟩

theorem FieldPattern.all_outline (hp : HoldsOutside p) (field : FieldPattern) : field.outline.All p := by
  match field with
  | { pattern := none, .. } => exact ⟨hp _ rfl, trivial, trivial, trivial⟩
  | { pattern := some pattern, .. } => exact ⟨hp _ rfl, trivial, pattern.all_outline hp, trivial⟩

theorem all_fieldPatternOutlines (hp : HoldsOutside p) (fields : List FieldPattern) :
    allNodes p (fieldPatternOutlines fields) := by
  match fields with
  | [] => trivial
  | field :: rest => exact ⟨field.all_outline hp, all_fieldPatternOutlines hp rest⟩

end

/-! ### Trees and what is made up of them -/

/-- What is made up of trees, so that something can be said of all nodes of it. -/
class Outlined (α : Type) where
  All (p : Outline → Prop) : α → Prop

namespace Outlined

variable [Outlined α] [Outlined β]

instance : Outlined Expr := ⟨fun p expr => expr.outline.All p⟩
instance : Outlined GuardedBranch := ⟨fun p branch => branch.outline.All p⟩
instance : Outlined Clause := ⟨fun p clause => clause.outline.All p⟩
instance : Outlined HandlerClause := ⟨fun p clause => clause.outline.All p⟩
instance : Outlined ComprehensionClause := ⟨fun p clause => clause.outline.All p⟩
instance : Outlined FieldAssign := ⟨fun p field => field.outline.All p⟩
instance : Outlined TermDef := ⟨fun p definition => definition.outline.All p⟩
instance : Outlined FieldSpec := ⟨fun p field => field.outline.All p⟩
instance : Outlined ConstructorSpec := ⟨fun p constructor => constructor.outline.All p⟩
instance : Outlined ClassMember := ⟨fun p member => member.outline.All p⟩
instance : Outlined Declaration := ⟨fun p declaration => declaration.outline.All p⟩
instance : Outlined Item := ⟨fun p item => item.outline.All p⟩
instance : Outlined Module := ⟨fun p source => source.outline.All p⟩
instance : Outlined Parser.Climb := ⟨fun p climb => climb.left.outline.All p⟩
instance : Outlined (List α) := ⟨fun p list => ∀ value ∈ list, All p value⟩
instance : Outlined (Option α) := ⟨fun p value? => ∀ value ∈ value?, All p value⟩
instance : Outlined (α ⊕ β) := ⟨fun p value => value.elim (All p) (All p)⟩
instance : Outlined Statement := ⟨fun p statement => ∀ item, statement = .item item → All p item⟩
instance : Outlined Parser.DefinitionLine := ⟨fun p line => All p line.definition⟩
instance : (rule : ExprRule) → Outlined rule.Answer
  | .expression _ | .operand => inferInstanceAs (Outlined Expr)
  | .statement => inferInstanceAs (Outlined (List Statement))

/-! ### Parts -/

theorem all_nil : All p ([] : List α) := fun _ hmem => absurd hmem List.not_mem_nil

theorem all_none : All p (none : Option α) := fun _ hmem => absurd hmem (Option.not_mem_none _)

theorem all_some {value : α} (h : All p value) : All p (some value) :=
  fun _ hmem => Option.some.inj hmem ▸ h

theorem all_cons {first : α} {rest : List α} (hfirst : All p first) (hrest : All p rest) :
    All p (first :: rest) :=
  List.forall_mem_cons.2 ⟨hfirst, hrest⟩

theorem all_reverse {list : List α} (h : All p list) : All p list.reverse :=
  fun value hmem => h value (List.mem_reverse.1 hmem)

theorem all_flatten {lists : List (List α)} (h : All p lists) : All p lists.flatten := by
  intro value hmem
  obtain ⟨list, hlist, hmem⟩ := List.mem_flatten.1 hmem
  exact h list hlist value hmem

theorem all_filterMap {γ : Type} {list : List α} {part? : α → Option γ} [Outlined γ]
    (hpart : ∀ value part, part? value = some part → All p value → All p part) (h : All p list) :
    All p (list.filterMap part?) := by
  intro part hmem
  obtain ⟨value, hvalue, heq⟩ := List.mem_filterMap.1 hmem
  exact hpart value part heq (h value hvalue)

theorem all_present {list : List (Option α)} (h : All p list) : All p (list.filterMap id) :=
  all_filterMap (fun _ value heq hall => by exact hall value heq) h

theorem all_lefts {entries : List (α ⊕ β)} (h : All p entries) :
    All p (entries.filterMap Sum.getLeft?) :=
  all_filterMap (fun _ _ hleft hall => by
    obtain rfl := Sum.getLeft?_eq_some_iff.1 hleft
    exact hall) h

theorem all_rights {entries : List (α ⊕ β)} (h : All p entries) :
    All p (entries.filterMap Sum.getRight?) :=
  all_filterMap (fun _ _ hright hall => by
    obtain rfl := Sum.getRight?_eq_some_iff.1 hright
    exact hall) h

section

variable (hp : HoldsOutside p)
include hp

theorem all_fieldAssign {name : String} {value : Option Expr} {span : Span} (h : All p value) :
    All p (FieldAssign.mk name value span) :=
  ⟨hp _ rfl, trivial, (allFields_ofNode? rfl fun _ => rfl).2 ⟨h, trivial⟩⟩

theorem all_clause_iff {clause : Clause} : All p clause ↔ All p clause.body := by
  cases clause with
  | mk patterns body span =>
    exact ⟨fun h => h.2.2.1, fun h => ⟨hp _ rfl, all_patternOutlines hp patterns, h, trivial⟩⟩

theorem all_termDef_iff {definition : TermDef} :
    All p definition ↔ All p definition.clauses := by
  cases definition with
  | mk name clauses span =>
    refine ⟨fun h => (allNodes_iff rfl fun _ _ => rfl).1 h.2.2.1, fun h => ?_⟩
    exact ⟨hp _ rfl, trivial, (allNodes_iff rfl fun _ _ => rfl).2 h, trivial⟩

theorem all_ascription {ascription : Ascription} :
    All p (Item.declaration (.ascription ascription)) :=
  ⟨hp _ rfl, trivial, ascription.typeExpr.all_outline hp, trivial, trivial⟩

/-! ### Grouping -/

/-- Merging makes no new nodes but those of definitions. -/
theorem all_mergeDefinitions {definition? : α → Option TermDef} {ofDefinition : TermDef → α}
    {items : List α} (hof : ∀ definition, All p definition ↔ All p (ofDefinition definition))
    (hdefinition : ∀ item definition, definition? item = some definition →
      (All p item ↔ All p definition))
    (h : All p items) : All p (mergeDefinitions definition? ofDefinition items) := by
  have hloop : ∀ before, All p before →
      All p (items.foldl (mergeStep definition? ofDefinition) before) := by
    induction items with
    | nil => exact fun _ hbefore => hbefore
    | cons item rest ih =>
      obtain ⟨hitem, hrest⟩ := List.forall_mem_cons.1 h
      refine fun before hbefore => ih hrest _ ?_
      cases before with
      | nil => exact all_cons hitem all_nil
      | cons last rest =>
        obtain ⟨hlast, hbefore'⟩ := List.forall_mem_cons.1 hbefore
        unfold mergeStep
        dsimp only
        split
        · next first second hfirst hsecond =>
          have hfirst' := (all_termDef_iff hp).1 ((hdefinition _ _ hfirst).1 hlast)
          have hsecond' := (all_termDef_iff hp).1 ((hdefinition _ _ hsecond).1 hitem)
          split
          · refine all_cons ((hof _).1 ((all_termDef_iff hp).2 fun clause hmem => ?_)) hbefore'
            exact (List.mem_append.1 hmem).elim (hfirst' clause) (hsecond' clause)
          · exact all_cons hitem hbefore
        · exact all_cons hitem hbefore
  exact all_reverse (hloop [] all_nil)

theorem all_settle {statement : Statement} {target : Option String} (h : All p statement) :
    All p (statement.settle target).1 := by
  cases statement with
  | pending typeExpr span =>
    cases target with
    | none => exact all_none
    | some name => exact all_some (all_ascription hp)
  | item plain =>
    have hitem : All p plain := h plain rfl
    cases plain with
    | declaration declaration =>
      cases declaration with
      | ascription ascription =>
        obtain ⟨name, typeExpr, attachment, span⟩ := ascription
        cases attachment <;> cases target <;> first | exact all_none | exact all_some hitem
      | _ => exact all_some hitem
    | _ => exact all_some hitem

/-- Grouping makes no new nodes but those of definitions and annotations. -/
theorem all_group {statements : List Statement} (h : All p statements) :
    All p (Statement.group statements).1 := by
  have hmerged : All p (mergeDefinitions Statement.definition? .ofDefinition statements) := by
    refine all_mergeDefinitions hp (fun definition => ?_) (fun statement definition hdefinition => ?_) h
    · exact ⟨fun h item heq => by cases heq; exact h, fun h => h _ rfl⟩
    · unfold Statement.definition? at hdefinition
      split at hdefinition
      · cases hdefinition
        exact ⟨fun h => h _ rfl, fun h item heq => by cases heq; exact h⟩
      · cases hdefinition
  have hsettled : ∀ list, All p list → All p (Statement.settleAll list).1 := by
    intro list hlist
    induction list with
    | nil => exact all_nil
    | cons first rest ih =>
      obtain ⟨hfirst, hrest⟩ := List.forall_mem_cons.1 hlist
      rw [Statement.settleAll_cons]
      intro item hmem
      rcases List.mem_append.1 hmem with hmem | hmem
      · exact all_settle hp hfirst item (Option.mem_toList.1 hmem)
      · exact ih hrest item hmem
  exact hsettled _ hmerged

end

end Outlined

end SableFrontend
