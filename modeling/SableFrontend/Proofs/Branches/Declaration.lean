import SableFrontend.Proofs.Branches.Expr
import SableFrontend.Proofs.Grammar.Entry
import SableFrontend.Proofs.Tree.Grouping

/-!
Where conditionals of declarations, statements and modules lack their last branch. `settles_produce`
ties the knot: by induction on the levels of nesting that are left, whatever is read without the
report of a missing branch may stand where it is put.
-/

namespace SableFrontend

open SableFrontend.Parser Outline

-- the grammar unfolds into larger terms than instances are looked for by default
set_option synthInstance.maxSize 2000

section

variable {k : Prop} {inner : Nested}

/-! ### Definitions -/

theorem gives_definitionBody (hinner : inner.Settles) {name : Token} {patterns : List Pattern} :
    (definitionBody inner name patterns).Gives k (Every Settled) := by
  refine .after fun _ => .bind (hinner.expression 0 _) fun body => .after fun span =>
    .pure fun hknown => every_node rfl rfl ?_
  have hclause : Every Settled (Clause.mk patterns body span) := every_clause hknown.2
  simpa [Every] using hclause

/-- A line stands where its definition may. -/
theorem every_line {line : DefinitionLine} : Every Settled line ↔ Every Settled line.definition := by
  have htrees : trees line =
      (line.ascription.map Ascription.outline).toList ++ trees line.definition := by
    obtain ⟨ascription, definition⟩ := line
    cases ascription <;> cases definition <;> rfl
  rw [Every, htrees, List.forall_mem_append]
  refine ⟨And.right, fun h => ⟨fun tree hmem => ?_, h⟩⟩
  obtain ⟨ascription, -, rfl⟩ := Option.map_eq_some_iff.1 (Option.mem_toList.1 hmem)
  exact ascription.settled

theorem gives_annotatedDefinition (hinner : inner.Settles) {name : Token} :
    (annotatedDefinition inner name).Gives k (Every Settled) := by
  have htype := hinner.typeExpr
  refine .after fun _ => .after fun _ => .after fun _ => .after fun _ => .ite (fun _ => ?_) fun _ => ?_
  · exact .after fun _ => .bind (gives_definitionBody hinner) fun _ =>
      .pure fun hknown => every_line.2 hknown.2
  · exact .pure fun _ => every_line.2 every_none

theorem gives_definition (hinner : inner.Settles) :
    (definition inner).Gives k (Every Settled) := by
  have hpattern := hinner.patternAtom
  refine .after fun name => .after fun _ => .ite (fun _ => gives_annotatedDefinition hinner)
    fun _ => .after fun patterns => .after fun _ => .bind (gives_definitionBody hinner) fun _ =>
      .pure fun hknown => every_line.2 hknown.2

theorem gives_pendingAscription (hinner : inner.Settles) :
    (pendingAscription inner).Gives k (Every Settled) := by
  have htype := hinner.typeExpr
  exact .after fun _ => .after fun _ => .after fun _ =>
    .pure fun _ => List.forall_mem_singleton.2 (Ascription.settled _)

/-! ### Data types -/

theorem gives_fieldSpec (hinner : inner.Settles) :
    (fieldSpec inner).Gives k (Every Settled) := by
  have htype := hinner.typeExpr
  have hrest : ∀ {k : Prop} (name : Token) (typeExpr : TypeExpr) (defaultValue : Option Expr),
      (k → Every Settled defaultValue) → (do
        return {
          name := name.value, typeExpr := typeExpr, defaultValue := defaultValue
          span := ← spanFrom name.span } : Parser FieldSpec).Gives k (Every Settled) := by
    refine fun name typeExpr defaultValue h => .after fun span => .pure fun hknown =>
      every_node rfl rfl ?_
    have hdefault := h hknown
    simpa [children, FieldSpec.outline, Every, or_imp, forall_and] using
      ⟨typeExpr.settled, hdefault⟩
  refine .after fun name => .after fun _ => .after fun typeExpr => .after fun _ =>
    .ite (fun _ => ?_) fun _ => ?_
  · exact .after fun _ => .after fun _ => .bind (.map (r := Every Settled) (hinner.expression 0 _))
      fun defaultValue => hrest name typeExpr defaultValue And.right
  · exact hrest name typeExpr none fun _ => every_none

theorem every_constructor {name : String} {positional : List TypeExpr}
    {named : Option (List FieldSpec)} {implicit : Bool} {span : Span} (h : Every Settled named) :
    Every Settled (ConstructorSpec.mk name positional named implicit span) := by
  refine every_node rfl rfl ?_
  have hpositional := every_settled_types positional
  simpa [children, ConstructorSpec.outline, Every, or_imp, forall_and] using ⟨hpositional, h⟩

theorem gives_constructorSpec (hinner : inner.Settles) :
    (constructorSpec inner).Gives k (Every Settled) := by
  have htype := hinner.typeAtom
  refine .after fun name => .after fun next => .ite (fun _ => ?_) fun _ => ?_
  · exact .after fun _ => .bind (.items fun _ => gives_fieldSpec hinner) fun named =>
      .after fun _ => .after fun _ => .pure fun hknown => every_constructor hknown.2
  · exact .after fun _ => .after fun _ => .pure fun _ => every_constructor every_none

theorem gives_dataItem (hinner : inner.Settles) : (dataItem inner).Gives k (Every Settled) :=
  .after fun _ => .ite (fun _ => .map (gives_fieldSpec hinner))
    fun _ => .map (gives_constructorSpec hinner)

instance : typeParameters.Lasting := by unfold typeParameters; infer_instance
instance (what : String) : (openBody what).Lasting := by unfold openBody; infer_instance

theorem gives_dataDeclaration (hinner : inner.Settles) :
    (dataDeclaration inner).Gives k (Every Settled) := by
  have hdata : ∀ {name : String} {parameters : List String} {constructors : List ConstructorSpec}
      {span : Span}, Every Settled constructors →
      Every Settled (Declaration.data name parameters constructors span) :=
    fun h => every_node rfl rfl (by simpa [children, Declaration.outline, Every] using h)
  refine .after fun _ => .after fun name => .after fun _ => .after fun _ =>
    .bind (.items fun _ => gives_dataItem hinner) fun entries => .after fun _ => .after fun span => ?_
  have hconstructors : Every Settled entries →
      Every Settled (entries.filterMap Sum.getRight?) := fun h =>
    h.subset (trees_rights_subset entries)
  dsimp only
  split
  · exact .pure fun hknown => hdata (hconstructors hknown.2)
  · refine .pure fun hknown => hdata (every_cons.2 ⟨every_constructor ?_, every_nil⟩)
    exact hknown.2.subset (trees_lefts_subset entries)
  · exact .after fun _ => .pure fun hknown => hdata (hconstructors hknown.2)

/-! ### Effects, type classes and instances -/

theorem OperationSpec.settled (operation : OperationSpec) : operation.outline.Settled :=
  settled_of_children rfl (by
    simpa [children, OperationSpec.outline] using operation.typeExpr.settled)

theorem gives_effectDeclaration (hinner : inner.Settles) :
    (effectDeclaration inner).Gives k (Every Settled) := by
  have htype := hinner.typeExpr
  have hoperation : (operationSpec inner).Lasting :=
    .after fun _ => by
      dsimp only
      split <;> infer_instance
  refine .after fun _ => .after fun _ => .after fun _ => .after fun _ => .after fun operations =>
    .after fun _ => .after fun _ => .pure fun _ => every_node rfl rfl ?_
  simpa [children, Declaration.outline] using fun operation _ => operation.settled

theorem Parser.Lasting.leadingContext (hinner : inner.Settles) (what : String) :
    (leadingContext inner what).Lasting := by
  have hcontext := hinner.context
  unfold Parser.leadingContext
  infer_instance

theorem Signature.settled (signature : Signature) : signature.outline.Settled :=
  settled_of_children rfl (by simpa [children, Signature.outline] using signature.typeExpr.settled)

theorem gives_classMember (hinner : inner.Settles) :
    (classMember inner).Gives k (Every Settled) := by
  refine .bind (gives_definition hinner) fun line => .pure fun hknown => ?_
  have hdefinition := every_line.1 hknown.2
  obtain ⟨ascription, definition⟩ := line
  rw [DefinitionLine.members, Every, trees_append, List.forall_mem_append]
  constructor
  · cases ascription with
    | none => exact every_nil
    | some ascription => exact List.forall_mem_singleton.2 (Signature.settled _)
  · cases definition with
    | none => exact every_nil
    | some definition => exact every_cons.2 ⟨hdefinition, every_nil⟩

theorem gives_classDeclaration (hinner : inner.Settles) :
    (classDeclaration inner).Gives k (Every Settled) := by
  have hcontext := Parser.Lasting.leadingContext hinner "superclass"
  refine .after fun _ => .after fun superclasses => .after fun _ => .after fun _ => .after fun _ =>
    .bind (.items fun _ => gives_classMember hinner) fun groups => .after fun _ => .after fun _ =>
      .pure fun hknown => every_node rfl rfl ?_
  have hmembers : Every Settled (mergeDefinitions ClassMember.definition? .definition
      groups.flatten) := by
    refine every_mergeDefinitions id id (fun _ => rfl) (fun {member} _ heq => ?_)
      (hknown.2.subset (by simp))
    cases member <;> cases heq
    rfl
  have hsuperclasses := every_settled_constraints superclasses
  simpa [children, Declaration.outline, Every, or_imp, forall_and] using ⟨hsuperclasses, hmembers⟩

theorem gives_instanceMember (hinner : inner.Settles) :
    (instanceMember inner).Gives k (Every Settled) := by
  have hrest : (do return (← definition inner).definition.toList : Parser (List TermDef)).Gives k
      (Every Settled) := by
    refine .bind (gives_definition hinner) fun line => .pure fun hknown => ?_
    have hdefinition := every_line.1 hknown.2
    cases hline : line.definition with
    | none => exact every_nil
    | some definition => exact every_cons.2 ⟨by rwa [hline] at hdefinition, every_nil⟩
  refine .after fun _ => .after fun _ => ?_
  dsimp only
  exact .ite (fun _ => .after fun _ => hrest) fun _ => hrest

theorem gives_instanceDeclaration (hinner : inner.Settles) :
    (instanceDeclaration inner).Gives k (Every Settled) := by
  have htype := hinner.typeAtom
  have hcontext := Parser.Lasting.leadingContext hinner "instance"
  refine .after fun _ => .after fun constraints => .after fun _ => .after fun head => .after fun _ =>
    .bind (.items fun _ => gives_instanceMember hinner) fun groups => .after fun _ =>
      .after fun _ => .pure fun hknown => every_node rfl rfl ?_
  have hmembers : Every Settled (mergeDefinitions some id groups.flatten) := by
    refine every_mergeDefinitions id id (fun _ => rfl) (fun heq => ?_) (hknown.2.subset (by simp))
    cases heq
    rfl
  have hconstraints := every_settled_constraints constraints
  simpa [children, Declaration.outline, Every, or_imp, forall_and] using
    ⟨head.settled, hconstraints, hmembers⟩

/-! ### Statements -/

/-- A conditional may lack its last branch as the expression of a statement. -/
theorem listed_expression {value : Expr} {span : Span} (h : value.outline.All Places)
    (hkind : value.outline.kind ≠ "ExprStmt") :
    Every Listed [Statement.item (.expression value span)] := by
  refine List.forall_mem_singleton.2 ⟨(all_iff _).2 ⟨?_, ?_⟩, fun hlacks => ?_⟩
  · intro field hfield child hchild
    rw [List.mem_singleton.1 hfield, OutlineField.parts_ofNode, List.mem_singleton] at hchild
    subst hchild
    rw [List.mem_singleton.1 hfield]
    exact ⟨fun _ => ⟨rfl, rfl⟩, fun h => absurd h hkind⟩
  · simpa [children, Item.outline] using h
  · simp [Item.outline] at hlacks
    exact absurd hlacks.1 (by simp)

theorem every_item {item : Item} (h : Every Settled item) :
    Every Listed [Statement.item item] :=
  (every_cons.2 ⟨h, every_nil⟩ : Every Settled [Statement.item item]).mono Settled.toListed

theorem gives_plainStatement (hinner : inner.Settles) {first : Token} :
    (plainStatement inner first).Gives k (Every Listed) := by
  have hpattern := hinner.pattern
  have hdefinition : ∀ {k}, (do
      return (← definition inner).statements : Parser (List Statement)).Gives k (Every Listed) :=
    .bind (gives_definition hinner) fun _ => .pure fun hknown => hknown.2.mono Settled.toListed
  have hexpression : ∀ {k}, (do
      let value ← inner.expression 0
      return [.item (.expression value value.span)] : Parser (List Statement)).Gives k
        (Every Listed) :=
    .bind (hinner.expression 0 _) fun value => .pure fun hknown =>
      have hvalue := hknown.2 _ List.mem_cons_self
      listed_expression hvalue.places hvalue.kind_ne
  refine .after fun stop => ?_
  split
  · refine .after fun pattern => .after fun _ => .after fun _ => .bind (hinner.expression 0 _)
      fun value => .after fun _ => .pure fun hknown => every_item (every_node rfl rfl ?_)
    have hvalue := hknown.2 _ List.mem_cons_self
    simpa [children, Item.outline, or_imp, forall_and] using ⟨pattern.settled, hvalue⟩
  · exact .ite (fun _ => .after fun _ => hdefinition) fun _ => hdefinition
  · exact .ite (fun _ => .after fun _ => hdefinition) fun _ => hdefinition
  · exact hexpression

theorem gives_statement (hinner : inner.Settles) :
    (statement inner).Gives k (Every Listed) := by
  have hdeclaration : ∀ {parser : Parser Declaration}, (∀ k, parser.Gives k (Every Settled)) →
      (do return [Statement.ofDeclaration (← parser)] : Parser (List Statement)).Gives k
        (Every Listed) :=
    fun hparser => .bind (hparser _) fun _ => .pure fun hknown => every_item hknown.2
  refine .after fun token => ?_
  split
  · exact hdeclaration fun _ => gives_dataDeclaration hinner
  · exact hdeclaration fun _ => gives_effectDeclaration hinner
  · exact hdeclaration fun _ => gives_classDeclaration hinner
  · exact hdeclaration fun _ => gives_instanceDeclaration hinner
  · exact .failWith
  · exact .bind (gives_pendingAscription hinner) fun _ => .pure fun hknown =>
      (every_cons.2 ⟨hknown.2, every_nil⟩).mono Settled.toListed
  · exact .bind (gives_conditional hinner) fun value => .pure fun hknown =>
      listed_expression hknown.2.1 value.kind_ne_statement
  · exact gives_plainStatement hinner

/-! ### Nesting -/

/-- What the answer of a production may be put into: statements are listed, all else may stand
anywhere. -/
def ExprRule.Fits : (rule : ExprRule) → rule.Answer → Prop
  | .statement => Every Listed
  | .expression _ | .operand => Every Settled

theorem settles_ofRules {budget : Nat} {rules : (rule : ExprRule) → Parser rule.Answer}
    (h : ∀ rule k, (rules rule).Gives k rule.Fits) : (Nested.ofRules budget rules).Settles where
  pattern := inferInstanceAs (patternAt budget).Lasting
  patternAtom := inferInstanceAs (Parser.patternAtom (patternAt budget)).Lasting
  typeExpr := inferInstanceAs (typeAt budget .type).Lasting
  typeAtom := inferInstanceAs (Parser.typeAtom (typeAt budget)).Lasting
  context := inferInstanceAs (Parser.context (typeAt budget)).Lasting
  expression minPower := h (.expression minPower)
  operand := h .operand
  statement := h .statement

theorem gives_produce (budget : Nat) (rule : ExprRule) :
    (produce budget rule).Gives k rule.Fits := by
  induction budget generalizing rule k with
  | zero => exact .throw
  | succ budget ih =>
    have hinner : (Nested.ofRules budget (produce budget)).Settles :=
      settles_ofRules fun rule k => ih rule
    cases rule with
    | expression => exact gives_expression hinner
    | operand => exact gives_operand hinner
    | statement => exact gives_statement hinner

end

/-! ### Modules -/

instance : reportTooDeep.Lasting := by unfold reportTooDeep; infer_instance

theorem gives_boundNesting {α : Type} {parser : Parser α} {k : Prop} {q : α → Prop}
    (h : parser.Gives k q) : (boundNesting parser).Gives k q := by
  refine .tryCatch h fun abort => ?_
  split
  · exact .after fun _ => .after fun _ => .throw
  · exact .throw

instance : moduleHeader.Lasting := by unfold moduleHeader; dsimp only; infer_instance

instance : optionalHeader.Lasting :=
  .after fun _ => by
    have hrecover : (recover moduleHeader).Lasting :=
      (Parser.Gives.recover (q := fun _ => True) (Parser.Lasting.gives moduleHeader True)
        trivial).lasting
    infer_instance

/-- Of what may be listed among statements, a declaration may stand anywhere. -/
theorem settled_declaration {declaration : Declaration} (h : declaration.outline.Listed) :
    declaration.outline.Settled :=
  ⟨h, by cases declaration <;> simp [Declaration.outline, TermDef.kind_outline, Ascription.outline]⟩

theorem gives_declarationsOnly {statements : List Statement} (h : k → Every Listed statements) :
    (declarationsOnly statements).Gives k (Every Settled) := by
  have hloop : ∀ kept : List Statement, (k → Every Settled kept) →
      (List.filterAuxM keepsAtTop statements kept).Gives k (Every Settled) := by
    induction statements generalizing k with
    | nil => exact fun kept hkept => .pure hkept
    | cons first rest ih =>
      intro kept hkept
      refine .bind (q := fun keep => keep = true → Every Settled first) ?_ fun keep =>
        ih (fun hknown => (every_cons.1 (h hknown.1)).2) _ fun hknown => ?_
      · cases first with
        | pending typeExpr span =>
          exact .pure fun _ _ => List.forall_mem_singleton.2 (Ascription.settled _)
        | item item =>
          cases item with
          | declaration declaration =>
            exact .pure fun hknown _ => List.forall_mem_singleton.2
              (settled_declaration ((every_cons.1 (h hknown)).1 _ List.mem_cons_self))
          | bind | expression => exact .after fun _ => .pure fun _ => nofun
      · cases keep with
        | true => exact every_cons.2 ⟨hknown.2 rfl, hkept hknown.1⟩
        | false => exact hkept hknown.1
  exact .bind (hloop [] fun _ => every_nil) fun _ => .pure fun hknown =>
    hknown.2.subset fun tree => mem_trees_reverse.1

theorem gives_moduleSource : moduleSource.Gives True fun source => source.outline.All Places := by
  refine .after fun _ => .after fun _ => .after fun name =>
    .bind (.items fun _ => gives_boundNesting (gives_produce _ .statement)) fun groups => ?_
  have hlisted : Every Listed groups → Every Listed (List.flatten groups) :=
    fun h => h.subset fun tree hmem => trees_flatten (α := Statement) groups ▸ hmem
  refine .bind (gives_declarationsOnly fun hknown => hlisted hknown.2) fun statements => ?_
  refine .after fun _ => .after fun _ => .pure fun hknown => places_of_children fun child hchild => ?_
  rw [children, Module.outline] at hchild
  simp only [List.flatMap_cons, List.flatMap_nil, OutlineField.parts_ofText?,
    OutlineField.parts_ofNodes, List.nil_append, List.append_nil, List.mem_map,
    List.mem_filterMap] at hchild
  obtain ⟨declaration, ⟨item, hitem, hdeclaration⟩, rfl⟩ := hchild
  cases item <;> cases hdeclaration
  exact every_list.1 (Statement.every_group id id hknown.2) _ hitem _ List.mem_cons_self

/-- If no conditional is reported to lack its last branch, then each one that lacks it is the
expression of a statement of a block, whatever else is wrong. -/
theorem places_of_parseSource {text file : String} {result : ParseResult}
    (h : parseSource text file = .ok result)
    (hnone : ∀ diagnostic ∈ result.diagnostics, diagnostic.kind ≠ .missingElseBranch)
    {source : Module} (hsource : source ∈ result.module?) : source.outline.All Places := by
  cases hlexes : Token.ofText text file with
  | error error =>
    rw [parseSource, hlexes] at h
    cases h
    cases hsource
  | ok tokens =>
    obtain ⟨stream, source', final, -, -, balanced, hrun, hmodule, hdiagnostics⟩ :=
      exists_moduleSource_of_parseSource hlexes h
    obtain rfl := Option.some.inj (hmodule.symm.trans hsource)
    have hmuted : (moduleSource stream .initial).2.log.muted = 0 :=
      (Entry.module.ran balanced).follows.muted_eq
    rw [hrun] at hmuted
    exact gives_moduleSource.answer hrun (fun _ => trivial) ⟨hmuted, fun diagnostic hmem =>
      hnone diagnostic (by rw [hdiagnostics]; exact Array.mem_toList_iff.2 hmem)⟩

end SableFrontend
