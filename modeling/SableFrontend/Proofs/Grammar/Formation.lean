import SableFrontend.Proofs.Grammar.Brackets
import SableFrontend.Proofs.Token.Tiling

/-!
The nodes of declarations, statements and whole sources. `forms_produce` ties the knot: by induction
on the levels of nesting that are left, every production answers trees whose nodes in square brackets
are formed as their openers say. `formed_of_ofText` says so of everything that is read from a text.
-/

namespace SableFrontend

open TokenStream SableFrontend.Parser Outlined

namespace Setting

variable {set : Setting} {inner : Nested}

/-! ### Definitions -/

theorem yields_definitionBody (hinner : set.Forms inner) {name : Token} {patterns : List Pattern} :
    set.Yields (definitionBody inner name patterns) := by
  refine .after fun _ => .bind (hinner.expression 0) fun body hbody => .after fun span => .pure ?_
  exact (all_termDef_iff holdsOutside_formed).2
    (all_cons ((all_clause_iff holdsOutside_formed).2 hbody) all_nil)

theorem yields_annotatedDefinition (hinner : set.Forms inner) {name : Token} :
    set.Yields (annotatedDefinition inner name) := by
  refine .after fun _ => .after fun typeExpr => .after fun span => .after fun _ => .ite
    (fun _ => .after fun _ => ?_) fun _ => .pure all_none
  exact .bind (yields_definitionBody hinner) fun definition h => .pure (all_some h)

theorem yields_definition (hinner : set.Forms inner) : set.Yields (definition inner) := by
  refine .after fun name => .after fun _ => .ite (fun _ => yields_annotatedDefinition hinner)
    fun _ => .after fun patterns => .after fun _ => ?_
  exact .bind (yields_definitionBody hinner) fun definition h => .pure (all_some h)

theorem all_statements {p : Outline → Prop} (hp : HoldsOutside p) {line : DefinitionLine}
    (h : All p line) : All p line.statements := by
  intro statement hmem
  rcases List.mem_append.1 hmem with hmem | hmem
  · obtain ⟨ascription, -, rfl⟩ := Option.map_eq_some_iff.1 (Option.mem_toList.1 hmem)
    rintro _ ⟨⟩
    exact all_ascription hp
  · obtain ⟨definition, hdefinition, rfl⟩ := Option.map_eq_some_iff.1 (Option.mem_toList.1 hmem)
    rintro _ ⟨⟩
    exact h definition hdefinition

theorem all_members {p : Outline → Prop} (hp : HoldsOutside p) {line : DefinitionLine}
    (h : All p line) : All p line.members := by
  intro member hmem
  rcases List.mem_append.1 hmem with hmem | hmem
  · obtain ⟨ascription, -, rfl⟩ := Option.map_eq_some_iff.1 (Option.mem_toList.1 hmem)
    exact ⟨hp _ rfl, trivial, ascription.typeExpr.all_outline hp, trivial⟩
  · obtain ⟨definition, hdefinition, rfl⟩ := Option.map_eq_some_iff.1 (Option.mem_toList.1 hmem)
    exact h definition hdefinition

/-! ### Declarations -/

theorem yields_fieldSpec (hinner : set.Forms inner) : set.Yields (fieldSpec inner) := by
  have hfield : ∀ (name : Token) (typeExpr : TypeExpr) (defaultValue : Option Expr),
      All set.stream.Formed defaultValue → set.Yields (do return ({
        name := name.value, typeExpr := typeExpr, defaultValue := defaultValue
        span := ← spanFrom name.span } : FieldSpec)) :=
    fun name typeExpr defaultValue h => .after fun span => .pure ⟨holdsOutside_formed _ rfl,
      trivial, typeExpr.all_outline holdsOutside_formed, (allFields_ofNode? rfl fun _ => rfl).2
      ⟨h, trivial⟩⟩
  refine .after fun name => .after fun _ => .after fun typeExpr => .after fun _ => .ite (fun _ => ?_)
    fun _ => .bind (.pure all_none) (hfield name typeExpr)
  refine .after fun _ => .after fun _ => ?_
  exact .bind (.map (hinner.expression 0) fun _ h => all_some h) (hfield name typeExpr)

theorem yields_constructorSpec (hinner : set.Forms inner) :
    set.Yields (constructorSpec inner) := by
  refine .after fun name => .after fun next => .ite (fun _ => .after fun _ => ?_) fun _ => ?_
  · refine .bind (.items (yields_fieldSpec hinner)) fun named hnamed => ?_
    exact .after fun _ => .after fun _ => .pure ⟨holdsOutside_formed _ rfl, trivial, trivial,
      (allNodes_iff rfl fun _ _ => rfl).2 hnamed, trivial, trivial⟩
  · exact .after fun positional => .after fun _ => .pure ⟨holdsOutside_formed _ rfl, trivial,
      all_typeOutlines holdsOutside_formed positional, trivial, trivial, trivial⟩

theorem yields_dataItem (hinner : set.Forms inner) : set.Yields (dataItem inner) :=
  .after fun _ => .ite (fun _ => .map (yields_fieldSpec hinner) fun _ h => h)
    fun _ => .map (yields_constructorSpec hinner) fun _ h => h

theorem yields_dataDeclaration (hinner : set.Forms inner) :
    set.Yields (dataDeclaration inner) := by
  refine .after fun _ => .after fun name => .after fun parameters => .after fun _ => ?_
  refine .bind (.items (yields_dataItem hinner)) fun entries hentries => ?_
  refine .after fun _ => .after fun span => ?_
  have hdata : ∀ constructors, All set.stream.Formed constructors →
      All set.stream.Formed (Declaration.data name.value parameters constructors span) :=
    fun constructors h => ⟨holdsOutside_formed _ rfl, trivial, trivial,
      (allNodes_iff rfl fun _ _ => rfl).2 h, trivial⟩
  have hconstructors := all_rights hentries
  have hfields := all_lefts hentries
  dsimp only
  split
  · exact .pure (hdata _ hconstructors)
  · refine .pure (hdata _ (all_cons ?_ all_nil))
    exact ⟨holdsOutside_formed _ rfl, trivial, trivial, (allNodes_iff rfl fun _ _ => rfl).2 hfields,
      trivial, trivial⟩
  · exact .after fun _ => .pure (hdata _ hconstructors)

theorem yields_effectDeclaration : set.Yields (effectDeclaration inner) := by
  refine .after fun _ => .after fun _ => .after fun _ => .after fun _ => .after fun operations =>
    .after fun _ => .after fun _ => .pure ⟨holdsOutside_formed _ rfl, trivial, trivial, ?_, trivial⟩
  have hoperation : ∀ operation ∈ operations, operation.outline.All set.stream.Formed :=
    fun operation _ => ⟨holdsOutside_formed _ rfl, trivial,
      operation.typeExpr.all_outline holdsOutside_formed, trivial⟩
  exact (@allNodes_iff _ _ OperationSpec.outline (List.map OperationSpec.outline) rfl
    (fun _ _ => rfl) operations).2 hoperation

theorem yields_classMember (hinner : set.Forms inner) : set.Yields (classMember inner) :=
  .bind (yields_definition hinner) fun _ h => .pure (all_members holdsOutside_formed h)

theorem yields_classDeclaration (hinner : set.Forms inner) :
    set.Yields (classDeclaration inner) := by
  refine .after fun _ => .after fun superclasses => .after fun _ => .after fun _ => .after fun _ => ?_
  refine .bind (.items (yields_classMember hinner)) fun groups hgroups => ?_
  refine .after fun _ => .after fun _ => .pure ⟨holdsOutside_formed _ rfl, trivial, trivial,
    all_constraintOutlines holdsOutside_formed superclasses,
    (allNodes_iff rfl fun _ _ => rfl).2 ?_, trivial⟩
  refine all_mergeDefinitions holdsOutside_formed (fun _ => Iff.rfl)
    (fun member definition hdefinition => ?_) (all_flatten hgroups)
  cases member <;> cases hdefinition
  exact Iff.rfl

theorem yields_instanceMember (hinner : set.Forms inner) : set.Yields (instanceMember inner) := by
  have hmember : set.Yields (do return (← definition inner).definition.toList) :=
    .bind (yields_definition hinner) fun line h =>
      .pure fun definition hmem => h definition (Option.mem_toList.1 hmem)
  exact .after fun _ => .after fun _ => .ite (fun _ => .after fun _ => hmember) fun _ => hmember

theorem yields_instanceDeclaration (hinner : set.Forms inner) :
    set.Yields (instanceDeclaration inner) := by
  refine .after fun _ => .after fun context => .after fun _ => .after fun head => .after fun _ => ?_
  refine .bind (.items (yields_instanceMember hinner)) fun groups hgroups => ?_
  refine .after fun _ => .after fun _ => .pure ⟨holdsOutside_formed _ rfl, trivial,
    head.all_outline holdsOutside_formed, all_constraintOutlines holdsOutside_formed context,
    (allNodes_iff rfl fun _ _ => rfl).2 ?_, trivial⟩
  refine all_mergeDefinitions holdsOutside_formed (fun _ => Iff.rfl)
    (fun member definition hdefinition => ?_) (all_flatten hgroups)
  cases hdefinition
  exact Iff.rfl

/-! ### Statements -/

theorem all_item {p : Outline → Prop} {item : Item} (h : All p item) :
    All p [Statement.item item] :=
  all_cons (fun _ heq => by cases heq; exact h) all_nil

theorem yields_plainStatement (hinner : set.Forms inner) {first : Token} :
    set.Yields (plainStatement inner first) := by
  have hdefinition : set.Yields (do return (← definition inner).statements) :=
    .bind (yields_definition hinner) fun _ h => .pure (all_statements holdsOutside_formed h)
  refine .after fun stop => ?_
  split
  · refine .after fun pattern => .after fun _ => .after fun _ => ?_
    refine .bind (hinner.expression 0) fun value h => .after fun _ => .pure (all_item ?_)
    exact ⟨holdsOutside_formed _ rfl, pattern.all_outline holdsOutside_formed, h, trivial⟩
  · exact .ite (fun _ => .after fun _ => hdefinition) fun _ => hdefinition
  · exact .ite (fun _ => .after fun _ => hdefinition) fun _ => hdefinition
  · exact .bind (hinner.expression 0) fun value h =>
      .pure (all_item ⟨holdsOutside_formed _ rfl, h, trivial⟩)

theorem yields_statement (hinner : set.Forms inner) : set.Yields (statement inner) := by
  refine .after fun token => ?_
  split
  · exact .bind (yields_dataDeclaration hinner) fun _ h => .pure (all_item h)
  · exact .bind yields_effectDeclaration fun _ h => .pure (all_item h)
  · exact .bind (yields_classDeclaration hinner) fun _ h => .pure (all_item h)
  · exact .bind (yields_instanceDeclaration hinner) fun _ h => .pure (all_item h)
  · exact .failWith
  · have hpending : set.Yields (pendingAscription inner) :=
      .after fun _ => .after fun _ => .after fun _ => .pure fun _ heq => Statement.noConfusion heq
    exact .bind hpending fun _ h => .pure (all_cons h all_nil)
  · exact .bind (yields_conditional hinner) fun value h =>
      .pure (all_item ⟨holdsOutside_formed _ rfl, h, trivial⟩)
  · exact yields_plainStatement hinner

/-! ### All productions -/

/-- What is nested is formed as its square brackets are if the productions with the levels that are
left do. -/
theorem forms_produce (hwarns : set.Warns) (hdeep : set.allows .tooDeep) (budget : Nat) :
    set.Forms (.ofRules budget (produce budget)) := by
  have hnests : ∀ budget, set.Nests (.ofRules budget (produce budget)) :=
    fun budget => nests_ofRules hdeep (obeys_produce hwarns hdeep budget)
  induction budget with
  | zero => exact ⟨hnests 0, fun _ => .throw, .throw, .throw⟩
  | succ budget ih =>
    exact ⟨hnests _, fun _ => yields_expression ih, yields_operand ih, yields_statement ih⟩

/-! ### Whole sources -/

theorem Yields.boundNesting {α : Type} [Outlined α] {parser : Parser α} (h : set.Yields parser) :
    set.Yields (boundNesting parser) := by
  refine .tryCatch h fun abort => ?_
  split
  · exact .after fun _ => .after fun _ => .throw
  · exact .throw

theorem yields_declarationsOnly {statements : List Statement}
    (h : All set.stream.Formed statements) : set.Yields (declarationsOnly statements) := by
  have hloop : ∀ kept, All set.stream.Formed kept →
      set.Yields (List.filterAuxM keepsAtTop statements kept) := by
    induction statements with
    | nil => exact fun kept hkept => .pure hkept
    | cons first rest ih =>
      obtain ⟨hfirst, hrest⟩ := List.forall_mem_cons.1 h
      refine fun kept hkept => .after fun keep => ih hrest _ ?_
      cases keep with
      | true => exact all_cons hfirst hkept
      | false => exact hkept
  exact .bind (hloop [] all_nil) fun _ hkept => .pure (all_reverse hkept)

theorem yields_moduleSource (hwarns : set.Warns) (hdeep : set.allows .tooDeep) :
    set.Yields moduleSource := by
  have hstatement : set.Yields (α := List Statement) (produce nestingBudget .statement) :=
    (forms_produce hwarns hdeep nestingBudget).statement
  refine .after fun _ => .after fun _ => .after fun name => ?_
  refine .bind (.items hstatement.boundNesting) fun groups hgroups => ?_
  refine .bind (yields_declarationsOnly (all_flatten hgroups)) fun statements hstatements => ?_
  have hfound := all_group holdsOutside_formed hstatements
  refine .after fun _ => .after fun _ => .pure ⟨holdsOutside_formed _ rfl, ?_, ?_, trivial⟩
  · cases name <;> trivial
  · have hdeclarations : ∀ declaration ∈ (Statement.group statements).1.filterMap
        Item.declaration?, declaration.outline.All set.stream.Formed := by
      refine all_filterMap (fun item declaration heq h => ?_) hfound
      cases item <;> cases heq
      exact h
    exact (@allNodes_iff _ _ Declaration.outline (List.map Declaration.outline) rfl
      (fun _ _ => rfl) _).2 hdeclarations

theorem Yields.whole {α : Type} [Outlined α] {parser : Parser α} (h : set.Yields parser) :
    set.Yields (whole parser) := by
  refine .after fun _ => .boundNesting (.bind h fun answer hanswer => .after fun _ =>
    .after fun _ => .ite (fun _ => .after fun _ => .pure hanswer) fun _ => .pure hanswer)

end Setting

/-- A node ends with the brackets of one opener only. -/
theorem TokenStream.Brackets.unique {text file : String} {stream : TokenStream}
    (h : Token.ofText text file = .ok stream.tokens) {node : Outline} {index index' : Nat} (hindex : stream.Brackets node index)
    (hindex' : stream.Brackets node index') : index = index' := by
  obtain ⟨close, hcloses, hstop⟩ := hindex
  obtain ⟨close', hcloses', hstop'⟩ := hindex'
  have hlt : ∀ {first close}, stream.Closes first (.closer .square) close →
      close + 1 < stream.size := fun h =>
    succ_lt_size h.lt (by rw [h.kind_eq]; exact TokenKind.noConfusion)
  have hsame : close = close' := by
    rw [hstop] at hstop'
    rcases Nat.lt_trichotomy close close' with hless | heq | hless
    · have hbehind := TokenStream.stop_lt_of_ofText h hless (hlt hcloses')
      omega
    · exact heq
    · have hbehind := TokenStream.stop_lt_of_ofText h hless (hlt hcloses)
      omega
  subst hsame
  exact Nat.succ.inj (Nat.le_antisymm (hcloses'.first_le hcloses) (hcloses.first_le hcloses'))

/-- Every expression in square brackets is what the form of its opener says, with one exception: an
update without a target, whose point does not touch the opener. So it is for everything that is read
anywhere in a text, and in particular for its module and its expression. The opener of a node is the
one whose closer the node ends with. -/
theorem formed_of_ofText {text file : String} {tokens : Array Token}
    (h : Token.ofText text file = .ok tokens) :
    ∃ stream, TokenStream.ofTokens? tokens = some stream ∧
      (∀ node index index', stream.Brackets node index → stream.Brackets node index' →
        index = index') ∧
      (∀ budget rule state answer final,
        produce budget rule stream state = (.ok answer, final) → All stream.Formed answer) ∧
      (∀ result, parseSource text file = .ok result →
        ∀ source ∈ result.module?, source.outline.All stream.Formed) ∧
      ∀ value, parseExpression text file = .ok value → value.outline.All stream.Formed := by
  obtain ⟨stream, hstream, htokens, balanced⟩ := TokenStream.exists_of_ofText h
  have hunique : ∀ node index index', stream.Brackets node index → stream.Brackets node index' →
      index = index' := fun _ _ _ => TokenStream.Brackets.unique (htokens ▸ h)
  have hdeep : ∀ {α : Type} (entry : Entry α), (entry.setting balanced).allows .tooDeep :=
    fun _ => Abort.Arises.tooDeep
  have hforms : ∀ budget,
      (Entry.expression.setting balanced).Forms (.ofRules budget (produce budget)) :=
    Setting.forms_produce Or.inr (hdeep _)
  refine ⟨stream, hstream, hunique, fun budget rule state answer final hrun => ?_,
    fun result hresult source hsource => ?_, fun value hvalue => ?_⟩
  · cases rule with
    | expression minPower => exact (((hforms budget).expression minPower) state).returns hrun
    | operand => exact ((hforms budget).operand state).returns hrun
    | statement => exact ((hforms budget).statement state).returns hrun
  · obtain ⟨stream', source', final, hstream', -, -, hrun, hmodule, -⟩ :=
      exists_moduleSource_of_parseSource h hresult
    obtain rfl := Option.some.inj (hstream.symm.trans hstream')
    obtain rfl := Option.some.inj (hmodule.symm.trans hsource)
    have hyields := (Entry.module.setting balanced).yields_moduleSource Or.inr (hdeep _)
    exact (hyields .initial).returns hrun
  · have hyields : (Entry.expression.setting balanced).Yields (α := Expr)
        (whole (produce nestingBudget (.expression 0))) :=
      .whole ((hforms nestingBudget).expression 0)
    obtain ⟨final, hrun, -⟩ := exists_whole_of_parseWhole h hstream hvalue
    exact (hyields .initial).returns hrun

/-- An update of a record in brackets that touch their point, with a lambda inside. -/
theorem exists_formed_of_ofText :
    ∃ tokens stream value, Token.ofText "r.[a = [b: . [c]]]" "f" = .ok tokens ∧
      TokenStream.ofTokens? tokens = some stream ∧
      parseExpression "r.[a = [b: . [c]]]" "f" = .ok value ∧ value.outline.All stream.Formed := by
  have htokens : (Token.ofText "r.[a = [b: . [c]]]" "f").toOption.isSome = true := by
    decide +kernel
  have hvalue : (parseExpression "r.[a = [b: . [c]]]" "f").toOption.isSome = true := by
    decide +kernel
  cases hlexes : Token.ofText "r.[a = [b: . [c]]]" "f" with
  | error error =>
    rw [hlexes] at htokens
    cases htokens
  | ok tokens =>
    cases hparses : parseExpression "r.[a = [b: . [c]]]" "f" with
    | error error =>
      rw [hparses] at hvalue
      cases hvalue
    | ok value =>
      obtain ⟨stream, hstream, -, -, -, hformed⟩ := formed_of_ofText hlexes
      exact ⟨tokens, stream, value, rfl, hstream, rfl, hformed value hparses⟩

/-- The point in front of these brackets does not touch them, so their form is that of a block. They
are read as an update all the same. -/
theorem exists_update_of_apart :
    (Token.ofText ". [a = 1]" "f").toOption.any (fun tokens =>
      (BracketForm.atIndex tokens 1).toOption == some .block &&
      match parseExpression ". [a = 1]" "f" with
      | .ok (.recordUpdateLambda _ _) => true
      | _ => false) = true := by
  decide +kernel

end SableFrontend
