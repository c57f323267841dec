import SableFrontend.Editor.Document
import SableFrontend.Proofs.Grammar.Entry
import SableFrontend.Proofs.Grammar.Watch
import SableFrontend.Proofs.Token.WordToken
import SableFrontend.Proofs.Tree.Grouping

/-!
What the declarations of a source bring to the top level. Their names are the texts of tokens that are
names, however much of the source was wrong: an implicit constructor brings no name of its own, and
merging and grouping make no new names. The types of annotations are the types that were read for them,
as far as a watch over the log allows to say what these are.
-/

namespace SableFrontend

/-- A name that stands in a stream. -/
def TokenStream.Names (stream : TokenStream) (name : String) : Prop :=
  ∃ token ∈ stream.tokens, token.kind.isName = true ∧ token.value = name

section

variable (names : String → Prop) (types : TypeExpr → Prop)

/-- What a declaration brings to the top level: its names, and its type if it is an annotation. -/
structure Declaration.Brings (declaration : Declaration) : Prop where
  names : ∀ name ∈ Editor.namesOf declaration, names name
  type : ∀ ascription, declaration = .ascription ascription → types ascription.typeExpr

/-- What a statement brings to the top level. -/
def Statement.Brings : Statement → Prop
  | .item (.declaration declaration) => declaration.Brings names types
  | .item _ => True
  | .pending typeExpr _ => types typeExpr

/-- What a line brings to the top level, or to a type class. -/
structure Parser.DefinitionLine.Brings (line : Parser.DefinitionLine) : Prop where
  ascription : ∀ ascription ∈ line.ascription, names ascription.name ∧ types ascription.typeExpr
  definition : ∀ definition ∈ line.definition, names definition.name

/-- The signatures among the members of a type class have names. -/
def ClassMember.Signs (member : ClassMember) : Prop :=
  ∀ signature, member.signature? = some signature → names signature.name

variable {names types}

/-! ### Lines -/

theorem Declaration.brings_definition {definition : TermDef} (h : names definition.name) :
    (Declaration.definition definition).Brings names types :=
  ⟨fun _ hmem => List.mem_singleton.1 hmem ▸ h, nofun⟩

theorem Declaration.brings_ascription {ascription : Ascription} (h : types ascription.typeExpr) :
    (Declaration.ascription ascription).Brings names types :=
  ⟨nofun, fun _ heq => Declaration.ascription.inj heq ▸ h⟩

namespace Parser.DefinitionLine.Brings

variable {line : Parser.DefinitionLine}

theorem statements (h : line.Brings names types) : ∀ statement ∈ line.statements,
    statement.Brings names types := by
  intro statement hmem
  rcases List.mem_append.1 hmem with hmem | hmem
  · obtain ⟨ascription, hline, rfl⟩ := Option.map_eq_some_iff.1 (Option.mem_toList.1 hmem)
    exact Declaration.brings_ascription (h.ascription ascription hline).2
  · obtain ⟨definition, hline, rfl⟩ := Option.map_eq_some_iff.1 (Option.mem_toList.1 hmem)
    exact Declaration.brings_definition (h.definition definition hline)

theorem members (h : line.Brings names types) : ∀ member ∈ line.members, member.Signs names := by
  intro member hmem
  rcases List.mem_append.1 hmem with hmem | hmem
  · obtain ⟨ascription, hline, rfl⟩ := Option.map_eq_some_iff.1 (Option.mem_toList.1 hmem)
    rintro signature ⟨⟩
    exact (h.ascription ascription hline).1
  · obtain ⟨definition, -, rfl⟩ := Option.map_eq_some_iff.1 (Option.mem_toList.1 hmem)
    exact nofun

end Parser.DefinitionLine.Brings

/-! ### Grouping -/

namespace Statement

/-- An annotation that gets its name from the statement behind it keeps its type. -/
theorem brings_settle {statement : Statement} (h : statement.Brings names types)
    (target : Option String) :
    ∀ item ∈ (statement.settle target).1, (Statement.item item).Brings names types := by
  intro item hmem
  cases statement with
  | pending typeExpr span =>
    cases target with
    | none => cases hmem
    | some name =>
      obtain rfl := Option.some.inj hmem
      exact Declaration.brings_ascription h
  | item plain =>
    have hsame : item ∈ some plain → (Statement.item item).Brings names types :=
      fun heq => Option.some.inj heq ▸ h
    cases plain with
    | declaration declaration =>
      cases declaration with
      | ascription ascription =>
        obtain ⟨name, typeExpr, attachment, span⟩ := ascription
        cases attachment <;> cases target <;> first | exact hsame hmem | cases hmem
      | _ => exact hsame hmem
    | _ => exact hsame hmem

/-- Grouping makes no new names, and no new types. -/
theorem brings_group {statements : List Statement}
    (h : ∀ statement ∈ statements, statement.Brings names types) :
    ∀ item ∈ (group statements).1, (Statement.item item).Brings names types := by
  have hmerged : ∀ statement ∈ mergeDefinitions definition? ofDefinition statements,
      statement.Brings names types := by
    refine forall_mem_of_merged? (fun hboth hfirst _ => ?_) h
    obtain ⟨first, second, heq, -, -, rfl⟩ := exists_of_merged? hboth
    rw [eq_ofDefinition heq] at hfirst
    exact Declaration.brings_definition (hfirst.names _ List.mem_cons_self)
  rw [group]
  generalize mergeDefinitions definition? ofDefinition statements = merged at hmerged
  induction merged with
  | nil => exact fun _ hmem => absurd hmem List.not_mem_nil
  | cons first rest ih =>
    obtain ⟨hfirst, hrest⟩ := List.forall_mem_cons.1 hmerged
    rw [settleAll_cons]
    refine List.forall_mem_append.2 ⟨fun item hmem => ?_, ih hrest⟩
    exact brings_settle hfirst _ item (Option.mem_toList.1 hmem)

end Statement

end

/-! ### Declarations -/

open SableFrontend.Parser Setting

namespace Watch

variable {set : Setting} {watch : Watch set} {inner : Nested} {types : TypeExpr → Prop}

/-- A token that is expected to be a name. -/
theorem names_of_mem {token : Token} {kind : TokenKind} (hkind : kind.isName = true)
    (h : token ∈ set.stream.tokens ∧ token.kind = kind) : set.stream.Names token.value :=
  ⟨token, h.1, h.2 ▸ hkind, rfl⟩

theorem answers_typeParameters : watch.Answers typeParameters fun _ => True :=
  (Answers.collectWhile (q := fun _ => True) .isAt (.after .advance fun _ => .pure trivial)).mono
    fun _ _ => trivial

theorem answers_openBody {what : String} : watch.Answers (openBody what) fun _ => True :=
  .after .expect fun _ => .after .skipNewlines fun _ => .after .expect fun _ => .pure trivial

theorem answers_definitionBody (hinner : set.Nests inner) {name : Token} {patterns : List Pattern} :
    watch.Answers (definitionBody inner name patterns) fun definition => definition.name = name.value :=
  .after .skipNewlines fun _ => .after (.of_obeys (hinner.expression 0)) fun _ =>
    .after .spanFrom fun _ => .pure rfl

theorem answers_definition (hinner : set.Nests inner) (htypes : watch.Answers inner.typeExpr types) :
    watch.Answers (definition inner) (DefinitionLine.Brings set.stream.Names types) := by
  refine .bind .expect fun name => .after .isAt fun _ => .ite (fun _ => ?_) fun _ => ?_
  · refine .after .advance fun _ => .bind htypes fun typeExpr => .after .spanFrom fun span => ?_
    refine .after .isAt fun _ => .ite (fun _ => ?_) fun _ => ?_
    · refine .after .advance fun _ => .bind (answers_definitionBody hinner) fun definition => .pure ?_
      intro hdefinition htype hname
      have hname := names_of_mem rfl hname
      exact ⟨fun _ heq => Option.some.inj heq ▸ ⟨hname, htype⟩,
        fun _ heq => Option.some.inj heq ▸ hdefinition ▸ hname⟩
    · exact .pure fun htype hname =>
        ⟨fun _ heq => Option.some.inj heq ▸ ⟨names_of_mem rfl hname, htype⟩, nofun⟩
  · have hpatterns : watch.Answers (collectWhile startsPatternAtom inner.patternAtom) fun _ => True :=
      (Answers.collectWhile (.of_obeys obeys_startsPatternAtom) (.of_obeys hinner.patternAtom)).mono
        fun _ _ => trivial
    refine .after hpatterns fun patterns => .after .expect fun _ =>
      .bind (answers_definitionBody hinner) fun definition => .pure fun hdefinition hname => ?_
    exact ⟨nofun, fun _ heq => Option.some.inj heq ▸ hdefinition ▸ names_of_mem rfl hname⟩

theorem answers_pendingAscription (htypes : watch.Answers inner.typeExpr types) :
    watch.Answers (pendingAscription inner) (Statement.Brings set.stream.Names types) :=
  .after .advance fun _ => .bind htypes fun _ => .after .spanFrom fun _ => .pure fun htype => htype

/-! ### Data types -/

theorem answers_constructorSpec (hinner : set.Nests inner) :
    watch.Answers (constructorSpec inner) fun constructor => set.stream.Names constructor.name := by
  refine .bind .expect fun name => .after .current fun next => .ite (fun _ => ?_) fun _ => ?_
  · exact .after .advance fun _ => .after (.items (.of_obeys (obeys_fieldSpec hinner))) fun _ =>
      .after .expect fun _ => .after .spanFrom fun _ => .pure fun hname => names_of_mem rfl hname
  · exact .after (.collectWhile (.of_obeys obeys_startsTypeAtom) (.of_obeys hinner.typeAtom)) fun _ =>
      .after .spanFrom fun _ => .pure fun hname => names_of_mem rfl hname

theorem answers_dataItem (hinner : set.Nests inner) :
    watch.Answers (dataItem inner) fun entry =>
      ∀ constructor, entry.getRight? = some constructor → set.stream.Names constructor.name := by
  refine .after .isAt fun _ => .ite (fun _ => .map ?_) fun _ => .map ?_
  · exact (Answers.of_obeys (obeys_fieldSpec hinner)).mono fun _ _ => nofun
  · exact (answers_constructorSpec hinner).mono fun _ hname _ heq => Option.some.inj heq ▸ hname

/-- The constructor of a data type that is written as its fields is implicit, so that it brings no
name. -/
theorem answers_dataDeclaration (hinner : set.Nests inner) :
    watch.Answers (dataDeclaration inner) (Declaration.Brings set.stream.Names types) := by
  refine .after .advance fun _ => .bind .expect fun name => .after answers_typeParameters fun parameters =>
    .after answers_openBody fun _ => .bind (.items (answers_dataItem hinner)) fun entries =>
      .after .expect fun _ => .after .spanFrom fun span => ?_
  have hwritten : (∀ entry ∈ entries, ∀ constructor, entry.getRight? = some constructor →
      set.stream.Names constructor.name) → name ∈ set.stream.tokens ∧ name.kind = .typeIdentifier →
      (Declaration.data name.value parameters (entries.filterMap Sum.getRight?) span).Brings
        set.stream.Names types := by
    refine fun hentries hname => ⟨fun other hmem => ?_, nofun⟩
    rcases List.mem_cons.1 hmem with rfl | hmem
    · exact names_of_mem rfl hname
    · obtain ⟨constructor, hconstructor, rfl⟩ := List.mem_map.1 hmem
      obtain ⟨entry, hentry, hright⟩ := List.mem_filterMap.1 (List.mem_of_mem_filter hconstructor)
      exact hentries entry hentry constructor hright
  dsimp only
  split
  · exact .pure hwritten
  · refine .pure fun _ hname => ⟨fun other hmem => ?_, nofun⟩
    rw [List.mem_singleton.1 hmem]
    exact names_of_mem rfl hname
  · exact .after (.reportError DiagnosticKind.noConfusion DiagnosticKind.noConfusion) fun _ =>
      .pure hwritten

/-! ### Effects, type classes and instances -/

theorem answers_operationSpec (hinner : set.Nests inner) :
    watch.Answers (operationSpec inner) fun operation => set.stream.Names operation.name := by
  have hrest : ∀ token : Token, watch.Answers (do
      let _ ← advance
      let _ ← expect .atSign ("after operation `" ++ token.value ++ "`")
      let typeExpr ← inner.typeExpr
      return OperationSpec.mk token.value typeExpr (← spanFrom token.span))
      fun operation => operation.name = token.value := fun token =>
    .after .advance fun _ => .after .expect fun _ => .after (.of_obeys hinner.typeExpr) fun _ =>
      .after .spanFrom fun _ => .pure rfl
  refine .bind .current fun token => .ite (fun _ => ?_) fun hname => ?_
  · have hnever : watch.Answers (unexpected ["operation name"] "" : Parser Unit) fun _ => False :=
      .unexpected
    exact .bind hnever fun _ => (hrest token).mono fun _ _ hfalse => hfalse.elim
  · refine (hrest token).mono fun operation heq hmem => ⟨token, hmem, ?_, heq.symm⟩
    simp only [Bool.not_eq_true, Bool.not_eq_false', Bool.or_eq_true, beq_iff_eq] at hname
    rcases hname with hkind | hkind <;> rw [hkind] <;> rfl

theorem answers_effectDeclaration (hinner : set.Nests inner) :
    watch.Answers (effectDeclaration inner) (Declaration.Brings set.stream.Names types) := by
  refine .after .advance fun _ => .bind .expect fun name => .after answers_typeParameters fun parameters =>
    .after answers_openBody fun _ => .bind (.items (answers_operationSpec hinner)) fun operations =>
      .after .expect fun _ => .after .spanFrom fun span => .pure fun hoperations hname => ?_
  refine ⟨fun other hmem => ?_, nofun⟩
  rcases List.mem_cons.1 hmem with rfl | hmem
  · exact names_of_mem rfl hname
  · obtain ⟨operation, hoperation, rfl⟩ := List.mem_map.1 hmem
    exact hoperations operation hoperation

/-- Merging the members of a type class leaves its signatures as they are. -/
theorem answers_classDeclaration (hinner : set.Nests inner) (htypes : watch.Answers inner.typeExpr types) :
    watch.Answers (classDeclaration inner) (Declaration.Brings set.stream.Names types) := by
  have hmember : watch.Answers (classMember inner) fun members =>
      ∀ member ∈ members, member.Signs set.stream.Names :=
    .bind (answers_definition hinner htypes) fun _ => .pure fun hline => hline.members
  refine .after .advance fun _ => .after (.of_obeys (obeys_leadingContext hinner)) fun superclasses =>
    .bind .expect fun name => .after .expect fun parameter => .after answers_openBody fun _ =>
      .bind (.items hmember) fun groups => .after .expect fun _ => .after .spanFrom fun span =>
        .pure fun hgroups hname => ⟨fun other hmem => ?_, nofun⟩
  have hmerged : ∀ member ∈ mergeDefinitions ClassMember.definition? .definition groups.flatten,
      member.Signs set.stream.Names := by
    refine forall_mem_mergeDefinitions (fun _ => nofun) fun member hmember => ?_
    obtain ⟨group, hgroup, hmember⟩ := List.mem_flatten.1 hmember
    exact hgroups group hgroup member hmember
  rcases List.mem_cons.1 hmem with rfl | hmem
  · exact names_of_mem rfl hname
  · obtain ⟨signature, hsignature, rfl⟩ := List.mem_map.1 hmem
    obtain ⟨member, hmember, heq⟩ := List.mem_filterMap.1 hsignature
    exact hmerged member hmember signature heq

/-- An instance brings no names. -/
theorem answers_instanceDeclaration (hinner : set.Nests inner) :
    watch.Answers (instanceDeclaration inner) (Declaration.Brings set.stream.Names types) :=
  .after .advance fun _ => .after (.of_obeys (obeys_leadingContext hinner)) fun _ => .after .expect fun _ =>
    .after (.of_obeys hinner.typeAtom) fun _ => .after answers_openBody fun _ =>
      .after (.items (.of_obeys (obeys_instanceMember hinner))) fun _ => .after .expect fun _ =>
        .after .spanFrom fun _ => .pure ⟨nofun, nofun⟩

/-! ### Statements -/

theorem answers_plainStatement (hinner : set.Nests inner) (htypes : watch.Answers inner.typeExpr types)
    {first : Token} : watch.Answers (plainStatement inner first) fun statements =>
      ∀ statement ∈ statements, statement.Brings set.stream.Names types := by
  have hdefinition : watch.Answers (do return (← definition inner).statements) fun statements =>
      ∀ statement ∈ statements, statement.Brings set.stream.Names types :=
    .bind (answers_definition hinner htypes) fun _ => .pure fun hline => hline.statements
  refine .after .firstStop fun stop => ?_
  split
  · exact .after (.of_obeys hinner.pattern) fun _ => .after .expect fun _ => .after .skipNewlines fun _ =>
      .after (.of_obeys (hinner.expression 0)) fun _ => .after .spanFrom fun _ =>
        .pure (List.forall_mem_singleton.2 trivial)
  · exact .ite (fun _ => .after (.unexpected : watch.Answers _ fun _ => True) fun _ => hdefinition)
      fun _ => hdefinition
  · exact .ite (fun _ => .after (.unexpected : watch.Answers _ fun _ => True) fun _ => hdefinition)
      fun _ => hdefinition
  · exact .after (.of_obeys (hinner.expression 0)) fun _ => .pure (List.forall_mem_singleton.2 trivial)

theorem answers_statement (hinner : set.Nests inner) (htypes : watch.Answers inner.typeExpr types) :
    watch.Answers (statement inner) fun statements =>
      ∀ statement ∈ statements, statement.Brings set.stream.Names types := by
  have hdeclaration : ∀ {parser : Parser Declaration},
      watch.Answers parser (Declaration.Brings set.stream.Names types) →
      watch.Answers (do return [Statement.ofDeclaration (← parser)]) fun statements =>
        ∀ statement ∈ statements, statement.Brings set.stream.Names types :=
    fun hparser => .bind hparser fun _ => .pure fun h => List.forall_mem_singleton.2 h
  refine .after .current fun token => ?_
  split
  · exact hdeclaration (answers_dataDeclaration hinner)
  · exact hdeclaration (answers_effectDeclaration hinner)
  · exact hdeclaration (answers_classDeclaration hinner htypes)
  · exact hdeclaration (answers_instanceDeclaration hinner)
  · exact .failWith DiagnosticKind.noConfusion DiagnosticKind.noConfusion
  · exact .bind (answers_pendingAscription htypes) fun _ => .pure fun h => List.forall_mem_singleton.2 h
  · exact .after (.of_obeys (obeys_conditional hinner)) fun _ => .pure (List.forall_mem_singleton.2 trivial)
  · exact answers_plainStatement hinner htypes

/-! ### Modules -/

theorem answers_boundNesting {α : Type} {parser : Parser α} {q : α → Prop} (h : watch.Answers parser q) :
    watch.Answers (boundNesting parser) q := by
  refine .tryCatch h fun abort => ?_
  split
  · exact .after (.after .current fun _ =>
      .reportError DiagnosticKind.noConfusion DiagnosticKind.noConfusion) fun _ =>
        .after .note fun _ => .throw
  · exact .throw

theorem answers_optionalHeader : watch.Answers optionalHeader fun _ => True := by
  have hheader : watch.Answers moduleHeader fun _ => True := by
    refine .after .advance fun _ => .after .expect fun first =>
      .after (.collectWhile (q := fun _ => True) .isAt ?_) fun more => .after .current fun _ =>
        .ite (fun _ => .after (.unexpected : watch.Answers _ fun _ => True) fun _ => .pure trivial)
          fun _ => .pure trivial
    exact .after .advance fun _ => .after .expect fun _ => .pure trivial
  refine .after .isAt fun _ => .ite (fun _ => ?_) fun _ => .pure trivial
  exact .after (.recover (q := fun _ => True) hheader trivial) fun name =>
    .ite (fun _ => .after .synchronize fun _ => .pure trivial) fun _ => .pure trivial

theorem answers_moduleSource (hwarns : set.Warns) (hdeep : set.allows .tooDeep)
    (htypes : watch.Answers (typeAt (nestingBudget - 1) .type) types) :
    watch.Answers moduleSource fun source =>
      ∀ declaration ∈ source.declarations, declaration.Brings set.stream.Names types := by
  have hinner : set.Nests (.ofRules (nestingBudget - 1) (produce (nestingBudget - 1))) :=
    nests_ofRules hdeep (obeys_produce hwarns hdeep _)
  have hitem : @Answers set watch (List Statement) (boundNesting (produce nestingBudget .statement))
      fun statements => ∀ statement ∈ statements, statement.Brings set.stream.Names types :=
    answers_boundNesting (answers_statement hinner htypes)
  refine .after .current fun _ => .after .skipSeparators fun _ => .after answers_optionalHeader fun name =>
    .bind (.items hitem) fun groups => ?_
  have honly : watch.Answers (declarationsOnly groups.flatten) (· ⊆ groups.flatten) := by
    refine .filterM fun statement => ?_
    split
    · exact .after (.reportError DiagnosticKind.noConfusion DiagnosticKind.noConfusion)
        fun _ => .pure trivial
    · exact .after (.reportError DiagnosticKind.noConfusion DiagnosticKind.noConfusion)
        fun _ => .pure trivial
    · exact .pure trivial
  refine .bind honly fun statements => .after (.forM fun diagnostic hmem => .report ?_) fun _ =>
    .after .current fun _ => .pure fun hkept hgroups declaration hmem => ?_
  · exact (Statement.group_reports _ diagnostic hmem).elim set.grammatical hwarns
  · obtain ⟨item, hitem, hdeclaration⟩ := List.mem_filterMap.1 hmem
    have hbrings : ∀ statement ∈ statements, statement.Brings set.stream.Names types := by
      intro statement hstatement
      obtain ⟨group, hgroup, hstatement⟩ := List.mem_flatten.1 (hkept hstatement)
      exact hgroups group hgroup statement hstatement
    have hgrouped := Statement.brings_group hbrings item hitem
    cases item <;> cases hdeclaration
    exact hgrouped

end Watch

end SableFrontend
