import SableFrontend.Proofs.Tree.Annotation

/-!
What grouping keeps. Merging joins clauses, but neither loses nor reorders any of them
(`flatMap_namedClauses_merge`), and all that is no definition stays in front of the same name
(`followed_mergeDefinitions`). Matching the annotations leaves out those without a definition behind them
and nothing else (`Statement.Fate`), and says so once for each of them. What is left out stands in front
of no definition, so that nothing more can be merged afterwards, and grouping once more changes nothing
(`Statement.group_map_item`).
-/

namespace SableFrontend

section

variable {α : Type}

/-- Each of some items with the name that the item behind it defines. -/
def followed (name? : α → Option String) : List α → List (α × Option String)
  | [] => []
  | item :: rest => (item, rest.head?.bind name?) :: followed name? rest

/-- The clauses of a definition, each with its name. -/
def namedClauses (definition? : α → Option TermDef) (item : α) : List (String × Clause) :=
  match definition? item with
  | some definition => definition.clauses.map (definition.name, ·)
  | none => []

variable {definition? : α → Option TermDef} {ofDefinition : TermDef → α} {last item : α}

/-! ### Merging -/

theorem namedClauses_of_merged? {both : α}
    (hof : ∀ definition, definition? (ofDefinition definition) = some definition)
    (h : merged? definition? ofDefinition last item = some both) :
    namedClauses definition? both = namedClauses definition? last ++ namedClauses definition? item := by
  obtain ⟨first, second, hfirst, hsecond, hname, rfl⟩ := exists_of_merged? h
  simp only [namedClauses, hof, hfirst, hsecond, TermDef.append, List.map_append, hname]

/-- Merging keeps all clauses, in order. -/
theorem flatMap_namedClauses_merge
    (hof : ∀ definition, definition? (ofDefinition definition) = some definition) (items : List α) :
    (mergeDefinitions definition? ofDefinition items).flatMap (namedClauses definition?) =
      items.flatMap (namedClauses definition?) := by
  cases items with
  | nil => rfl
  | cons item rest =>
    rw [mergeDefinitions_cons]
    induction rest generalizing item with
    | nil => rfl
    | cons next rest ih =>
      rw [mergeInto]
      cases hmerged : merged? definition? ofDefinition item next with
      | some both =>
        rw [ih both, List.flatMap_cons, List.flatMap_cons, List.flatMap_cons,
          namedClauses_of_merged? hof hmerged, List.append_assoc]
      | none => exact congrArg (namedClauses definition? item ++ ·) (ih next)

/-- What is no definition is merged with nothing, and the same name follows it. -/
theorem followed_mergeDefinitions {name? : α → Option String}
    (hof : ∀ definition, definition? (ofDefinition definition) = some definition)
    (hname : ∀ {item definition}, definition? item = some definition →
      name? item = some definition.name) (items : List α) :
    (followed name? (mergeDefinitions definition? ofDefinition items)).filter
        (fun pair => (definition? pair.1).isNone) =
      (followed name? items).filter (fun pair => (definition? pair.1).isNone) := by
  -- the first of merged items keeps the name of the first item
  have hhead : ∀ item rest, (mergeInto definition? ofDefinition item rest).head?.bind name? =
      name? item := by
    intro item rest
    cases hdefinition : definition? item with
    | none =>
      rw [mergeInto_of_none hdefinition]
      rfl
    | some definition =>
      obtain ⟨head, tail, heq, hsame⟩ := exists_mergeInto hof item rest
      rw [definedName?, definedName?, hdefinition] at hsame
      obtain ⟨definition', hdefinition', hnames⟩ := Option.map_eq_some_iff.1 hsame
      rw [heq, List.head?_cons, Option.bind_some, hname hdefinition', hname hdefinition, hnames]
  cases items with
  | nil => rfl
  | cons item rest =>
    rw [mergeDefinitions_cons]
    induction rest generalizing item with
    | nil => rfl
    | cons next rest ih =>
      rw [mergeInto]
      cases hmerged : merged? definition? ofDefinition item next with
      | some both =>
        obtain ⟨first, second, hfirst, hsecond, -, rfl⟩ := exists_of_merged? hmerged
        simp only [ih, followed, List.filter_cons, hof, hfirst, hsecond, Option.isNone_some,
          Bool.false_eq_true, if_false]
      | none =>
        simp only [followed, List.filter_cons, ih next, hhead, List.head?_cons, Option.bind_some]

end

/-- The name that an annotation in front of an item belongs to. -/
def Item.annotatedName? (item : Item) : Option String := (Statement.item item).annotatedName?

/-- An annotation of what follows it. -/
def Item.annotation? : Item → Option Ascription
  | .declaration (.ascription ascription) =>
    if ascription.attachment = .nextDeclaration then some ascription else none
  | _ => none

namespace Statement

/-- Where an annotation of what follows it stands, with a name or without. -/
def annotationSpan? : Statement → Option Span
  | pending _ span => some span
  | item plain => plain.annotation?.map Ascription.span

/-- What a statement may become when a definition or a data type of the name `next` follows it: an item,
together with the name that follows the item, or nothing. -/
inductive Fate : Statement → (next : Option String) → Option (Item × Option String) → Prop
  | kept {plain : Item} {next next' : Option String}
      (h : plain.annotation?.isSome = true → ∃ name, next = some name ∧ next' = some name) :
      Fate (item plain) next (some (plain, next'))
  | named (typeExpr : TypeExpr) (span : Span) (name : String) :
      Fate (pending typeExpr span) (some name) (some (.declaration (.ascription {
        name := name, typeExpr := typeExpr, attachment := .nextDeclaration, span := span }), some name))
  | dropped {statement : Statement} (h : statement.annotationSpan?.isSome = true) :
      Fate statement none none

/-- What is to be reported of a statement: one error if it has been left out, and one warning if it is an
annotation in front of another name. -/
def notice? (statement : Statement) : Option (Item × Option String) →
    Option (DiagnosticKind × Severity × Option Span)
  | none => some (.danglingAscription, .error, statement.annotationSpan?)
  | some (plain, next) =>
    plain.annotation?.bind fun ascription =>
      if next = some ascription.name then none
      else some (.ascriptionMismatch, .warning, some ascription.span)

end Statement

/-- The kind, the severity and the place of a report. -/
def Diagnostic.notice (diagnostic : Diagnostic) : DiagnosticKind × Severity × Option Span :=
  (diagnostic.kind, diagnostic.severity, diagnostic.span?)

/-! ### Matching annotations -/

namespace Statement

/-- What becomes of a statement, and what is reported of it, if the name behind it stays there. -/
theorem fate_settle (statement : Statement) {next next' : Option String}
    (h : ∀ name, next = some name → next' = some name) :
    statement.Fate next ((statement.settle next).1.map fun item => (item, next')) ∧
      (statement.settle next).2.map Diagnostic.notice =
        statement.notice? ((statement.settle next).1.map fun item => (item, next')) := by
  cases statement with
  | pending typeExpr span =>
    cases next with
    | none => exact ⟨.dropped rfl, rfl⟩
    | some name =>
      obtain rfl := h name rfl
      refine ⟨.named typeExpr span name, ?_⟩
      simp [settle, notice?, Item.annotation?]
  | item plain =>
    have hplain : plain.annotation? = none → (item plain).settle next = (some plain, none) →
        (item plain).Fate next (((item plain).settle next).1.map fun item => (item, next')) ∧
          ((item plain).settle next).2.map Diagnostic.notice =
            (item plain).notice? (((item plain).settle next).1.map fun item => (item, next')) := by
      intro hnone hsettle
      rw [hsettle]
      refine ⟨.kept fun hsome => ?_, ?_⟩
      · rw [hnone] at hsome
        cases hsome
      · show none = plain.annotation?.bind _
        rw [hnone]
        rfl
    cases plain with
    | declaration declaration =>
      cases declaration with
      | ascription ascription =>
        obtain ⟨name, typeExpr, attachment, span⟩ := ascription
        cases attachment with
        | sameLine => exact hplain rfl rfl
        | nextDeclaration =>
          cases next with
          | none => exact ⟨.dropped rfl, rfl⟩
          | some target =>
            obtain rfl := h target rfl
            refine ⟨.kept fun _ => ⟨target, rfl, rfl⟩, ?_⟩
            by_cases heq : target = name <;>
              simp [settle, notice?, Item.annotation?, heq, Diagnostic.notice, Diagnostic.span?,
                Diagnostic.warningAt, Label.primary]
      | _ => exact hplain rfl rfl
    | _ => exact hplain rfl rfl

/-- What an annotation belongs to stays behind it. -/
theorem annotatedName?_settleAll {statements : List Statement} {name : String}
    (h : statements.head?.bind annotatedName? = some name) :
    (settleAll statements).1.head?.bind Item.annotatedName? = some name := by
  cases statements with
  | nil => cases h
  | cons statement rest =>
    rw [List.head?_cons, Option.bind_some] at h
    cases statement with
    | pending => cases h
    | item plain =>
      cases plain with
      | declaration declaration =>
        cases declaration <;> first | exact h | cases h
      | _ => cases h

/-- Every statement has its fate, and what is reported is what is to be reported of each. -/
theorem exists_fates_settleAll (statements : List Statement) :
    ∃ fates : List ((Statement × Option String) × Option (Item × Option String)),
      fates.map Prod.fst = followed annotatedName? statements ∧
      fates.filterMap Prod.snd = followed Item.annotatedName? (settleAll statements).1 ∧
      (∀ fate ∈ fates, fate.1.1.Fate fate.1.2 fate.2) ∧
      (settleAll statements).2.map Diagnostic.notice =
        fates.filterMap fun fate => fate.1.1.notice? fate.2 := by
  induction statements with
  | nil => exact ⟨[], rfl, rfl, nofun, rfl⟩
  | cons statement rest ih =>
    obtain ⟨fates, hstatements, hitems, hfates, hreports⟩ := ih
    obtain ⟨hfate, hreport⟩ := @fate_settle statement _
      ((settleAll rest).1.head?.bind Item.annotatedName?)
      fun name hname => annotatedName?_settleAll hname
    refine ⟨((statement, rest.head?.bind annotatedName?),
      (statement.settle (rest.head?.bind annotatedName?)).1.map fun item =>
        (item, (settleAll rest).1.head?.bind Item.annotatedName?)) :: fates, ?_, ?_, ?_, ?_⟩
    · rw [List.map_cons, hstatements]
      rfl
    · rw [List.filterMap_cons, settleAll_cons, hitems]
      cases (statement.settle (rest.head?.bind annotatedName?)).1 <;> rfl
    · exact List.forall_mem_cons.2 ⟨hfate, hfates⟩
    · rw [List.filterMap_cons, settleAll_cons, List.map_append, hreports, ← hreport]
      cases (statement.settle (rest.head?.bind annotatedName?)).2 <;> rfl

theorem definition?_item (plain : Item) : (item plain).definition? = plain.definition? := by
  cases plain with
  | declaration declaration => cases declaration <;> rfl
  | _ => rfl

/-- A statement and what becomes of it are the same definition, if any. -/
theorem Fate.definition?_eq {statement : Statement} {next : Option String}
    {pair : Item × Option String} (h : statement.Fate next (some pair)) :
    pair.1.definition? = statement.definition? := by
  cases h with
  | @kept plain => exact (definition?_item plain).symm
  | named => rfl

/-- No definition is left out. -/
theorem Fate.definition?_eq_none {statement : Statement} {next : Option String}
    (h : statement.Fate next none) : statement.definition? = none := by
  cases h with
  | dropped hspan =>
    cases statement with
    | pending => rfl
    | item plain =>
      cases plain with
      | declaration declaration => cases declaration <;> first | rfl | cases hspan
      | _ => rfl

/-- Nothing is to be reported of a definition. -/
theorem Fate.notice?_eq_none {statement : Statement} {next : Option String}
    {kept : Option (Item × Option String)} (h : statement.Fate next kept)
    (hdefinition : statement.definition?.isSome = true) : statement.notice? kept = none := by
  cases kept with
  | none =>
    rw [h.definition?_eq_none] at hdefinition
    cases hdefinition
  | some pair =>
    rw [← h.definition?_eq] at hdefinition
    obtain ⟨plain, next'⟩ := pair
    cases plain with
    | declaration declaration => cases declaration <;> first | rfl | cases hdefinition
    | _ => cases hdefinition

/-- Matching annotations keeps all definitions, in order. -/
theorem flatMap_namedClauses_settleAll (statements : List Statement) :
    (settleAll statements).1.flatMap (namedClauses Item.definition?) =
      statements.flatMap (namedClauses definition?) := by
  induction statements with
  | nil => rfl
  | cons statement rest ih =>
    rw [settleAll_cons, List.flatMap_append, ih, List.flatMap_cons]
    refine congrArg (· ++ _) ?_
    cases hkept : (statement.settle (rest.head?.bind annotatedName?)).1 with
    | none => rw [namedClauses, (settle_eq_none hkept).1]; rfl
    | some item =>
      rw [Option.toList_some, List.flatMap_singleton, namedClauses, namedClauses,
        definition?_of_settle hkept]

/-! ### Grouping -/

/-- What becomes of all that is no definition, and what is reported. -/
theorem exists_fates_group (statements : List Statement) :
    ∃ fates : List ((Statement × Option String) × Option (Item × Option String)),
      fates.map Prod.fst =
        (followed annotatedName? statements).filter (fun pair => pair.1.definition?.isNone) ∧
      fates.filterMap Prod.snd = (followed Item.annotatedName? (group statements).1).filter
        (fun pair => pair.1.definition?.isNone) ∧
      (∀ fate ∈ fates, fate.1.1.Fate fate.1.2 fate.2) ∧
      (group statements).2.map Diagnostic.notice =
        fates.filterMap fun fate => fate.1.1.notice? fate.2 := by
  obtain ⟨fates, hstatements, hitems, hfates, hreports⟩ :=
    exists_fates_settleAll (mergeDefinitions definition? ofDefinition statements)
  refine ⟨fates.filter fun fate => fate.1.1.definition?.isNone, ?_, ?_,
    fun fate hmem => hfates fate (List.mem_filter.1 hmem).1, ?_⟩
  · rw [← @followed_mergeDefinitions _ definition? ofDefinition _ (fun _ => rfl)
      (fun h => annotatedName?_of_definition? h), ← hstatements, List.filter_map]
    rfl
  · rw [group, ← hitems, List.filterMap_filter, List.filter_filterMap]
    refine List.filterMap_congr fun fate hmem => ?_
    have hfate := hfates fate hmem
    obtain ⟨⟨statement, next⟩, kept⟩ := fate
    cases kept with
    | none => simp
    | some pair => simp [Option.filter, hfate.definition?_eq]
  · rw [group, hreports, List.filterMap_filter]
    refine List.filterMap_congr fun fate hmem => ?_
    have hfate := hfates fate hmem
    split
    · rfl
    · next hsome => exact hfate.notice?_eq_none (Option.isSome_iff_ne_none.2 (by simpa using hsome))

/-- What has been grouped is not changed by grouping it once more. -/
theorem group_map_item {items : List Item}
    (hmerged : Merged Item.definition? Item.ofDefinition items)
    (h : ∀ pair ∈ followed Item.annotatedName? items, pair.1.annotation?.isSome = true →
      pair.2.isSome = true) : (group (items.map item)).1 = items := by
  have hsame : mergeDefinitions definition? ofDefinition (items.map item) = items.map item :=
    (@mergeDefinitions_embed _ definition? ofDefinition _ Item.definition? Item.ofDefinition item
      definition?_item (fun _ => rfl) items).trans
      (congrArg (List.map item) hmerged.mergeDefinitions_eq)
  rw [group, hsame]
  clear hmerged hsame
  induction items with
  | nil => rfl
  | cons plain rest ih =>
    obtain ⟨hfirst, hrest⟩ := List.forall_mem_cons.1 h
    have htarget : (rest.map item).head?.bind annotatedName? =
        rest.head?.bind Item.annotatedName? := by cases rest <;> rfl
    rw [List.map_cons, settleAll_cons, htarget, ih hrest]
    dsimp only at hfirst
    generalize rest.head?.bind Item.annotatedName? = next at hfirst
    cases plain with
    | declaration declaration =>
      cases declaration with
      | ascription ascription =>
        obtain ⟨name, typeExpr, attachment, span⟩ := ascription
        cases attachment with
        | sameLine => rfl
        | nextDeclaration =>
          cases next with
          | none => cases hfirst rfl
          | some => rfl
      | _ => rfl
    | _ => rfl

end Statement

end SableFrontend
