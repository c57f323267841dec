import SableFrontend.Proofs.Tree.Grouping
import SableFrontend.Proofs.Tree.Structure

/-!
Annotations in front of definitions. What stands in front of an annotation is grouped apart from what
stands behind it (`Statement.group_annotated`), and an annotation in front of a definition of its name is
kept in each of its spellings, with nothing reported (`Statement.Annotates`). So the spellings lead to
items of one structure (`sameNodes_annotated`), for trees are compared without their attachments.
-/

namespace SableFrontend

/-! ### Merging around what is no definition -/

section

variable {α : Type} {definition? : α → Option TermDef} {ofDefinition : TermDef → α} {head : α}

theorem merged?_of_none (h : definition? head = none) (last : α) :
    merged? definition? ofDefinition last head = none := by
  unfold merged?
  rw [h]
  cases definition? last <;> rfl

theorem mergeInto_of_none (h : definition? head = none) (after : List α) :
    mergeInto definition? ofDefinition head after =
      head :: mergeDefinitions definition? ofDefinition after := by
  cases after with
  | nil => rfl
  | cons item rest =>
    rw [mergeInto, mergeDefinitions_cons, merged?_eq_none_iff.2 fun name hname => ?_]
    rw [definedName?, h] at hname
    cases hname

theorem glue_of_none (h : definition? head = none) (before rest : List α) :
    glue definition? ofDefinition before (head :: rest) = before ++ head :: rest := by
  induction before with
  | nil => rfl
  | cons item before ih =>
    cases before with
    | nil => rw [glue, merged?_of_none h]; rfl
    | cons next before => rw [glue, ih]; rfl

/-- What stands around something that is no definition is merged apart. -/
theorem mergeDefinitions_of_none
    (hof : ∀ definition, definition? (ofDefinition definition) = some definition)
    (h : definition? head = none) (before after : List α) :
    mergeDefinitions definition? ofDefinition (before ++ head :: after) =
      mergeDefinitions definition? ofDefinition before ++
        head :: mergeDefinitions definition? ofDefinition after := by
  rw [mergeDefinitions_append hof, mergeDefinitions_cons, mergeInto_of_none h, glue_of_none h]

end

/-! ### Grouping around an annotation -/

namespace Statement

variable {head : Statement} {ascription : Ascription} {definition : TermDef}

/-- What stands in front of something that an annotation cannot belong to is settled apart. -/
theorem settleAll_append (h : head.annotatedName? = none) (before rest : List Statement) :
    settleAll (before ++ head :: rest) =
      ((settleAll before).1 ++ (settleAll (head :: rest)).1,
        (settleAll before).2 ++ (settleAll (head :: rest)).2) := by
  induction before with
  | nil => rfl
  | cons statement before ih =>
    have htarget : (before ++ head :: rest).head?.bind annotatedName? =
        before.head?.bind annotatedName? := by
      cases before with
      | nil => exact h
      | cons => rfl
    rw [List.cons_append, settleAll_cons, settleAll_cons, htarget, ih]
    simp only [List.append_assoc]

/-- A statement that becomes an annotation if a definition of its name follows. -/
structure Annotates (head : Statement) (ascription : Ascription) : Prop where
  definition?_eq : head.definition? = none
  annotatedName?_eq : head.annotatedName? = none
  settle_eq : head.settle (some ascription.name) = (some (.declaration (.ascription ascription)), none)

/-- An annotation that stands alone takes the name of the definition. -/
theorem annotates_pending (name : String) (typeExpr : TypeExpr) (span : Span) :
    (pending typeExpr span).Annotates
      { name := name, typeExpr := typeExpr, attachment := .nextDeclaration, span := span } :=
  ⟨rfl, rfl, rfl⟩

/-- An annotation with the name of the definition is kept, on its line or in front of it. -/
theorem annotates_ascription (ascription : Ascription) :
    (ofDeclaration (.ascription ascription)).Annotates ascription := by
  refine ⟨rfl, rfl, ?_⟩
  obtain ⟨name, typeExpr, attachment, span⟩ := ascription
  cases attachment with
  | nextDeclaration => exact congrArg (Prod.mk _) (if_pos rfl)
  | sameLine => rfl

/-- In front of an annotation with its definition everything is grouped as if nothing followed, and
behind it as if nothing came before. -/
theorem group_annotated (h : head.Annotates ascription) (hname : definition.name = ascription.name)
    (before after : List Statement) :
    group (before ++ head :: ofDefinition definition :: after) =
      ((group before).1 ++
          .declaration (.ascription ascription) :: (group (ofDefinition definition :: after)).1,
        (group before).2 ++ (group (ofDefinition definition :: after)).2) := by
  have hof : ∀ definition, definition? (ofDefinition definition) = some definition := fun _ => rfl
  obtain ⟨first, rest, hmerged, hfirst⟩ :=
    @exists_mergeInto _ definition? ofDefinition hof (ofDefinition definition) after
  -- merging with the clauses behind it leaves the definition its name
  have htarget : first.annotatedName? = some ascription.name := by
    cases hdefinition : first.definition? with
    | none =>
      rw [definedName?, hdefinition] at hfirst
      cases hfirst
    | some merged =>
      rw [definedName?, hdefinition] at hfirst
      rw [annotatedName?_of_definition? hdefinition, ← hname]
      exact hfirst
  unfold group
  rw [mergeDefinitions_of_none hof h.definition?_eq, settleAll_append h.annotatedName?_eq,
    mergeDefinitions_cons, hmerged, settleAll_cons head, List.head?_cons, Option.bind_some, htarget,
    h.settle_eq]
  rfl

end Statement

/-! ### Structure without attachments -/

/-- The attachment of an annotation does not belong to its structure. -/
theorem Ascription.sameStructure_outline {ascription other : Ascription} (r : Relocation)
    (hname : ascription.name = other.name)
    (htype : ascription.typeExpr.relocate r = other.typeExpr.relocate r) :
    ascription.outline.sameStructure other.outline = true := by
  have hsame : ascription.typeExpr.outline.sameStructure other.typeExpr.outline = true :=
    @Outline.sameStructure_of_relocate_eq r r _ _
      (by rw [← TypeExpr.outline_relocate, htype, TypeExpr.outline_relocate])
  simp [Ascription.outline, Outline.sameStructure, sameFields, OutlineField.sameField,
    OutlineField.ofText, OutlineField.ofNode, OutlineValue.sameValue, hname, hsame]

theorem sameNodes_append {first second first' second' : List Outline}
    (h : sameNodes first second = true) (h' : sameNodes first' second' = true) :
    sameNodes (first ++ first') (second ++ second') = true := by
  induction first generalizing second with
  | nil =>
    cases second with
    | nil => exact h'
    | cons => simp [sameNodes] at h
  | cons node rest ih =>
    cases second with
    | nil => simp [sameNodes] at h
    | cons other others =>
      rw [sameNodes, Bool.and_eq_true] at h
      rw [List.cons_append, List.cons_append, sameNodes, Bool.and_eq_true]
      exact ⟨h.1, ih h.2⟩

/-- Trees that differ only in their places have the same structure, one by one. -/
theorem sameNodes_of_move_eq {α : Type} [Relocatable α] (outline : α → Outline) (r : Relocation)
    (houtline : ∀ value, outline (r.move value) = (outline value).relocate r) {values others : List α}
    (h : r.move values = r.move others) :
    sameNodes (values.map outline) (others.map outline) = true := by
  refine @sameNodes_of_relocate_eq r r _ _ ?_
  have hmap : ∀ values : List α,
      relocateNodes r (values.map outline) = (r.move values).map outline := by
    intro values
    induction values with
    | nil => rfl
    | cons value rest ih =>
      rw [List.map_cons, relocateNodes, ih, ← houtline]
      rfl
  rw [hmap, h, hmap]

/-! ### Spellings -/

/-- Two lists of items that differ in the places of things and in how one annotation is spelled. -/
inductive Item.Respelled : List Item → List Item → Prop
  | of (front : List Item) {rest rest' : List Item} {ascription ascription' : Ascription}
      (hascription : ascription.outline.sameStructure ascription'.outline = true)
      (hrest : Relocation.forget.move rest = Relocation.forget.move rest') :
      Respelled (front ++ .declaration (.ascription ascription) :: rest)
        (front ++ .declaration (.ascription ascription') :: rest')

namespace Item.Respelled

variable {items others : List Item}

theorem sameNodes (h : Respelled items others) :
    SableFrontend.sameNodes (itemOutlines items) (itemOutlines others) = true := by
  obtain ⟨front, hascription, hrest⟩ := h
  have hmap : ∀ items : List Item, itemOutlines items = items.map Item.outline := fun items => by
    induction items with
    | nil => rfl
    | cons item rest ih => exact congrArg (_ :: ·) ih
  rw [hmap, hmap, List.map_append, List.map_append]
  refine sameNodes_append (sameNodes_of_move_eq Item.outline .id Item.outline_relocate rfl) ?_
  rw [List.map_cons, List.map_cons, SableFrontend.sameNodes, Bool.and_eq_true]
  exact ⟨hascription, sameNodes_of_move_eq Item.outline .forget Item.outline_relocate hrest⟩

theorem sameDeclarations (h : Respelled items others) :
    SableFrontend.sameNodes ((items.filterMap Item.declaration?).map Declaration.outline)
      ((others.filterMap Item.declaration?).map Declaration.outline) = true := by
  obtain ⟨front, hascription, hrest⟩ := h
  have hmove : ∀ items : List Item,
      Relocation.forget.move (items.filterMap Item.declaration?) =
        (Relocation.forget.move items).filterMap Item.declaration? := fun items =>
    (Relocation.move_filterMap (r := .forget) (f := Item.declaration?)
      (fun item => by cases item <;> simp [Item.declaration?]) items).symm
  rw [List.filterMap_append, List.filterMap_append, List.map_append, List.map_append]
  refine sameNodes_append
    (sameNodes_of_move_eq Declaration.outline .id Declaration.outline_relocate rfl) ?_
  have hcons : ∀ (ascription : Ascription) (rest : List Item),
      (Item.declaration (.ascription ascription) :: rest).filterMap Item.declaration? =
        .ascription ascription :: rest.filterMap Item.declaration? := fun _ _ => rfl
  rw [hcons, hcons, List.map_cons, List.map_cons, SableFrontend.sameNodes, Bool.and_eq_true]
  refine ⟨hascription,
    sameNodes_of_move_eq Declaration.outline .forget Declaration.outline_relocate ?_⟩
  rw [hmove, hrest, hmove]

end Item.Respelled

/-- Two lists of statements that differ in the places of things and in how one annotation is spelled, the
definition of which follows. -/
inductive Statement.Respelled : List Statement → List Statement → Prop
  | of (before : List Statement) {after after' : List Statement} {head head' : Statement}
      {ascription ascription' : Ascription} {definition definition' : TermDef}
      (hhead : head.Annotates ascription) (hhead' : head'.Annotates ascription')
      (hname : definition.name = ascription.name) (hname' : ascription'.name = ascription.name)
      (htype : ascription.typeExpr.relocate .forget = ascription'.typeExpr.relocate .forget)
      (hdefinition : definition.relocate .forget = definition'.relocate .forget)
      (hafter : Relocation.forget.move after = Relocation.forget.move after') :
      Respelled (before ++ head :: ofDefinition definition :: after)
        (before ++ head' :: ofDefinition definition' :: after')

/-- Grouping leaves the spelling of the annotation alone, and reports the same. -/
theorem Statement.Respelled.group {statements others : List Statement}
    (h : Respelled statements others) :
    Item.Respelled (Statement.group statements).1 (Statement.group others).1 ∧
      Relocation.forget.move (Statement.group statements).2 =
        Relocation.forget.move (Statement.group others).2 := by
  obtain @⟨before, after, after', head, head', ascription, ascription', definition, definition', hhead,
    hhead', hname, hname', htype, hdefinition, hafter⟩ := h
  have hsame : definition'.name = definition.name := by
    rw [← TermDef.relocate_name (r := .forget) definition', ← hdefinition, TermDef.relocate_name]
  have hgroup : Relocation.forget.move (Statement.group (ofDefinition definition :: after)).1 =
        Relocation.forget.move (Statement.group (ofDefinition definition' :: after')).1 ∧
      Relocation.forget.move (Statement.group (ofDefinition definition :: after)).2 =
        Relocation.forget.move (Statement.group (ofDefinition definition' :: after')).2 := by
    have hmove : Relocation.forget.move (ofDefinition definition :: after) =
        Relocation.forget.move (ofDefinition definition' :: after') := by
      show (ofDefinition definition).relocate .forget :: Relocation.forget.move after =
        (ofDefinition definition').relocate .forget :: Relocation.forget.move after'
      rw [hafter]
      simp [ofDefinition, hdefinition]
    have hgroups := congrArg Statement.group hmove
    rw [relocate_group, relocate_group] at hgroups
    exact Prod.mk.inj hgroups
  rw [group_annotated hhead hname, group_annotated hhead' (hsame.trans (hname.trans hname'.symm))]
  refine ⟨.of _ (Ascription.sameStructure_outline .forget hname'.symm htype) hgroup.1, ?_⟩
  dsimp only
  rw [Relocation.move_append, Relocation.move_append, hgroup.2]

end SableFrontend
