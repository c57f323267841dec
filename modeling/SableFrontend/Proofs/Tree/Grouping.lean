import Mathlib.Data.List.Chain
import SableFrontend.Grammar.Grouping

/-!
Grouping a list of statements in two parts. Merging looks at neighbours only, so of two lists that
have been merged only the last item of the first and the first item of the second can still become
one (`mergeDefinitions_append`). An annotation looks at the item after it, so what was reported of
the first part may be missing from the whole, but nothing else is different (`group_append`).
-/

namespace SableFrontend

section

variable {α : Type} (definition? : α → Option TermDef) (ofDefinition : TermDef → α)

/-- What two neighbours become, if they are definitions of one name. -/
def merged? (first second : α) : Option α :=
  match definition? first, definition? second with
  | some first, some second =>
    if first.name = second.name then some (ofDefinition (first.append second)) else none
  | _, _ => none

/-- Items merged among each other and with the one in front of them. -/
def mergeInto (last : α) : List α → List α
  | [] => [last]
  | item :: rest =>
    match merged? definition? ofDefinition last item with
    | some both => mergeInto both rest
    | none => last :: mergeInto item rest

/-- Two lists behind each other, of which the neighbours in the middle are merged. -/
def glue : List α → List α → List α
  | [], second => second
  | [last], [] => [last]
  | [last], first :: rest =>
    match merged? definition? ofDefinition last first with
    | some both => both :: rest
    | none => last :: first :: rest
  | item :: next :: rest, second => item :: glue (next :: rest) second

/-- The name of the definition that an item is. -/
def definedName? (item : α) : Option String := (definition? item).map TermDef.name

/-- No two neighbours are definitions of one name. -/
def Merged (items : List α) : Prop :=
  items.IsChain fun first second => merged? definition? ofDefinition first second = none

variable {definition? ofDefinition} {first second both last item : α} {items before after : List α}

theorem merged?_eq_none_iff :
    merged? definition? ofDefinition first second = none ↔
      ∀ name, definedName? definition? first = some name →
        definedName? definition? second ≠ some name := by
  unfold merged? definedName?
  cases definition? first with
  | none => simp
  | some first =>
    cases definition? second with
    | none => simp
    | some second =>
      simp only [Option.map_some, Option.some.injEq]
      split
      · next heq => exact iff_of_false nofun fun h => h _ rfl (congrArg some heq.symm)
      · next hne => exact iff_of_true rfl fun name h h' => hne (h.trans (Option.some.inj h').symm)

/-- Only the names of definitions decide whether neighbours are merged. -/
theorem merged?_congr {first' second' : α}
    (h : definedName? definition? first' = definedName? definition? first)
    (h' : definedName? definition? second' = definedName? definition? second) :
    merged? definition? ofDefinition first' second' = none ↔
      merged? definition? ofDefinition first second = none := by
  rw [merged?_eq_none_iff, merged?_eq_none_iff, h, h']

theorem mergeStep_cons (last item : α) (rest : List α) :
    mergeStep definition? ofDefinition (last :: rest) item =
      match merged? definition? ofDefinition last item with
      | some both => both :: rest
      | none => item :: last :: rest := by
  unfold mergeStep merged?
  dsimp only
  cases definition? last with
  | none => rfl
  | some first =>
    cases definition? item with
    | none => rfl
    | some second =>
      dsimp only
      split <;> rfl

theorem foldl_mergeStep (last : α) (before items : List α) :
    (items.foldl (mergeStep definition? ofDefinition) (last :: before)).reverse =
      before.reverse ++ mergeInto definition? ofDefinition last items := by
  induction items generalizing last before with
  | nil => simp [mergeInto]
  | cons item rest ih =>
    rw [List.foldl_cons, mergeStep_cons, mergeInto]
    cases merged? definition? ofDefinition last item with
    | some both => exact ih both before
    | none =>
      rw [ih item (last :: before), List.reverse_cons, List.append_assoc]
      rfl

theorem mergeDefinitions_cons (item : α) (rest : List α) :
    mergeDefinitions definition? ofDefinition (item :: rest) =
      mergeInto definition? ofDefinition item rest := by
  rw [mergeDefinitions, List.foldl_cons]
  exact foldl_mergeStep item [] rest

/-! ### Merging in two parts -/

section

variable (hof : ∀ definition, definition? (ofDefinition definition) = some definition)

include hof

theorem definedName?_of_merged? (h : merged? definition? ofDefinition first second = some both) :
    definedName? definition? both = definedName? definition? first ∧
      definedName? definition? second = definedName? definition? first := by
  unfold merged? at h
  unfold definedName?
  split at h
  · next first' second' hfirst hsecond =>
    split at h
    · next heq =>
      cases h
      rw [hof, hfirst, hsecond]
      exact ⟨rfl, congrArg some heq.symm⟩
    · cases h
  · cases h

/-- What is merged with the first of two neighbours that become one is merged with both. -/
theorem merged?_assoc {third : α} (h : merged? definition? ofDefinition first second = some both)
    {rest : α} (h' : merged? definition? ofDefinition second third = some rest) :
    ∃ all, merged? definition? ofDefinition both third = some all ∧
      merged? definition? ofDefinition first rest = some all := by
  unfold merged? at h h'
  split at h
  · next first' second' hfirst hsecond =>
    split at h
    · next heq =>
      cases h
      rw [hsecond] at h'
      split at h'
      · next second'' third' heq' hthird =>
        cases heq'
        split at h'
        · next hname =>
          cases h'
          refine ⟨ofDefinition ((first'.append second').append third'), ?_, ?_⟩
          · rw [merged?, hof, hthird]
            exact if_pos (heq.trans hname)
          · rw [merged?, hof, hfirst]
            refine (if_pos heq).trans (congrArg (some ∘ ofDefinition) ?_)
            simp only [TermDef.append, Span.join_join, List.append_assoc]
            rfl
        · cases h'
      · cases h'
    · cases h
  · cases h

/-- The first of merged items has the name of the first item. -/
theorem exists_mergeInto (item : α) (items : List α) :
    ∃ head tail, mergeInto definition? ofDefinition item items = head :: tail ∧
      definedName? definition? head = definedName? definition? item := by
  induction items generalizing item with
  | nil => exact ⟨item, [], rfl, rfl⟩
  | cons next rest ih =>
    rw [mergeInto]
    cases hmerged : merged? definition? ofDefinition item next with
    | some both =>
      obtain ⟨head, tail, heq, hname⟩ := ih both
      exact ⟨head, tail, heq, hname.trans (definedName?_of_merged? hof hmerged).1⟩
    | none => exact ⟨item, _, rfl, rfl⟩

theorem mergeInto_merged? (h : merged? definition? ofDefinition first second = some both)
    (items : List α) :
    ∃ head tail all, mergeInto definition? ofDefinition second items = head :: tail ∧
      merged? definition? ofDefinition first head = some all ∧
      mergeInto definition? ofDefinition both items = all :: tail := by
  induction items generalizing second both with
  | nil => exact ⟨second, [], both, rfl, h, rfl⟩
  | cons next rest ih =>
    rw [mergeInto, mergeInto]
    cases hnext : merged? definition? ofDefinition second next with
    | some both' =>
      obtain ⟨all, hall, hall'⟩ := merged?_assoc hof h hnext
      rw [hall]
      exact ih hall'
    | none =>
      have hboth : merged? definition? ofDefinition both next = none := by
        obtain ⟨hname, hname'⟩ := definedName?_of_merged? hof h
        exact (merged?_congr (hname.trans hname'.symm) rfl).2 hnext
      rw [hboth]
      exact ⟨second, _, both, rfl, h, rfl⟩

theorem mergeInto_append (last : α) (before after : List α) :
    mergeInto definition? ofDefinition last (before ++ after) =
      glue definition? ofDefinition (mergeInto definition? ofDefinition last before)
        (mergeDefinitions definition? ofDefinition after) := by
  induction before generalizing last with
  | nil =>
    cases after with
    | nil => rfl
    | cons item rest =>
      rw [List.nil_append, mergeDefinitions_cons, mergeInto.eq_def _ _ last (item :: rest)]
      dsimp only
      cases hmerged : merged? definition? ofDefinition last item with
      | some both =>
        obtain ⟨head, tail, all, hhead, hall, heq⟩ := mergeInto_merged? hof hmerged rest
        rw [hhead, mergeInto.eq_def definition? ofDefinition last [], glue, hall]
        exact heq
      | none =>
        obtain ⟨head, tail, hhead, hname⟩ := exists_mergeInto hof item rest
        rw [hhead, mergeInto.eq_def definition? ofDefinition last [], glue,
          (merged?_congr rfl hname).2 hmerged]
  | cons item rest ih =>
    rw [List.cons_append, mergeInto, mergeInto]
    cases merged? definition? ofDefinition last item with
    | some both => exact ih both
    | none =>
      obtain ⟨head, tail, hhead, -⟩ := exists_mergeInto hof item rest
      dsimp only
      rw [ih item, hhead]
      rfl

/-- Of two lists that are merged one behind the other only the items in the middle meet. -/
theorem mergeDefinitions_append (before after : List α) :
    mergeDefinitions definition? ofDefinition (before ++ after) =
      glue definition? ofDefinition (mergeDefinitions definition? ofDefinition before)
        (mergeDefinitions definition? ofDefinition after) := by
  cases before with
  | nil => rfl
  | cons item rest =>
    rw [List.cons_append, mergeDefinitions_cons, mergeDefinitions_cons, mergeInto_append hof]

theorem merged_mergeInto (item : α) (items : List α) :
    Merged definition? ofDefinition (mergeInto definition? ofDefinition item items) := by
  induction items generalizing item with
  | nil => exact .singleton item
  | cons next rest ih =>
    rw [mergeInto]
    cases hmerged : merged? definition? ofDefinition item next with
    | some both => exact ih both
    | none =>
      obtain ⟨head, tail, hhead, hname⟩ := exists_mergeInto hof next rest
      have hrest := ih next
      dsimp only
      rw [hhead] at hrest ⊢
      exact .cons_cons ((merged?_congr rfl hname).2 hmerged) hrest

theorem merged_mergeDefinitions (items : List α) :
    Merged definition? ofDefinition (mergeDefinitions definition? ofDefinition items) := by
  cases items with
  | nil => exact .nil
  | cons item rest =>
    rw [mergeDefinitions_cons]
    exact merged_mergeInto hof item rest

end

/-- Where no neighbours are definitions of one name nothing is merged. -/
theorem Merged.mergeDefinitions_eq (h : Merged definition? ofDefinition items) :
    mergeDefinitions definition? ofDefinition items = items := by
  cases items with
  | nil => rfl
  | cons item rest =>
    rw [mergeDefinitions_cons]
    induction rest generalizing item with
    | nil => rfl
    | cons next rest ih =>
      obtain ⟨hnext, hrest⟩ := List.isChain_cons_cons.1 h
      rw [mergeInto, hnext]
      dsimp only
      rw [ih next hrest]

/-- What is true of items, and of two that are merged if it is of both, is true of merged items. -/
theorem forall_mem_of_merged? {p : α → Prop}
    (hmerged : ∀ {first second both}, merged? definition? ofDefinition first second = some both →
      p first → p second → p both)
    (h : ∀ item ∈ items, p item) :
    ∀ item ∈ mergeDefinitions definition? ofDefinition items, p item := by
  cases items with
  | nil => exact h
  | cons first rest =>
    rw [mergeDefinitions_cons]
    obtain ⟨hfirst, hrest⟩ := List.forall_mem_cons.1 h
    clear h
    induction rest generalizing first with
    | nil => exact List.forall_mem_singleton.2 hfirst
    | cons next rest ih =>
      obtain ⟨hnext, hrest⟩ := List.forall_mem_cons.1 hrest
      rw [mergeInto]
      cases hboth : merged? definition? ofDefinition first next with
      | none => exact List.forall_mem_cons.2 ⟨hfirst, ih next hnext hrest⟩
      | some both => exact ih both (hmerged hboth hfirst hnext) hrest

/-- Two items that are merged are definitions of one name. -/
theorem exists_of_merged? (h : merged? definition? ofDefinition first second = some both) :
    ∃ definition definition', definition? first = some definition ∧
      definition? second = some definition' ∧ definition.name = definition'.name ∧
      both = ofDefinition (definition.append definition') := by
  unfold merged? at h
  split at h
  · next definition definition' hfirst hsecond =>
    split at h
    · next hname => exact ⟨_, _, hfirst, hsecond, hname, (Option.some.inj h).symm⟩
    · cases h
  · cases h

/-- What is true of items, and of every definition, is true of merged items. -/
theorem forall_mem_mergeDefinitions {p : α → Prop}
    (hof : ∀ definition, p (ofDefinition definition)) (h : ∀ item ∈ items, p item) :
    ∀ item ∈ mergeDefinitions definition? ofDefinition items, p item := by
  refine forall_mem_of_merged? (fun hboth _ _ => ?_) h
  obtain ⟨_, _, -, -, -, rfl⟩ := exists_of_merged? hboth
  exact hof _

/-- Merging does not depend on what else an item may be. -/
theorem mergeDefinitions_embed {β : Type} {definition'? : β → Option TermDef}
    {ofDefinition' : TermDef → β} {embed : β → α}
    (hdefinition : ∀ item, definition? (embed item) = definition'? item)
    (hof : ∀ definition, ofDefinition definition = embed (ofDefinition' definition))
    (items : List β) :
    mergeDefinitions definition? ofDefinition (items.map embed) =
      (mergeDefinitions definition'? ofDefinition' items).map embed := by
  have hmerged : ∀ first second, merged? definition? ofDefinition (embed first) (embed second) =
      (merged? definition'? ofDefinition' first second).map embed := by
    intro first second
    unfold merged?
    rw [hdefinition, hdefinition]
    cases definition'? first with
    | none => rfl
    | some first =>
      cases definition'? second with
      | none => rfl
      | some second =>
        dsimp only
        rw [hof]
        split <;> rfl
  cases items with
  | nil => rfl
  | cons item rest =>
    rw [List.map_cons, mergeDefinitions_cons, mergeDefinitions_cons]
    induction rest generalizing item with
    | nil => rfl
    | cons next rest ih =>
      rw [List.map_cons, mergeInto, mergeInto, hmerged]
      cases merged? definition'? ofDefinition' item next with
      | some both => exact ih both
      | none => exact congrArg (embed item :: ·) (ih next)

end

/-! ### Matching annotations in two parts -/

/-- The definition that an item is, if it is one. -/
def Item.definition? : Item → Option TermDef
  | declaration (.definition definition) => some definition
  | _ => none

/-- A definition as an item. -/
def Item.ofDefinition (definition : TermDef) : Item := .declaration (.definition definition)

namespace Statement

variable {statement : Statement} {target : Option String} {item : Item}

theorem eq_ofDefinition {definition : TermDef} (h : statement.definition? = some definition) :
    statement = ofDefinition definition := by
  unfold definition? at h
  split at h <;> cases h
  rfl

theorem settle_of_definition? {definition : TermDef} (h : statement.definition? = some definition)
    (target : Option String) :
    statement.settle target = (some (Item.ofDefinition definition), none) := by
  unfold definition? at h
  split at h
  · cases h
    rfl
  · cases h

/-- A statement stays the definition that it is, and no other statement becomes one. -/
theorem definition?_of_settle (h : (statement.settle target).1 = some item) :
    item.definition? = statement.definition? := by
  cases statement with
  | pending =>
    cases target <;> cases h
    rfl
  | item plain =>
    cases plain with
    | declaration declaration =>
      cases declaration with
      | ascription ascription =>
        obtain ⟨name, typeExpr, attachment, span⟩ := ascription
        cases attachment <;> cases target <;> cases h <;> rfl
      | _ =>
        cases h
        rfl
    | _ =>
      cases h
      rfl

/-- A statement is only left out if it is an annotation without a definition behind it, and then
that is reported. -/
theorem settle_eq_none (h : (statement.settle target).1 = none) :
    statement.definition? = none ∧ target = none ∧ (statement.settle target).2 ≠ none := by
  cases statement with
  | pending =>
    cases target with
    | none => exact ⟨rfl, rfl, nofun⟩
    | some => cases h
  | item plain =>
    cases plain with
    | declaration declaration =>
      cases declaration with
      | ascription ascription =>
        obtain ⟨name, typeExpr, attachment, span⟩ := ascription
        cases attachment with
        | sameLine => cases h
        | nextDeclaration =>
          cases target with
          | none => exact ⟨rfl, rfl, nofun⟩
          | some => cases h
      | _ => cases h
    | _ => cases h

/-- A statement that may end a list without a report needs nothing behind it. -/
theorem settle_eq_of_quiet (h : (statement.settle none).2 = none) (target : Option String) :
    statement.settle target = statement.settle none := by
  cases statement with
  | pending => cases h
  | item plain =>
    cases plain with
    | declaration declaration =>
      cases declaration with
      | ascription ascription =>
        obtain ⟨name, typeExpr, attachment, span⟩ := ascription
        cases attachment with
        | nextDeclaration => cases h
        | sameLine => rfl
      | _ => rfl
    | _ => rfl

/-- What follows a statement decides what becomes of it by its name alone. -/
theorem annotatedName?_of_definition? {definition : TermDef}
    (h : statement.definition? = some definition) :
    statement.annotatedName? = some definition.name := by
  unfold definition? at h
  split at h
  · cases h
    rfl
  · cases h

theorem head_glue (statement : Statement) (rest after : List Statement) :
    (glue definition? ofDefinition (statement :: rest) after).head?.bind annotatedName? =
      statement.annotatedName? := by
  cases rest with
  | cons => rfl
  | nil =>
    cases after with
    | nil => rfl
    | cons next others =>
      cases hmerged : merged? definition? ofDefinition statement next with
      | none =>
        rw [glue, hmerged]
        rfl
      | some both =>
        rw [glue, hmerged]
        unfold merged? at hmerged
        split at hmerged
        · next first second hfirst hsecond =>
          split at hmerged
          · cases hmerged
            exact (annotatedName?_of_definition? hfirst).symm
          · cases hmerged
        · cases hmerged

/-- The first of what becomes of some statements is a definition only if their first is that
definition: what is left out stands in front of no definition. -/
theorem head_settleAll (statements : List Statement) :
    (settleAll statements).1.head?.bind Item.definition? =
      statements.head?.bind definition? := by
  induction statements with
  | nil => rfl
  | cons statement rest ih =>
    rw [settleAll]
    dsimp only
    cases hkept : (statement.settle (rest.head?.bind annotatedName?)).1 with
    | some item => exact definition?_of_settle hkept
    | none =>
      obtain ⟨hnone, htarget, -⟩ := settle_eq_none hkept
      rw [List.head?_cons, Option.bind_some, hnone]
      refine ih.trans ?_
      cases hhead : rest.head? with
      | none => rfl
      | some next =>
        rw [hhead] at htarget
        cases hdefinition : next.definition? with
        | none => exact hdefinition
        | some definition =>
          rw [Option.bind_some, annotatedName?_of_definition? hdefinition] at htarget
          cases htarget

/-- Neighbours that are not merged are still not merged when annotations have been matched. -/
theorem merged_settleAll {statements : List Statement}
    (h : Merged definition? ofDefinition statements) :
    Merged Item.definition? Item.ofDefinition (settleAll statements).1 := by
  induction statements with
  | nil => exact .nil
  | cons statement rest ih =>
    have hrest := ih h.of_cons
    rw [settleAll]
    dsimp only
    cases hkept : (statement.settle (rest.head?.bind annotatedName?)).1 with
    | none => exact hrest
    | some item =>
      have hhead := head_settleAll rest
      have hdefinition := definition?_of_settle hkept
      cases hitems : (settleAll rest).1 with
      | nil => exact .singleton item
      | cons next others =>
        rw [hitems] at hrest hhead
        refine .cons_cons (merged?_eq_none_iff.2 fun name hname hname' => ?_) hrest
        cases rest with
        | nil => cases hitems
        | cons following rest =>
          have hnone := (List.isChain_cons_cons.1 h).1
          refine merged?_eq_none_iff.1 hnone name ?_ ?_
          · rw [← hname, definedName?, definedName?, hdefinition]
          · rw [← hname', definedName?, definedName?]
            exact congrArg (Option.map TermDef.name) hhead.symm

/-- Of statements that are matched without a report none is left out. -/
theorem exists_of_quiet {rest : List Statement} (h : (settleAll (statement :: rest)).2 = []) :
    ∃ item, statement.settle (rest.head?.bind annotatedName?) = (some item, none) ∧
      (settleAll (statement :: rest)).1 = item :: (settleAll rest).1 ∧
      (settleAll rest).2 = [] := by
  rw [settleAll] at h ⊢
  dsimp only at h ⊢
  obtain ⟨hreport, hrest⟩ := List.append_eq_nil_iff.1 h
  have hnone : (statement.settle (rest.head?.bind annotatedName?)).2 = none := by
    cases hreported : (statement.settle (rest.head?.bind annotatedName?)).2 with
    | none => rfl
    | some => rw [hreported] at hreport; cases hreport
  cases hkept : (statement.settle (rest.head?.bind annotatedName?)).1 with
  | none => exact absurd hnone (settle_eq_none hkept).2.2
  | some item => exact ⟨item, Prod.ext hkept hnone, rfl, hrest⟩

theorem settleAll_cons (statement : Statement) (rest : List Statement) :
    settleAll (statement :: rest) =
      ((statement.settle (rest.head?.bind annotatedName?)).1.toList ++ (settleAll rest).1,
        (statement.settle (rest.head?.bind annotatedName?)).2.toList ++ (settleAll rest).2) := rfl

/-- A statement that needs nothing behind it, in front of others. -/
theorem settleAll_glue_singleton (h : statement.settle none = (some item, none))
    (after : List Statement) :
    settleAll (glue definition? ofDefinition [statement] after) =
      (glue Item.definition? Item.ofDefinition [item] (settleAll after).1, (settleAll after).2) := by
  cases after with
  | nil =>
    rw [glue, settleAll]
    exact congrArg (fun settled : Option Item × Option Diagnostic =>
      (settled.1.toList ++ [], settled.2.toList ++ [])) h
  | cons next others =>
    have hdefinition : item.definition? = statement.definition? :=
      definition?_of_settle (congrArg Prod.fst h : (statement.settle none).1 = some item)
    cases hmerged : merged? definition? ofDefinition statement next with
    | none =>
      have hquiet := settle_eq_of_quiet (by rw [h] : (statement.settle none).2 = none)
        ((next :: others).head?.bind annotatedName?)
      rw [glue, hmerged]
      dsimp only
      rw [settleAll_cons statement, hquiet, h]
      refine Prod.ext ?_ rfl
      have hhead := head_settleAll (next :: others)
      cases hitems : (settleAll (next :: others)).1 with
      | nil => rfl
      | cons following rest =>
        rw [hitems] at hhead
        have hnone : merged? Item.definition? Item.ofDefinition item following = none := by
          refine merged?_eq_none_iff.2 fun name hname hname' => ?_
          refine merged?_eq_none_iff.1 hmerged name ?_ ?_
          · rw [← hname, definedName?, definedName?, hdefinition]
          · rw [← hname', definedName?, definedName?]
            exact congrArg (Option.map TermDef.name) hhead.symm
        rw [glue, hnone]
        rfl
    | some both =>
      rw [glue, hmerged]
      dsimp only
      unfold merged? at hmerged
      split at hmerged
      · next first second hfirst hsecond =>
        split at hmerged
        · next hname =>
          cases hmerged
          have hitem : item = Item.ofDefinition first := by
            rw [settle_of_definition? hfirst] at h
            exact (Option.some.inj (Prod.mk.inj h).1).symm
          have hitems : merged? Item.definition? Item.ofDefinition (Item.ofDefinition first)
              (Item.ofDefinition second) = some (Item.ofDefinition (first.append second)) :=
            if_pos hname
          have hboth : (ofDefinition (first.append second)).definition? =
              some (first.append second) := rfl
          rw [settleAll_cons, settleAll_cons, settle_of_definition? hsecond,
            settle_of_definition? hboth, hitem]
          refine Prod.ext ?_ rfl
          show _ = glue _ _ [_] (Item.ofDefinition second :: (settleAll others).1)
          rw [glue, hitems]
          rfl
        · cases hmerged
      · cases hmerged

theorem settleAll_glue {before : List Statement} (h : (settleAll before).2 = [])
    (after : List Statement) :
    settleAll (glue definition? ofDefinition before after) =
      (glue Item.definition? Item.ofDefinition (settleAll before).1 (settleAll after).1,
        (settleAll after).2) := by
  induction before with
  | nil => rfl
  | cons statement rest ih =>
    obtain ⟨item, hsettle, hitems, hrest⟩ := exists_of_quiet h
    cases rest with
    | nil =>
      rw [hitems]
      exact settleAll_glue_singleton hsettle after
    | cons next others =>
      obtain ⟨item', -, hitems', -⟩ := exists_of_quiet hrest
      rw [hitems, hitems', glue, glue, settleAll, head_glue, ← hitems', ih hrest]
      rw [List.head?_cons, Option.bind_some] at hsettle
      rw [hsettle]
      rfl

/-- After grouping no neighbours are left to be merged. -/
theorem merged_group (statements : List Statement) :
    Merged Item.definition? Item.ofDefinition (group statements).1 := by
  have hof : ∀ definition, definition? (ofDefinition definition) = some definition := fun _ => rfl
  exact merged_settleAll (merged_mergeDefinitions hof statements)

/-- Grouping two lists of statements one behind the other, of which nothing is reported of the first:
what each becomes is merged in the middle. -/
theorem group_append {before : List Statement} (h : (group before).2 = []) (after : List Statement) :
    group (before ++ after) =
      (mergeDefinitions Item.definition? Item.ofDefinition ((group before).1 ++ (group after).1),
        (group after).2) := by
  have hof : ∀ definition, definition? (ofDefinition definition) = some definition := fun _ => rfl
  have hof' : ∀ definition, Item.definition? (Item.ofDefinition definition) = some definition :=
    fun _ => rfl
  have hmerged : ∀ statements, mergeDefinitions Item.definition? Item.ofDefinition
      (group statements).1 = (group statements).1 := fun statements =>
    (merged_group statements).mergeDefinitions_eq
  rw [mergeDefinitions_append hof', hmerged, hmerged, group, mergeDefinitions_append hof]
  exact settleAll_glue h _

end Statement

end SableFrontend
