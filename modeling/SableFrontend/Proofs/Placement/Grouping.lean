import SableFrontend.Proofs.Placement.Extent

/-!
Grouping keeps trees in their places. Two definitions that are merged become one that extends from
the start of the first to the end of the second, and their clauses sit where they sat; that takes
the order of a `Row`. An annotation that is matched with a definition is the tree that it was, under
another name. What is reported on the way points at trees.
-/

namespace SableFrontend

namespace TokenStream

variable {stream : TokenStream} {quiet : Prop} {first last high : Nat}

/-! ### Merging -/

/-- Two definitions, of which the second neither starts nor ends before the first, make one. -/
theorem SitsAt.append {first' last' : Nat} {definition other : TermDef}
    (h : stream.SitsAt quiet first last definition.outline)
    (h' : stream.SitsAt quiet first' last' other.outline) (hfirst : first ≤ first')
    (hlast : last ≤ last') :
    stream.SitsAt quiet first last' (definition.append other).outline where
  spans := by
    have hspans := h.spans.join h'.spans (Nat.le_trans h.spans.le hlast)
    rw [TermDef.span_outline, TermDef.span_outline] at hspans
    rwa [TermDef.span_outline]
  made _ := trivial
  children child hmem := by
    rw [TermDef.children_outline, TermDef.append, trees_append] at hmem
    rcases List.mem_append.1 hmem with hmem | hmem
    · exact (h.children child (by rwa [TermDef.children_outline])).mono (Nat.le_refl _)
        (Nat.succ_le_succ hlast) id
    · exact (h'.children child (by rwa [TermDef.children_outline])).mono hfirst (Nat.le_refl _) id

section

variable {α : Type} [Forest α] {definition? : α → Option TermDef} {ofDefinition : TermDef → α}

/-- Merging makes a row of a row. -/
theorem Row.mergeDefinitions (hof : ∀ definition, trees (ofDefinition definition) =
      [definition.outline])
    (hdefinition : ∀ item definition, definition? item = some definition →
      trees item = [definition.outline]) (hone : ∀ item : α, ∃ tree, trees item = [tree])
    {items : List α} (h : stream.Row quiet first last (trees items) high) :
    stream.Row quiet first last (trees (mergeDefinitions definition? ofDefinition items)) high := by
  have hloop : ∀ (item : α) (first last : Nat),
      stream.Row quiet first last (trees (item :: items.tail)) high →
      stream.Row quiet first last
        (trees (mergeInto definition? ofDefinition item items.tail)) high := by
    generalize items.tail = rest
    induction rest with
    | nil => exact fun _ _ _ h => h
    | cons next rest ih =>
      intro item first last h
      rw [mergeInto]
      split
      · next both hmerged =>
        -- the two are definitions, and one reaches from the start of the first to the end of the second
        unfold merged? at hmerged
        split at hmerged
        · next one other hone hother =>
          split at hmerged
          · obtain rfl := Option.some.inj hmerged
            refine ih _ _ _ ?_
            rw [trees_cons, trees_cons, hdefinition _ _ hone, hdefinition _ _ hother] at h
            obtain ⟨a, b, ha, hb, -, hat, a', b', haa, hbb, hlt, hat', hrest⟩ := h
            rw [trees_cons, hof]
            exact ⟨a, b', ha, Nat.le_trans hb hbb, hlt, hat.append hat' haa hbb,
              hrest.mono haa (Nat.le_refl _) (Nat.le_refl _) id⟩
          · cases hmerged
        · cases hmerged
      · obtain ⟨tree, htree⟩ := hone item
        rw [trees_cons, htree] at h ⊢
        obtain ⟨a, b, ha, hb, hlt, hat, hrest⟩ := h
        exact ⟨a, b, ha, hb, hlt, hat, ih next a b hrest⟩
  cases items with
  | nil => exact h
  | cons item rest =>
    rw [mergeDefinitions_cons]
    exact hloop item first last h

end

/-! ### Matching annotations -/

/-- A statement is a single tree. -/
theorem exists_trees_statement (statement : Statement) : ∃ tree, trees statement = [tree] := by
  cases statement <;> exact ⟨_, rfl⟩

/-- What a statement becomes sits where it sat, and what is reported about it points at it. -/
theorem SitsAt.settle {statement : Statement} {tree : Outline}
    (h : stream.SitsAt quiet first last tree) (htree : trees statement = [tree])
    (target : Option String) :
    (∀ item ∈ (statement.settle target).1, stream.SitsAt quiet first last item.outline) ∧
      ∀ diagnostic ∈ (statement.settle target).2, ∀ label ∈ diagnostic.labels,
        label.span = tree.span := by
  cases statement with
  | pending typeExpr span =>
    obtain rfl := (List.cons.inj htree).1
    cases target with
    | none =>
      refine ⟨fun _ hmem => absurd hmem (Option.not_mem_none _), fun diagnostic hmem label hlabel => ?_⟩
      obtain rfl := Option.some.inj hmem
      rw [List.mem_singleton.1 hlabel]
      rfl
    | some name =>
      refine ⟨fun item hmem => ?_, fun _ hmem => absurd hmem (Option.not_mem_none _)⟩
      obtain rfl := Option.some.inj hmem
      exact h.remake rfl (fun _ => trivial) (List.Subset.refl _)
  | item plain =>
    obtain rfl := (List.cons.inj htree).1
    cases plain with
    | declaration declaration =>
      cases declaration with
      | ascription ascription =>
        obtain ⟨name, typeExpr, attachment, span⟩ := ascription
        have hkept : ∀ item,
            some (Item.declaration (.ascription ⟨name, typeExpr, attachment, span⟩)) = some item →
            stream.SitsAt quiet first last item.outline := by
          intro item heq
          rw [← Option.some.inj heq]
          exact h
        -- every report about an annotation has it as its only label
        have hlabel : ∀ {diagnostic : Diagnostic} {message : String},
            diagnostic.labels = [.primary span message] → ∀ label ∈ diagnostic.labels,
              label.span = span := by
          intro diagnostic message hlabels label hmem
          rw [hlabels] at hmem
          rw [List.mem_singleton.1 hmem]
          rfl
        cases attachment with
        | sameLine => exact ⟨hkept, nofun⟩
        | nextDeclaration =>
          cases target with
          | none =>
            refine ⟨nofun, fun diagnostic hmem => ?_⟩
            obtain rfl := Option.some.inj hmem
            exact hlabel rfl
          | some target =>
            refine ⟨hkept, fun diagnostic hmem => ?_⟩
            unfold Statement.settle at hmem
            dsimp only at hmem
            split at hmem
            · cases hmem
            · obtain rfl := Option.some.inj hmem
              exact hlabel rfl
      | _ => exact ⟨fun item hmem => Option.some.inj hmem ▸ h, nofun⟩
    | _ => exact ⟨fun item hmem => Option.some.inj hmem ▸ h, nofun⟩

theorem Row.settleAll {statements : List Statement}
    (h : stream.Row quiet first last (trees statements) high) :
    stream.Row quiet first last (trees (Statement.settleAll statements).1) high ∧
      ∀ diagnostic ∈ (Statement.settleAll statements).2, ∀ label ∈ diagnostic.labels,
        stream.Marks label.span := by
  induction statements generalizing first last with
  | nil => exact ⟨h, fun _ hmem => absurd hmem List.not_mem_nil⟩
  | cons statement rest ih =>
    obtain ⟨tree, htree⟩ := exists_trees_statement statement
    rw [trees_cons, htree] at h
    obtain ⟨a, b, ha, hb, hlt, hat, hrest⟩ := h
    obtain ⟨hsits, hlabels⟩ := hat.settle htree (rest.head?.bind Statement.annotatedName?)
    obtain ⟨hrow, hmarks⟩ := ih hrest
    rw [Statement.settleAll_cons]
    constructor
    · cases hkept : (statement.settle (rest.head?.bind Statement.annotatedName?)).1 with
      | none => exact hrow.mono ha hb (Nat.le_refl _) id
      | some item => exact ⟨a, b, ha, hb, hlt, hsits item hkept, hrow⟩
    · intro diagnostic hmem label hlabel
      rcases List.mem_append.1 hmem with hmem | hmem
      · rw [hlabels diagnostic (Option.mem_toList.1 hmem) label hlabel]
        exact Or.inr ⟨a, b, hat.spans⟩
      · exact hmarks diagnostic hmem label hlabel

/-- Grouping makes a row of a row, and what it reports points at trees of it. -/
theorem Row.group {statements : List Statement}
    (h : stream.Row quiet first last (trees statements) high) :
    stream.Row quiet first last (trees (Statement.group statements).1) high ∧
      ∀ diagnostic ∈ (Statement.group statements).2, ∀ label ∈ diagnostic.labels,
        stream.Marks label.span := by
  refine Row.settleAll (h.mergeDefinitions (fun _ => rfl) (fun statement definition hsome => ?_)
    exists_trees_statement)
  unfold Statement.definition? at hsome
  split at hsome
  · cases hsome
    rfl
  · cases hsome

end TokenStream

end SableFrontend
