import SableFrontend.Proofs.Grammar.Type
import SableFrontend.Proofs.Placement.Pattern

/-!
Types sit where they are read, given that those one level of nesting further in do. In an effect
list a variable is a row and no effect, so no effect is a variable.
-/

namespace SableFrontend

/-- A row variable is seen as the type that it was read as. -/
theorem TypeExpr.outline_of_asRowVariable? {type : TypeExpr} {row : RowVariable}
    (h : type.asRowVariable? = some row) : type.outline = row.outline := by
  cases type <;> cases h
  rfl

/-- What is below an effectful type are its entries, each in its role, and its result. -/
theorem TypeExpr.children_effectful_subset (entries : List TypeExpr) (result : Option TypeExpr)
    (span : Span) :
    (TypeExpr.effectful (entries.filter fun entry => entry.asRowVariable?.isNone)
      (entries.filterMap TypeExpr.asRowVariable?).head? result span).outline.children ⊆
      trees entries ++ trees result := by
  intro child hmem
  have hmem : child ∈ trees (entries.filter fun entry => entry.asRowVariable?.isNone) ++
      (((entries.filterMap TypeExpr.asRowVariable?).head?.map RowVariable.outline).toList ++
        trees result) := by
    simpa [Outline.children, TypeExpr.outline] using hmem
  rcases List.mem_append.1 hmem with hmem | hmem
  · exact List.mem_append_left _ (trees_subset (List.filter_subset_self _) hmem)
  rcases List.mem_append.1 hmem with hmem | hmem
  · obtain ⟨row, hrow, rfl⟩ := Option.map_eq_some_iff.1 (Option.mem_toList.1 hmem)
    obtain ⟨type, htype, heq⟩ := List.mem_filterMap.1 (List.mem_of_mem_head? hrow)
    refine List.mem_append_left _ (mem_trees.2 ⟨type, htype, ?_⟩)
    rw [← TypeExpr.outline_of_asRowVariable? heq]
    exact List.mem_singleton_self _
  · exact List.mem_append_right _ hmem

namespace Setting

open SableFrontend.Parser

variable {set : Setting} {start state : ParserState} {footing : Footing} {before : List Outline}
  {inner : TypeRule → Parser TypeExpr}

theorem runs_roundType (hinner : ∀ rule, set.Builds (inner rule))
    (hlt : state.position < set.stream.size)
    (hkind : set.stream.kind state.position = .opener .round) :
    set.Runs (roundType inner) state
      (fun answer final => set.Passed state .solid (trees answer) final) (set.Halts state) := by
  refine .bind ((Passed.refl hlt).advance hkind rfl fun s₁ h₁ _ => ?_)
  refine .bind (.isAt (.ite (fun hclose => ?_) fun _ => ?_))
  · refine .bind (h₁.advance (beq_iff_eq.1 hclose) rfl fun s₂ h₂ _ => ?_)
    exact .bind (.spanFromPrevious (.pure (h₂.node rfl
      (by simp [Outline.children, TypeExpr.outline]) fun _ => trivial)))
  · refine .bind (h₁.build (hinner .type) fun first s₂ h₂ _ => ?_)
    refine .bind (.isAt (.ite (fun _ => ?_) fun _ => ?_))
    · exact .bind (h₂.expect rfl fun s₃ _ h₃ _ => .pure h₃)
    · refine .bind (h₂.collectBehind rfl (hinner .type) fun more s₃ h₃ => ?_)
      refine .bind (h₃.expect rfl fun s₄ _ h₄ _ => ?_)
      exact .bind (.spanFromPrevious (.pure (h₄.node rfl
        (by simp [Outline.children, TypeExpr.outline, trees]) fun _ => trivial)))

theorem builds_typeAtom (hinner : ∀ rule, set.Builds (inner rule)) :
    set.Builds (typeAtom inner) := by
  intro state hlt
  have h : set.Passed state .firm [] state := .refl hlt
  refine .bind (.current ?_)
  split
  · next hkind =>
    exact .bind (h.advance hkind rfl fun s₁ h₁ hs₁ =>
      .pure (h₁.leaf hs₁ rfl rfl trivial))
  · next hkind =>
    exact .bind (h.advance hkind rfl fun s₁ h₁ hs₁ =>
      .pure (h₁.leaf hs₁ rfl rfl trivial))
  · next hkind => exact runs_roundType hinner hlt hkind
  · exact h.unexpected

theorem builds_appliedType (hinner : ∀ rule, set.Builds (inner rule)) :
    set.Builds (appliedType inner) := by
  intro state hlt
  have hatom := builds_typeAtom hinner
  refine .bind (.current (.bind ((Passed.refl hlt).build hatom fun head s₁ h₁ _ => ?_)))
  -- each application extends from the start of the head
  refine .repeatWhile (fun function s => set.Passed state .solid (trees function) s)
    (fun function s hs => .isAtAny ⟨fun _ => ?_, fun _ => hs⟩)
    (fun _ s hs => ⟨hs.forget, Abort.noConfusion⟩) h₁
  refine .bind (hs.build hatom fun argument s₂ h₂ _ => ?_)
  exact .bind (.spanFromPrevious (.pure (h₂.node rfl
    (by simp [Outline.children, TypeExpr.outline, trees]) fun _ => trivial)))

/-- The entries of an effect list, behind its opening bracket. -/
theorem Passed.effectEntries (h : set.Passed start .solid [] state)
    (hinner : ∀ rule, set.Builds (inner rule)) {returns : List TypeExpr → ParserState → Prop}
    (next : ∀ entries final, set.Passed start .loose (trees entries) final →
      returns entries final) :
    set.Runs (effectEntries inner) state returns (set.Halts start) := by
  refine .bind (h.skipNewlines fun s₁ h₁ => ?_)
  refine .bind (.isAt (.ite (fun _ => .pure (next _ _ h₁)) fun _ => ?_))
  refine .bind (h₁.build (hinner .application) fun first s₂ h₂ _ => ?_)
  refine .bind (h₂.skipNewlines fun s₃ h₃ => ?_)
  exact .bind (h₃.collectOnLines rfl (hinner .application) fun more s₄ h₄ =>
    .pure (next _ _ h₄))

/-- Row variables that are reported have been read. -/
theorem Passed.checkRow {entries : List TypeExpr} (h : set.Passed start footing before state)
    (hentries : trees entries ⊆ before) {returns : Unit → ParserState → Prop}
    (next : ∀ final, set.Passed start footing before final → final.position = state.position →
      returns () final) :
    set.Runs (checkRow entries) state returns (set.Halts start) := by
  have hmarks : ∀ row ∈ entries.filterMap TypeExpr.asRowVariable?, set.stream.Marks row.span := by
    intro row hmem
    obtain ⟨type, htype, hrow⟩ := List.mem_filterMap.1 hmem
    have hread := h.marksTree (hentries (mem_trees.2 ⟨type, htype, List.mem_singleton_self _⟩))
    rwa [TypeExpr.outline_of_asRowVariable? hrow] at hread
  unfold Parser.checkRow
  split
  · next first second rest heq =>
    refine h.report (fun label hmem => ?_) fun final hfinal hposition _ => next final hfinal hposition
    rw [List.mem_singleton.1 hmem]
    exact hmarks second (by rw [heq]; simp)
  · next row heq =>
    refine .ite (fun _ => ?_) fun _ => .pure (next _ h rfl)
    exact h.reportError (hmarks row (by rw [heq]; simp)) fun final hfinal hposition _ =>
      next final hfinal hposition
  · exact .pure (next _ h rfl)

theorem runs_effectType (hinner : ∀ rule, set.Builds (inner rule))
    (hlt : state.position < set.stream.size)
    (hkind : set.stream.kind state.position = .opener .square) :
    set.Runs (effectType inner) state
      (fun answer final => set.Passed state .solid (trees answer) final) (set.Halts state) := by
  refine .bind ((Passed.refl hlt).advance hkind rfl fun s₁ h₁ _ => ?_)
  refine .bind (h₁.effectEntries hinner fun entries s₂ h₂ => ?_)
  refine .bind (h₂.expect rfl fun s₃ _ h₃ _ => ?_)
  refine .bind (h₃.checkRow (List.Subset.refl _) fun s₄ h₄ _ => ?_)
  have hmade : ∀ {row : Option RowVariable} {result : Option TypeExpr} {span : Span},
      (TypeExpr.effectful (entries.filter fun entry => entry.asRowVariable?.isNone) row result
        span).outline.WellMade := by
    intro row result span
    refine TypeExpr.wellMade_effectful fun effect hmem => ?_
    simpa using (List.mem_filter.1 hmem).2
  refine .bind (.isAtAny (.ite (fun _ => ?_) fun _ => ?_))
  · refine .bind (.map (h₄.build (builds_appliedType hinner) fun result s₅ h₅ _ => ?_))
    exact .bind (.spanFromPrevious (.pure (h₅.node rfl
      (TypeExpr.children_effectful_subset entries (some result) _) fun _ => hmade)))
  · refine .bind (.pure (.bind (.spanFromPrevious (.pure (h₄.node rfl ?_ fun _ => hmade)))))
    simpa using TypeExpr.children_effectful_subset entries none _

theorem builds_typeApplication (hinner : ∀ rule, set.Builds (inner rule)) :
    set.Builds (typeApplication inner) := by
  intro state hlt
  refine .bind (.isAt (.ite (fun hopener => ?_) fun _ => ?_))
  · exact runs_effectType hinner hlt (beq_iff_eq.1 hopener)
  · exact builds_appliedType hinner state hlt

theorem builds_arrowType (hinner : ∀ rule, set.Builds (inner rule)) :
    set.Builds (arrowType inner) := by
  intro state hlt
  refine .bind (.current (.bind ((Passed.refl hlt).build (builds_typeApplication hinner)
    fun parameter s₁ h₁ _ => ?_)))
  refine .bind (.isAtOperator (.ite (fun harrow => ?_) fun _ => .pure h₁))
  refine .bind (h₁.advance rfl (Token.isSolid_of_isOperator harrow) fun s₂ h₂ _ => ?_)
  refine .bind (h₂.skipNewlines fun s₃ h₃ => ?_)
  refine .bind (h₃.build (hinner .arrow) fun result s₄ h₄ _ => ?_)
  exact .bind (.spanFromPrevious (.pure (h₄.node rfl
    (by simp [Outline.children, TypeExpr.outline, trees]) fun _ => trivial)))

theorem builds_constraint (hinner : ∀ rule, set.Builds (inner rule)) :
    set.Builds (constraint inner) := by
  intro state hlt
  refine .bind ((Passed.refl hlt).expect rfl fun s₁ _ h₁ _ => ?_)
  refine .bind (h₁.collectWhile (fun s hs => .isAtAny ⟨hs, fun _ =>
    hs.build (builds_typeAtom hinner) fun _ _ h' _ => h'⟩) fun arguments s₂ h₂ => ?_)
  refine .ite (fun _ => .bind h₂.unexpected) fun hsome => ?_
  exact .bind (.spanFromPrevious (.pure (h₂.node rfl
    (by simp [Outline.children, Constraint.outline, trees])
    fun _ => Constraint.wellMade (by simpa using hsome))))

theorem builds_context (hinner : ∀ rule, set.Builds (inner rule)) : set.Builds (context inner) := by
  intro state hlt
  have h : set.Passed state .firm [] state := .refl hlt
  have hconstraint := builds_constraint hinner
  refine .bind (.isAt (.ite (fun hopener => ?_) fun _ => ?_))
  · refine .bind (h.advance (beq_iff_eq.1 hopener) rfl fun s₁ h₁ _ => ?_)
    refine .bind (h₁.build hconstraint fun first s₂ h₂ _ => ?_)
    refine .bind (h₂.collectBehind rfl hconstraint fun more s₃ h₃ => ?_)
    exact .bind (h₃.expect rfl fun s₄ _ h₄ _ => .pure h₄)
  · exact .bind (h.build hconstraint fun _ _ h₁ _ => .pure h₁)

theorem builds_typeExpr (hinner : ∀ rule, set.Builds (inner rule)) :
    set.Builds (typeExpr inner) := by
  intro state hlt
  have h : set.Passed state .firm [] state := .refl hlt
  refine .bind (.current (.bind (.contextAhead fun _ => .ite (fun _ => ?_) fun _ => ?_)))
  · refine .bind (h.build (builds_context hinner) fun constraints s₁ h₁ _ => ?_)
    refine .bind (h₁.expectOperator fun s₂ h₂ => ?_)
    refine .bind (h₂.skipNewlines fun s₃ h₃ => ?_)
    refine .bind (h₃.build (builds_arrowType hinner) fun body s₄ h₄ _ => ?_)
    exact .bind (.spanFromPrevious (.pure (h₄.node rfl
      (by simp [Outline.children, TypeExpr.outline, trees]) fun _ => trivial)))
  · exact builds_arrowType hinner state hlt

/-- Types sit where they are read, however deep they may nest. -/
theorem builds_typeAt (budget : Nat) : ∀ rule, set.Builds (typeAt budget rule) := by
  induction budget with
  | zero => exact fun _ state hlt => (Passed.refl hlt).throw Abort.noConfusion
  | succ budget ih =>
    intro rule
    cases rule with
    | type => exact builds_typeExpr ih
    | arrow => exact builds_arrowType ih
    | application => exact builds_typeApplication ih

end Setting

end SableFrontend
