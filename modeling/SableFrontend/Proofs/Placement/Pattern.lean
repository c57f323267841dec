import SableFrontend.Proofs.Grammar.Pattern
import SableFrontend.Proofs.Placement.Loops

/-!
Patterns sit where they are read, given that the patterns one level of nesting further in do. A list
with a tail is a chain of nodes that all extend over the whole of it.
-/

namespace SableFrontend

theorem TokenKind.isSolid_of_isNumeric {kind : TokenKind} (h : kind.isNumeric = true) :
    kind.isSolid = true := by
  cases kind <;> first | rfl | cases h

theorem Token.isSolid_of_isOperator {token : Token} {spelling : String}
    (h : token.isOperator spelling = true) : token.kind.isSolid = true := by
  rw [Token.isOperator, Bool.and_eq_true, beq_iff_eq] at h
  rw [h.1]
  rfl

namespace Setting

open SableFrontend.Parser

variable {set : Setting} {start state : ParserState} {inner : Parser Pattern}

theorem Passed.negativeLiteral (h : set.Passed start .solid [] state) :
    set.Runs (negativeLiteral (set.stream.token start.position)) state
      (fun answer final => set.Passed start .solid (trees answer) final) (set.Halts start) := by
  refine .bind (.current (.ite (fun _ => .bind h.unexpected) fun hnumeric => ?_))
  have hnumber : (set.stream.token state.position).kind.isNumeric = true := by
    simpa using hnumeric
  refine .bind (h.advance rfl (TokenKind.isSolid_of_isNumeric hnumber) fun s₁ h₁ hs₁ => ?_)
  refine .bind (h₁.literalOf fun literal _ => .pure ?_)
  have hspan : (set.stream.token start.position).span.join (set.stream.token state.position).span =
      set.stream.reach start.position (s₁.position - 1) := by
    rw [hs₁]
    rfl
  generalize (set.stream.token start.position).span.join (set.stream.token state.position).span =
    span at hspan
  have hliteral : set.Passed start .solid (trees (literal.negate.withSpan span)) s₁ :=
    h₁.node (by simpa using hspan) (by simp) fun _ => Literal.wellMade _
  exact hliteral.node hspan (by simp [Outline.children, Pattern.outline, trees]) fun _ => trivial

theorem runs_roundPattern (hinner : set.Builds inner) (hlt : state.position < set.stream.size)
    (hkind : set.stream.kind state.position = .opener .round) :
    set.Runs (roundPattern inner) state
      (fun answer final => set.Passed state .solid (trees answer) final) (set.Halts state) := by
  refine .bind ((Passed.refl hlt).advance hkind rfl fun s₁ h₁ _ => ?_)
  refine .bind (.isAt (.ite (fun hclose => ?_) fun _ => ?_))
  · refine .bind (h₁.advance (beq_iff_eq.1 hclose) rfl fun s₂ h₂ _ => ?_)
    exact .bind (.spanFromPrevious (.pure (h₂.node rfl (by simp [Outline.children, Pattern.outline])
      fun _ => trivial)))
  · refine .bind (h₁.build hinner fun first s₂ h₂ _ => ?_)
    refine .bind (.isAt (.ite (fun _ => ?_) fun _ => ?_))
    · exact .bind (h₂.expect rfl fun s₃ _ h₃ _ => .pure h₃)
    · refine .bind (h₂.collectBehind rfl hinner fun more s₃ h₃ => ?_)
      refine .bind (h₃.expect rfl fun s₄ _ h₄ _ => ?_)
      exact .bind (.spanFromPrevious (.pure (h₄.node rfl
        (by simp [Outline.children, Pattern.outline, trees]) fun _ => trivial)))

theorem runs_curlyPattern (hinner : set.Builds inner) (hlt : state.position < set.stream.size)
    (hkind : set.stream.kind state.position = .opener .curly) :
    set.Runs (curlyPattern inner) state
      (fun answer final => set.Passed state .solid (trees answer) final) (set.Halts state) := by
  refine .bind ((Passed.refl hlt).advance hkind rfl fun s₁ h₁ _ => ?_)
  refine .bind (h₁.skipNewlines fun s₂ h₂ => ?_)
  refine .bind (.isAt (.ite (fun hclose => ?_) fun _ => ?_))
  · refine .bind (h₂.advance (beq_iff_eq.1 hclose) rfl fun s₃ h₃ _ => ?_)
    exact .bind (.spanFromPrevious (.pure (h₃.node rfl (by simp [Outline.children, Pattern.outline])
      fun _ => trivial)))
  · refine .bind (h₂.build hinner fun first s₃ h₃ _ => ?_)
    refine .bind (h₃.skipNewlines fun s₄ h₄ => ?_)
    refine .bind (h₄.collectOnLines rfl hinner fun more s₅ h₅ => ?_)
    refine .bind (.isAt (.ite (fun hpipe => ?_) fun _ => ?_))
    · refine .bind (h₅.advance (beq_iff_eq.1 hpipe) rfl fun s₆ h₆ _ => ?_)
      refine .bind (h₆.skipNewlines fun s₇ h₇ => ?_)
      refine .bind (h₇.build hinner fun tail s₈ h₈ _ => ?_)
      refine .bind (h₈.skipNewlines fun s₉ h₉ => ?_)
      refine .bind (h₉.expect rfl fun s₁₀ _ h₁₀ _ => ?_)
      refine .bind (.spanFromPrevious (.pure ?_))
      exact h₁₀.chain (fun _ => rfl) (fun _ _ => rfl) (fun _ _ => rfl) (fun _ _ => by trivial)
        (by simp [trees]) (by simp [trees])
    · refine .bind (h₅.expect rfl fun s₆ _ h₆ _ => ?_)
      exact .bind (.spanFromPrevious (.pure (h₆.node rfl
        (by simp [Outline.children, Pattern.outline, trees]) fun _ => trivial)))

theorem builds_recordPatternItem (hinner : set.Builds inner) :
    set.Builds (recordPatternItem inner) := by
  intro state hlt
  have h : set.Passed state .firm [] state := .refl hlt
  have hs₁al : set.Runs (do return (.inr (← inner) : FieldPattern ⊕ Pattern)) state
      (fun answer final => set.Passed state .solid (trees answer) final) (set.Halts state) :=
    .bind (h.build hinner fun _ _ h₁ _ => .pure h₁)
  refine .bind (.current (.ite (fun hname => ?_) fun _ => hs₁al))
  have hkind := beq_iff_eq.1 (Bool.and_eq_true_iff.1 hname).1
  refine .bind (.peek (.ite (fun hassign => ?_) fun _ => .ite (fun _ => ?_) fun _ => hs₁al))
  · refine .bind (h.advance hkind rfl fun s₁ h₁ hs₁ => ?_)
    have hassign : set.stream.kind s₁.position = .assign := by
      rw [hs₁]
      exact beq_iff_eq.1 hassign
    refine .bind (h₁.advance hassign rfl fun s₂ h₂ _ => ?_)
    refine .bind (h₂.skipNewlines fun s₃ h₃ => ?_)
    refine .bind (h₃.build hinner fun pattern s₄ h₄ _ => ?_)
    exact .bind (.spanFromPrevious (.pure (h₄.node rfl
      (by simp [Outline.children, FieldPattern.outline, trees]) fun _ => trivial)))
  · exact .bind (h.advance hkind rfl fun s₁ h₁ hs₁ => .pure (h₁.leaf hs₁ rfl rfl trivial))

/-- The square brackets of a constructor, which has been read. -/
theorem Passed.recordPattern (h : set.Passed start .solid [] state) (hinner : set.Builds inner)
    (hkind : set.stream.kind state.position = .opener .square) :
    set.Runs (recordPattern inner (set.stream.token start.position)) state
      (fun answer final => set.Passed start .solid (trees answer) final) (set.Halts start) := by
  refine .bind (h.advance hkind rfl fun s₁ h₁ _ => ?_)
  refine .bind (h₁.itemsOf (builds_recordPatternItem hinner) fun entries s₂ h₂ => ?_)
  refine .bind (h₂.expect rfl fun s₃ _ h₃ _ => ?_)
  refine .bind (.spanFromPrevious ?_)
  dsimp only
  split
  · refine .pure (h₃.node rfl ?_ fun _ => Pattern.wellMade_constructor (Or.inr rfl))
    simpa [Outline.children, Pattern.outline] using trees_rights_subset entries
  · refine .pure (h₃.node rfl ?_ fun _ => Pattern.wellMade_constructor (Or.inl rfl))
    simpa [Outline.children, Pattern.outline] using trees_lefts_subset entries
  · next hrights _ =>
    have hargument := trees_rights_subset entries
    rw [hrights, trees_cons, List.append_subset] at hargument
    have hmarks := h₃.marksTree (hargument.1 (List.mem_singleton_self _))
    rw [Pattern.span_outline] at hmarks
    refine .bind (h₃.reportError hmarks fun s₄ h₄ hposition _ => .pure ?_)
    refine h₄.node (by rw [hposition]; rfl) ?_ fun _ => Pattern.wellMade_constructor (Or.inl rfl)
    simpa [Outline.children, Pattern.outline] using trees_lefts_subset entries

theorem builds_patternAtom (hinner : set.Builds inner) : set.Builds (patternAtom inner) := by
  intro state hlt
  have h : set.Passed state .firm [] state := .refl hlt
  refine .bind (.current ?_)
  split
  · next hkind =>
    refine .bind (h.advance hkind rfl fun s₁ h₁ hs₁ => ?_)
    exact .ite (fun _ => .pure (h₁.leaf hs₁ rfl rfl trivial))
      fun _ => .pure (h₁.leaf hs₁ rfl rfl trivial)
  · next hkind =>
    refine .bind (h.advance hkind rfl fun s₁ h₁ hs₁ => ?_)
    refine .bind (h₁.literalOf fun literal hspan => .pure ?_)
    have hliteral : set.Passed state .solid (trees literal) s₁ :=
      h₁.leaf hs₁ (by simpa using hspan) (by simp) literal.wellMade
    refine hliteral.node ?_ (by simp [Outline.children, Pattern.outline, trees]) fun _ => trivial
    rw [hs₁]
    rfl
  · next hkind =>
    refine .bind (h.advance hkind rfl fun s₁ h₁ hs₁ => ?_)
    refine .bind (.current (.ite (fun hopener => ?_) fun _ => ?_))
    · exact h₁.recordPattern hinner (beq_iff_eq.1 (Bool.and_eq_true_iff.1 hopener).1)
    · exact .pure (h₁.leaf hs₁ rfl rfl (Pattern.wellMade_constructor (Or.inl rfl)))
  · next hkind => exact runs_roundPattern hinner hlt hkind
  · next hkind => exact runs_curlyPattern hinner hlt hkind
  · refine .ite (fun hminus => ?_) fun _ => h.unexpected
    exact .bind (h.advance rfl (Token.isSolid_of_isOperator hminus) fun s₁ h₁ _ =>
      h₁.negativeLiteral)

theorem builds_pattern (hinner : set.Builds inner) : set.Builds (pattern inner) := by
  intro state hlt
  have h : set.Passed state .firm [] state := .refl hlt
  refine .bind (.current (.bind (.bind (.peek (.bind (.current (.pure ?_)))))))
  refine .ite (fun hconstructor => ?_) fun _ => builds_patternAtom hinner state hlt
  have hkind := beq_iff_eq.1 (Bool.and_eq_true_iff.1 hconstructor).1
  refine .bind (h.advance hkind rfl fun s₁ h₁ _ => ?_)
  refine .bind (h₁.collectWhile (fun s hs => Runs.startsPatternAtom fun _ => ⟨hs, fun _ => ?_⟩)
    fun arguments s₂ h₂ => ?_)
  · exact hs.build (builds_patternAtom hinner) fun _ _ h' _ => h'
  · exact .bind (.spanFromPrevious (.pure (h₂.node rfl
      (by simp [Outline.children, Pattern.outline, trees])
      fun _ => Pattern.wellMade_constructor (Or.inr rfl))))

/-- Patterns sit where they are read, however deep they may nest. -/
theorem builds_patternAt (budget : Nat) : set.Builds (patternAt budget) := by
  induction budget with
  | zero => exact fun state hlt => (Passed.refl hlt).throw Abort.noConfusion
  | succ budget ih => exact builds_pattern ih

end Setting

end SableFrontend
