import SableFrontend.Grammar.Type
import SableFrontend.Proofs.Grammar.Loops

/-!
The productions of types keep to the rules, given that those one level of nesting further in do.
Every type consumes at least one token; a list of effects may be empty.
-/

namespace SableFrontend.Setting

open SableFrontend.Parser

variable {set : Setting} {state : ParserState} {inner : TypeRule → Parser TypeExpr}

theorem Runs.contextAhead {returns : Bool → ParserState → Prop}
    {stops : Abort → ParserState → Prop} (h : ∀ ahead, returns ahead state) :
    set.Runs contextAhead state returns stops := h _

theorem obeys_startsTypeAtom : set.Obeys false startsTypeAtom :=
  fun _ hlt => .isAtAny (.refl hlt)

theorem proceeds_roundType (hinner : ∀ rule, set.Obeys true (inner rule))
    (hlt : state.position < set.stream.size)
    (hkind : set.stream.kind state.position = .opener .round) :
    set.Proceeds true (roundType inner) state := by
  refine .bind ((Reached.refl hlt).advanceOpener hkind fun s₁ h₁ _ _ => ?_)
  refine .bind (.isAt (.ite (fun hclose => ?_) fun _ => ?_))
  · refine .bind (h₁.advanceCloser (beq_iff_eq.1 hclose) fun s₂ h₂ => ?_)
    exact .bind (.spanFrom fun _ => .pure h₂)
  · refine .bind (h₁.call (hinner .type s₁ h₁.lt) fun first s₂ h₂ => ?_)
    refine .bind (.isAt (.ite (fun _ => ?_) fun _ => ?_))
    · exact .bind (h₂.expectCloser fun _ s₃ h₃ => .pure h₃)
    · refine .bind (h₂.collectBehind rfl (hinner .type) fun more s₃ h₃ => ?_)
      refine .bind (h₃.expectCloser fun _ s₄ h₄ => ?_)
      exact .bind (.spanFrom fun _ => .pure h₄)

theorem obeys_typeAtom (hinner : ∀ rule, set.Obeys true (inner rule)) :
    set.Obeys true (typeAtom inner) := by
  intro state hlt
  have h : set.Reached state false [] state := .refl hlt
  refine .bind (.current ?_)
  split
  · next hkind => exact .bind (h.advancePlain hkind rfl fun s₁ h₁ _ => .pure h₁)
  · next hkind => exact .bind (h.advancePlain hkind rfl fun s₁ h₁ _ => .pure h₁)
  · next hkind => exact proceeds_roundType hinner hlt hkind
  · exact h.unexpected

theorem obeys_appliedType (hinner : ∀ rule, set.Obeys true (inner rule)) :
    set.Obeys true (appliedType inner) := by
  intro state hlt
  have hatom := obeys_typeAtom hinner
  refine .bind (.current (.bind ((Reached.refl hlt).call (hatom state hlt) fun head s₁ h₁ => ?_)))
  refine h₁.repeatWhile obeys_startsTypeAtom (fun function s hs => ?_) fun _ _ h₂ => h₂
  refine .bind ((Reached.refl hs).call (hatom s hs) fun argument s₂ h₂ => ?_)
  exact .bind (.spanFrom fun _ => .pure h₂)

theorem obeys_effectEntries (hinner : ∀ rule, set.Obeys true (inner rule)) :
    set.Obeys false (effectEntries inner) := by
  intro state hlt
  refine .bind ((Reached.refl hlt).skipNewlines fun s₁ h₁ _ => ?_)
  refine .bind (.isAt (.ite (fun _ => .pure h₁) fun _ => ?_))
  refine .bind (h₁.call (hinner .application s₁ h₁.lt) fun first s₂ h₂ => ?_)
  refine .bind (h₂.skipNewlines fun s₃ h₃ _ => ?_)
  exact .bind (h₃.collectOnLines rfl (hinner .application) fun more s₄ h₄ => .pure h₄.weaken)

theorem obeys_checkRow {entries : List TypeExpr} : set.Obeys false (checkRow entries) := by
  intro state hlt
  have h : set.Reached state false [] state := .refl hlt
  unfold checkRow
  split
  · exact h.report (set.grammatical ⟨rfl, DiagnosticKind.noConfusion, DiagnosticKind.noConfusion⟩)
      fun _ h₁ => h₁
  · refine .ite (fun _ => ?_) fun _ => .pure h
    exact h.reportError DiagnosticKind.noConfusion DiagnosticKind.noConfusion fun _ h₁ => h₁
  · exact .pure h

theorem proceeds_effectType (hinner : ∀ rule, set.Obeys true (inner rule))
    (hlt : state.position < set.stream.size)
    (hkind : set.stream.kind state.position = .opener .square) :
    set.Proceeds true (effectType inner) state := by
  refine .bind ((Reached.refl hlt).advanceOpener hkind fun s₁ h₁ _ _ => ?_)
  refine .bind (h₁.call (obeys_effectEntries hinner s₁ h₁.lt) fun entries s₂ h₂ => ?_)
  refine .bind (h₂.expectCloser fun _ s₃ h₃ => ?_)
  refine .bind (h₃.call (obeys_checkRow s₃ h₃.lt) fun _ s₄ h₄ => ?_)
  refine .bind (.isAtAny (.ite (fun _ => ?_) fun _ => ?_))
  · refine .bind (.map (h₄.call (obeys_appliedType hinner s₄ h₄.lt) fun result s₅ h₅ => ?_))
    exact .bind (.spanFrom fun _ => .pure h₅)
  · exact .bind (.pure (.bind (.spanFrom fun _ => .pure h₄)))

theorem obeys_typeApplication (hinner : ∀ rule, set.Obeys true (inner rule)) :
    set.Obeys true (typeApplication inner) := by
  intro state hlt
  refine .bind (.isAt (.ite (fun hopener => ?_) fun _ => ?_))
  · exact proceeds_effectType hinner hlt (beq_iff_eq.1 hopener)
  · exact obeys_appliedType hinner state hlt

theorem obeys_arrowType (hinner : ∀ rule, set.Obeys true (inner rule)) :
    set.Obeys true (arrowType inner) := by
  intro state hlt
  refine .bind (.current (.bind ((Reached.refl hlt).call
    (obeys_typeApplication hinner state hlt) fun parameter s₁ h₁ => ?_)))
  refine .bind (.isAtOperator (.ite (fun harrow => ?_) fun _ => .pure h₁))
  refine .bind (h₁.advancePlain rfl (Token.isPlain_of_isOperator harrow) fun s₂ h₂ _ => ?_)
  refine .bind (h₂.skipNewlines fun s₃ h₃ _ => ?_)
  refine .bind (h₃.call (hinner .arrow s₃ h₃.lt) fun result s₄ h₄ => ?_)
  exact .bind (.spanFrom fun _ => .pure h₄)

theorem obeys_constraint (hinner : ∀ rule, set.Obeys true (inner rule)) :
    set.Obeys true (constraint inner) := by
  intro state hlt
  refine .bind ((Reached.refl hlt).expectPlain rfl fun name s₁ h₁ => ?_)
  refine .bind (h₁.collectWhile obeys_startsTypeAtom (obeys_typeAtom hinner)
    fun arguments s₂ h₂ => ?_)
  refine .ite (fun _ => .bind h₂.unexpected) fun _ => ?_
  exact .bind (.spanFrom fun _ => .pure h₂)

theorem obeys_context (hinner : ∀ rule, set.Obeys true (inner rule)) :
    set.Obeys true (context inner) := by
  intro state hlt
  have h : set.Reached state false [] state := .refl hlt
  have hconstraint := obeys_constraint hinner
  refine .bind (.isAt (.ite (fun hopener => ?_) fun _ => ?_))
  · refine .bind (h.advanceOpener (beq_iff_eq.1 hopener) fun s₁ h₁ _ _ => ?_)
    refine .bind (h₁.call (hconstraint s₁ h₁.lt) fun first s₂ h₂ => ?_)
    refine .bind (h₂.collectBehind rfl hconstraint fun more s₃ h₃ => ?_)
    exact .bind (h₃.expectCloser fun _ s₄ h₄ => .pure h₄)
  · exact .bind (h.call (hconstraint state hlt) fun _ _ h₁ => .pure h₁)

theorem obeys_typeExpr (hinner : ∀ rule, set.Obeys true (inner rule)) :
    set.Obeys true (typeExpr inner) := by
  intro state hlt
  have h : set.Reached state false [] state := .refl hlt
  refine .bind (.current (.bind (.contextAhead fun _ => .ite (fun _ => ?_) fun _ => ?_)))
  · refine .bind (h.call (obeys_context hinner state hlt) fun constraints s₁ h₁ => ?_)
    refine .bind (h₁.expectOperator fun _ s₂ h₂ => ?_)
    refine .bind (h₂.skipNewlines fun s₃ h₃ _ => ?_)
    refine .bind (h₃.call (obeys_arrowType hinner s₃ h₃.lt) fun body s₄ h₄ => ?_)
    exact .bind (.spanFrom fun _ => .pure h₄)
  · exact obeys_arrowType hinner state hlt

/-- Types keep to the rules, however deep they may nest. -/
theorem obeys_typeAt (hdeep : set.allows .tooDeep) (budget : Nat) :
    ∀ rule, set.Obeys true (typeAt budget rule) := by
  induction budget with
  | zero => exact fun _ state hlt => .throw ((Reached.refl hlt).abort hdeep Abort.noConfusion)
  | succ budget ih =>
    intro rule
    cases rule with
    | type => exact obeys_typeExpr ih
    | arrow => exact obeys_arrowType ih
    | application => exact obeys_typeApplication ih

end SableFrontend.Setting
