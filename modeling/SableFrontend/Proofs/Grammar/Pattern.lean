import SableFrontend.Proofs.Grammar.Loops

/-!
The productions of patterns keep to the rules, given that the patterns one level of nesting further
in do. Every pattern consumes at least one token.
-/

namespace SableFrontend

theorem TokenKind.isPlain_of_isNumeric {kind : TokenKind} (h : kind.isNumeric = true) :
    kind.isPlain = true := by
  cases kind <;> first | rfl | cases h

namespace Setting

open SableFrontend.Parser

variable {set : Setting} {state : ParserState} {inner : Parser Pattern}

/-- Whether a pattern atom begins is only looked at. -/
theorem Runs.startsPatternAtom {returns : Bool → ParserState → Prop}
    {stops : Abort → ParserState → Prop} (next : ∀ answer, returns answer state) :
    set.Runs startsPatternAtom state returns stops := by
  refine .bind (.current ?_)
  split
  all_goals first | exact .pure (next _) | exact .bind (.peek (.pure (next _)))

theorem obeys_startsPatternAtom : set.Obeys false startsPatternAtom :=
  fun _ hlt => .startsPatternAtom fun _ => .refl hlt

theorem obeys_negativeLiteral {sign : Token} : set.Obeys true (negativeLiteral sign) := by
  intro state hlt
  have h : set.Reached state false [] state := .refl hlt
  refine .bind (.current (.ite (fun _ => .bind h.unexpected) fun hnumeric => ?_))
  have hnumber : (set.stream.token state.position).kind.isNumeric = true := by
    simpa using hnumeric
  have hplain := TokenKind.isPlain_of_isNumeric hnumber
  refine .bind (h.advancePlain rfl hplain fun final hfinal _ => ?_)
  refine .bind (hfinal.literalOf (TokenStream.token_mem hlt) fun literal => ?_)
  exact .pure hfinal

section

-- a pattern inside of delimiters is only asked to keep to the rules there
variable {depth : Nat}

theorem proceeds_roundPattern (hinner : set.ObeysAt (depth + 1) true inner)
    (hlt : state.position < set.stream.size)
    (hdepth : (set.stream.opened state.position).length = depth)
    (hkind : set.stream.kind state.position = .opener .round) :
    set.Proceeds true (roundPattern inner) state := by
  refine .bind ((Reached.refl hlt).advanceOpener hkind fun s₁ h₁ _ _ => ?_)
  refine .bind (.isAt (.ite (fun hclose => ?_) fun _ => ?_))
  · refine .bind (h₁.advanceCloser (beq_iff_eq.1 hclose) fun s₂ h₂ => ?_)
    exact .bind (.spanFrom fun _ => .pure h₂)
  · refine .bind (h₁.call (hinner s₁ h₁.lt (h₁.depth_eq hdepth)) fun first s₂ h₂ => ?_)
    refine .bind (.isAt (.ite (fun _ => ?_) fun _ => ?_))
    · exact .bind (h₂.expectCloser fun _ s₃ h₃ => .pure h₃)
    · refine .bind (h₂.collectBehind_of_depth (h₂.depth_eq hdepth) rfl hinner
        fun more s₃ h₃ => ?_)
      refine .bind (h₃.expectCloser fun _ s₄ h₄ => ?_)
      exact .bind (.spanFrom fun _ => .pure h₄)

theorem proceeds_curlyPattern (hinner : set.ObeysAt (depth + 1) true inner)
    (hlt : state.position < set.stream.size)
    (hdepth : (set.stream.opened state.position).length = depth)
    (hkind : set.stream.kind state.position = .opener .curly) :
    set.Proceeds true (curlyPattern inner) state := by
  refine .bind ((Reached.refl hlt).advanceOpener hkind fun s₁ h₁ _ _ => ?_)
  refine .bind (h₁.skipNewlines fun s₂ h₂ _ => ?_)
  refine .bind (.isAt (.ite (fun hclose => ?_) fun _ => ?_))
  · refine .bind (h₂.advanceCloser (beq_iff_eq.1 hclose) fun s₃ h₃ => ?_)
    exact .bind (.spanFrom fun _ => .pure h₃)
  · refine .bind (h₂.call (hinner s₂ h₂.lt (h₂.depth_eq hdepth)) fun first s₃ h₃ => ?_)
    refine .bind (h₃.skipNewlines fun s₄ h₄ _ => ?_)
    refine .bind (h₄.collectOnLines_of_depth (h₄.depth_eq hdepth) rfl hinner
      fun more s₅ h₅ => ?_)
    refine .bind (.isAt (.ite (fun hpipe => ?_) fun _ => ?_))
    · refine .bind (h₅.advancePlain (beq_iff_eq.1 hpipe) rfl fun s₆ h₆ _ => ?_)
      refine .bind (h₆.skipNewlines fun s₇ h₇ _ => ?_)
      refine .bind (h₇.call (hinner s₇ h₇.lt (h₇.depth_eq hdepth)) fun tail s₈ h₈ => ?_)
      refine .bind (h₈.skipNewlines fun s₉ h₉ _ => ?_)
      refine .bind (h₉.expectCloser fun _ s₁₀ h₁₀ => ?_)
      exact .bind (.spanFrom fun _ => .pure h₁₀)
    · refine .bind (h₅.expectCloser fun _ s₆ h₆ => ?_)
      exact .bind (.spanFrom fun _ => .pure h₆)

theorem obeysAt_recordPatternItem (hinner : set.ObeysAt depth true inner) :
    set.ObeysAt depth true (recordPatternItem inner) := by
  intro state hlt hdepth
  have h : set.Reached state false [] state := .refl hlt
  have hpositional :
      set.Proceeds true (do return (.inr (← inner) : FieldPattern ⊕ Pattern)) state :=
    .bind (h.call (hinner state hlt hdepth) fun _ _ h₁ => .pure h₁)
  refine .bind (.current (.ite (fun hname => ?_) fun _ => hpositional))
  have hkind := beq_iff_eq.1 (Bool.and_eq_true_iff.1 hname).1
  refine .bind (.peek (.ite (fun hassign => ?_) fun _ => .ite (fun _ => ?_) fun _ => hpositional))
  · refine .bind (h.advancePlain hkind rfl fun s₁ h₁ hposition => ?_)
    have hassign : set.stream.kind s₁.position = .assign := by
      rw [hposition]
      exact beq_iff_eq.1 hassign
    refine .bind (h₁.advancePlain hassign rfl fun s₂ h₂ _ => ?_)
    refine .bind (h₂.skipNewlines fun s₃ h₃ _ => ?_)
    refine .bind (h₃.call (hinner s₃ h₃.lt (h₃.depth_eq hdepth)) fun pattern s₄ h₄ => ?_)
    exact .bind (.spanFrom fun _ => .pure h₄)
  · exact .bind (h.advancePlain hkind rfl fun s₁ h₁ _ => .pure h₁)

theorem proceeds_recordPattern_of_depth (hinner : set.ObeysAt (depth + 1) true inner)
    {constructor : Token} (hlt : state.position < set.stream.size)
    (hdepth : (set.stream.opened state.position).length = depth)
    (hkind : set.stream.kind state.position = .opener .square) :
    set.Proceeds true (recordPattern inner constructor) state := by
  refine .bind ((Reached.refl hlt).advanceOpener hkind fun s₁ h₁ hopens _ => ?_)
  refine .bind (h₁.items_of_depth (h₁.depth_eq hdepth) hopens (obeysAt_recordPatternItem hinner)
    fun entries s₂ h₂ _ => ?_)
  refine .bind (h₂.expectCloser fun _ s₃ h₃ => ?_)
  refine .bind (.spanFrom fun span => ?_)
  dsimp only
  split
  · exact .pure h₃
  · exact .pure h₃
  · exact .bind (h₃.reportError DiagnosticKind.noConfusion DiagnosticKind.noConfusion
      fun s₄ h₄ => .pure h₄)

theorem obeysAt_patternAtom (hinner : set.ObeysAt (depth + 1) true inner) :
    set.ObeysAt depth true (patternAtom inner) := by
  intro state hlt hdepth
  have h : set.Reached state false [] state := .refl hlt
  refine .bind (.current ?_)
  split
  · next hkind =>
    refine .bind (h.advancePlain hkind rfl fun s₁ h₁ _ => ?_)
    exact .ite (fun _ => .pure h₁) fun _ => .pure h₁
  · next hkind =>
    refine .bind (h.advancePlain hkind rfl fun s₁ h₁ _ => ?_)
    exact .bind (h₁.literalOf (TokenStream.token_mem hlt) fun _ => .pure h₁)
  · next hkind =>
    refine .bind (h.advancePlain hkind rfl fun s₁ h₁ _ => ?_)
    refine .bind (.current (.ite (fun hopener => ?_) fun _ => .pure h₁))
    have hopener := beq_iff_eq.1 (Bool.and_eq_true_iff.1 hopener).1
    exact h₁.call (proceeds_recordPattern_of_depth hinner h₁.lt (h₁.depth_eq hdepth) hopener)
      fun _ _ h₂ => h₂
  · next hkind => exact proceeds_roundPattern hinner hlt hdepth hkind
  · next hkind => exact proceeds_curlyPattern hinner hlt hdepth hkind
  · refine .ite (fun hminus => ?_) fun _ => h.unexpected
    refine .bind (h.advancePlain rfl (Token.isPlain_of_isOperator hminus) fun s₁ h₁ _ => ?_)
    exact h₁.call (obeys_negativeLiteral s₁ h₁.lt) fun _ _ h₂ => h₂

theorem obeysAt_pattern (hinner : set.ObeysAt (depth + 1) true inner) :
    set.ObeysAt depth true (pattern inner) := by
  intro state hlt hdepth
  have h : set.Reached state false [] state := .refl hlt
  refine .bind (.current (.bind (.bind (.peek (.bind (.current (.pure ?_)))))))
  refine .ite (fun hconstructor => ?_) fun _ => obeysAt_patternAtom hinner state hlt hdepth
  have hkind := beq_iff_eq.1 (Bool.and_eq_true_iff.1 hconstructor).1
  refine .bind (h.advancePlain hkind rfl fun s₁ h₁ _ => ?_)
  refine .bind (h₁.collectWhile_of_depth (h₁.depth_eq hdepth) obeys_startsPatternAtom
    (obeysAt_patternAtom hinner) fun arguments s₂ h₂ => ?_)
  exact .bind (.spanFrom fun _ => .pure h₂)

end

theorem proceeds_recordPattern (hinner : set.Obeys true inner) {constructor : Token}
    (hlt : state.position < set.stream.size)
    (hkind : set.stream.kind state.position = .opener .square) :
    set.Proceeds true (recordPattern inner constructor) state :=
  proceeds_recordPattern_of_depth (hinner.at _) hlt rfl hkind

theorem obeys_recordPatternItem (hinner : set.Obeys true inner) :
    set.Obeys true (recordPatternItem inner) :=
  fun state hlt => obeysAt_recordPatternItem (hinner.at _) state hlt rfl

theorem obeys_patternAtom (hinner : set.Obeys true inner) :
    set.Obeys true (patternAtom inner) :=
  fun state hlt => obeysAt_patternAtom (hinner.at _) state hlt rfl

theorem obeys_pattern (hinner : set.Obeys true inner) : set.Obeys true (pattern inner) :=
  fun state hlt => obeysAt_pattern (hinner.at _) state hlt rfl

/-- Patterns keep to the rules, however deep they may nest. -/
theorem obeys_patternAt (hdeep : set.allows .tooDeep) (budget : Nat) :
    set.Obeys true (patternAt budget) := by
  induction budget with
  | zero => exact fun state hlt => .throw ((Reached.refl hlt).abort hdeep Abort.noConfusion)
  | succ budget ih => exact obeys_pattern ih

/-- Where the delimiters do not nest too deep, patterns do not either. -/
theorem obeysAt_patternAt {budget depth : Nat}
    (hnesting : ∀ k, (set.stream.opened k).length < depth + budget) :
    set.ObeysAt depth true (patternAt budget) := by
  induction budget generalizing depth with
  | zero =>
    intro state _ hdepth
    exact absurd (hnesting state.position) (by omega)
  | succ budget ih => exact obeysAt_pattern (ih fun k => by have := hnesting k; omega)

end Setting

end SableFrontend
