import SableFrontend.Grammar.Declaration
import SableFrontend.Proofs.Grammar.Expr

/-!
The productions of declarations and statements keep to the rules, given that everything that they
nest does. `obeys_produce` ties the knot: by induction on the levels of nesting that are left, every
production of expressions and statements keeps to the rules.
-/

namespace SableFrontend.Setting

open SableFrontend.Parser

variable {set : Setting} {start state : ParserState} {inner : Nested} {moved : Bool}
  {inside : List Bracket}

/-! ### Parts of headers -/

theorem obeys_typeParameters : set.Obeys false typeParameters := by
  intro state hlt
  refine (Reached.refl hlt).collectWhileAt (fun s hs hname => ?_) fun _ _ h₁ => h₁
  exact .bind ((Reached.refl hs.lt).advancePlain hname rfl fun s₁ h₁ _ => .pure h₁)

/-- The sign and the bracket before the body of a declaration. The bracket is left open. -/
theorem Reached.openBody (h : set.Reached start moved inside state) {what : String}
    {returns : Unit → ParserState → Prop}
    (next : ∀ final, set.Reached start true (.square :: inside) final →
      set.stream.Opens final.position (.closer .square) → returns () final) :
    set.Runs (openBody what) state returns (set.Stops start) := by
  refine .bind (h.expectPlain rfl fun _ s₁ h₁ => ?_)
  refine .bind (h₁.skipNewlines fun s₂ h₂ _ => ?_)
  exact .bind (h₂.expectOpener fun _ s₃ h₃ hopens _ => .pure (next s₃ h₃ hopens))

/-! ### Definitions -/

theorem obeys_definitionBody (hinner : set.Nests inner) {name : Token} {patterns : List Pattern} :
    set.Obeys true (definitionBody inner name patterns) := by
  intro state hlt
  refine .bind ((Reached.refl hlt).skipNewlines fun s₁ h₁ _ => ?_)
  refine .bind (h₁.call (hinner.expression 0 s₁ h₁.lt) fun body s₂ h₂ => ?_)
  exact .bind (.spanFrom fun _ => .pure h₂)

theorem proceeds_annotatedDefinition (hinner : set.Nests inner) {name : Token}
    (hlt : state.position < set.stream.size) (hkind : set.stream.kind state.position = .atSign) :
    set.Proceeds true (annotatedDefinition inner name) state := by
  refine .bind ((Reached.refl hlt).advancePlain hkind rfl fun s₁ h₁ _ => ?_)
  refine .bind (h₁.call (hinner.typeExpr s₁ h₁.lt) fun typeExpr s₂ h₂ => ?_)
  refine .bind (.spanFrom fun span => .bind (.isAt (.ite (fun hassign => ?_) fun _ => .pure h₂)))
  refine .bind (h₂.advancePlain (beq_iff_eq.1 hassign) rfl fun s₃ h₃ _ => ?_)
  exact .bind (h₃.call (obeys_definitionBody hinner s₃ h₃.lt) fun _ s₄ h₄ => .pure h₄)

theorem obeys_definition (hinner : set.Nests inner) : set.Obeys true (definition inner) := by
  intro state hlt
  refine .bind ((Reached.refl hlt).expectPlain rfl fun name s₁ h₁ => ?_)
  refine .bind (.isAt (.ite (fun hat => ?_) fun _ => ?_))
  · exact h₁.call (proceeds_annotatedDefinition hinner h₁.lt (beq_iff_eq.1 hat)) fun _ _ h₂ => h₂
  · refine .bind (h₁.collectWhile obeys_startsPatternAtom hinner.patternAtom
      fun patterns s₂ h₂ => ?_)
    refine .bind (h₂.expectPlain rfl fun _ s₃ h₃ => ?_)
    exact .bind (h₃.call (obeys_definitionBody hinner s₃ h₃.lt) fun _ s₄ h₄ => .pure h₄)

theorem proceeds_pendingAscription (hinner : set.Nests inner)
    (hlt : state.position < set.stream.size) (hkind : set.stream.kind state.position = .atSign) :
    set.Proceeds true (pendingAscription inner) state := by
  refine .bind ((Reached.refl hlt).advancePlain hkind rfl fun s₁ h₁ _ => ?_)
  refine .bind (h₁.call (hinner.typeExpr s₁ h₁.lt) fun typeExpr s₂ h₂ => ?_)
  exact .bind (.spanFrom fun _ => .pure h₂)

/-! ### Data types -/

theorem obeys_fieldSpec (hinner : set.Nests inner) : set.Obeys true (fieldSpec inner) := by
  intro state hlt
  refine .bind ((Reached.refl hlt).expectPlain rfl fun name s₁ h₁ => ?_)
  refine .bind (h₁.expectPlain rfl fun _ s₂ h₂ => ?_)
  refine .bind (h₂.call (hinner.typeExpr s₂ h₂.lt) fun typeExpr s₃ h₃ => ?_)
  refine .bind (.isAt (.ite (fun hassign => ?_) fun _ => ?_))
  · refine .bind (h₃.advancePlain (beq_iff_eq.1 hassign) rfl fun s₄ h₄ _ => ?_)
    refine .bind (h₄.skipNewlines fun s₅ h₅ _ => ?_)
    refine .bind (.map (h₅.call (hinner.expression 0 s₅ h₅.lt) fun value s₆ h₆ => ?_))
    exact .bind (.spanFrom fun _ => .pure h₆)
  · exact .bind (.pure (.bind (.spanFrom fun _ => .pure h₃)))

theorem obeys_constructorSpec (hinner : set.Nests inner) :
    set.Obeys true (constructorSpec inner) := by
  intro state hlt
  refine .bind ((Reached.refl hlt).expectPlain rfl fun name s₁ h₁ => ?_)
  refine .bind (.current (.ite (fun hopener => ?_) fun _ => ?_))
  · have hopener := beq_iff_eq.1 (Bool.and_eq_true_iff.1 hopener).1
    refine .bind (h₁.advanceOpener hopener fun s₂ h₂ hopens _ => ?_)
    refine .bind (h₂.items hopens (obeys_fieldSpec hinner) fun named s₃ h₃ _ => ?_)
    refine .bind (h₃.expectCloser fun _ s₄ h₄ => ?_)
    exact .bind (.spanFrom fun _ => .pure h₄)
  · refine .bind (h₁.collectWhile obeys_startsTypeAtom hinner.typeAtom
      fun positional s₂ h₂ => ?_)
    exact .bind (.spanFrom fun _ => .pure h₂)

theorem obeys_dataItem (hinner : set.Nests inner) : set.Obeys true (dataItem inner) := by
  intro state hlt
  have h : set.Reached state false [] state := .refl hlt
  refine .bind (.isAt (.ite (fun _ => ?_) fun _ => ?_))
  · exact .map (h.call (obeys_fieldSpec hinner state hlt) fun _ _ h₁ => h₁)
  · exact .map (h.call (obeys_constructorSpec hinner state hlt) fun _ _ h₁ => h₁)

theorem proceeds_dataDeclaration (hinner : set.Nests inner)
    (hlt : state.position < set.stream.size)
    (hkind : set.stream.kind state.position = .keyword .dataWord) :
    set.Proceeds true (dataDeclaration inner) state := by
  refine .bind ((Reached.refl hlt).advancePlain hkind rfl fun s₁ h₁ _ => ?_)
  refine .bind (h₁.expectPlain rfl fun name s₂ h₂ => ?_)
  refine .bind (h₂.call (obeys_typeParameters s₂ h₂.lt) fun parameters s₃ h₃ => ?_)
  refine .bind (h₃.openBody fun s₄ h₄ hopens => ?_)
  refine .bind (h₄.items hopens (obeys_dataItem hinner) fun entries s₅ h₅ _ => ?_)
  refine .bind (h₅.expectCloser fun _ s₆ h₆ => ?_)
  refine .bind (.spanFrom fun span => ?_)
  dsimp only
  split
  · exact .pure h₆
  · exact .pure h₆
  · exact .bind (h₆.reportError DiagnosticKind.noConfusion DiagnosticKind.noConfusion
      fun s₇ h₇ => .pure h₇)

/-! ### Effects, type classes and instances -/

theorem obeys_operationSpec (hinner : set.Nests inner) : set.Obeys true (operationSpec inner) := by
  intro state hlt
  have h : set.Reached state false [] state := .refl hlt
  refine .bind (.current (.ite (fun _ => .bind h.unexpected) fun hname => ?_))
  refine .bind (h.advancePlain rfl (TokenKind.isPlain_of_isName hname) fun s₁ h₁ _ => ?_)
  refine .bind (h₁.expectPlain rfl fun _ s₂ h₂ => ?_)
  refine .bind (h₂.call (hinner.typeExpr s₂ h₂.lt) fun typeExpr s₃ h₃ => ?_)
  exact .bind (.spanFrom fun _ => .pure h₃)

theorem proceeds_effectDeclaration (hinner : set.Nests inner)
    (hlt : state.position < set.stream.size)
    (hkind : set.stream.kind state.position = .keyword .effectWord) :
    set.Proceeds true (effectDeclaration inner) state := by
  refine .bind ((Reached.refl hlt).advancePlain hkind rfl fun s₁ h₁ _ => ?_)
  refine .bind (h₁.expectPlain rfl fun name s₂ h₂ => ?_)
  refine .bind (h₂.call (obeys_typeParameters s₂ h₂.lt) fun parameters s₃ h₃ => ?_)
  refine .bind (h₃.openBody fun s₄ h₄ hopens => ?_)
  refine .bind (h₄.items hopens (obeys_operationSpec hinner) fun operations s₅ h₅ _ => ?_)
  refine .bind (h₅.expectCloser fun _ s₆ h₆ => ?_)
  exact .bind (.spanFrom fun _ => .pure h₆)

theorem obeys_leadingContext (hinner : set.Nests inner) {what : String} :
    set.Obeys false (leadingContext inner what) := by
  intro state hlt
  have h : set.Reached state false [] state := .refl hlt
  refine .bind (.contextAhead fun _ => .ite (fun _ => ?_) fun _ => .pure h)
  refine .bind (h.call (hinner.context state hlt) fun constraints s₁ h₁ => ?_)
  exact .bind (h₁.expectOperator fun _ s₂ h₂ => .pure h₂.weaken)

theorem obeys_classMember (hinner : set.Nests inner) : set.Obeys true (classMember inner) := by
  intro state hlt
  exact .bind ((Reached.refl hlt).call (obeys_definition hinner state hlt)
    fun _ s₁ h₁ => .pure h₁)

theorem proceeds_classDeclaration (hinner : set.Nests inner)
    (hlt : state.position < set.stream.size)
    (hkind : set.stream.kind state.position = .keyword .typeclassWord) :
    set.Proceeds true (classDeclaration inner) state := by
  refine .bind ((Reached.refl hlt).advancePlain hkind rfl fun s₁ h₁ _ => ?_)
  refine .bind (h₁.call (obeys_leadingContext hinner s₁ h₁.lt) fun superclasses s₂ h₂ => ?_)
  refine .bind (h₂.expectPlain rfl fun name s₃ h₃ => ?_)
  refine .bind (h₃.expectPlain rfl fun parameter s₄ h₄ => ?_)
  refine .bind (h₄.openBody fun s₅ h₅ hopens => ?_)
  refine .bind (h₅.items hopens (obeys_classMember hinner) fun groups s₆ h₆ _ => ?_)
  refine .bind (h₆.expectCloser fun _ s₇ h₇ => ?_)
  exact .bind (.spanFrom fun _ => .pure h₇)

theorem obeys_instanceMember (hinner : set.Nests inner) :
    set.Obeys true (instanceMember inner) := by
  intro state hlt
  have h : set.Reached state false [] state := .refl hlt
  refine .bind (.peek (.bind (.isAt (.ite (fun _ => .bind ?_) fun _ => ?_))))
  · exact h.failWith DiagnosticKind.noConfusion DiagnosticKind.noConfusion
  · exact .bind (h.call (obeys_definition hinner state hlt) fun _ s₁ h₁ => .pure h₁)

theorem proceeds_instanceDeclaration (hinner : set.Nests inner)
    (hlt : state.position < set.stream.size)
    (hkind : set.stream.kind state.position = .keyword .instanceWord) :
    set.Proceeds true (instanceDeclaration inner) state := by
  refine .bind ((Reached.refl hlt).advancePlain hkind rfl fun s₁ h₁ _ => ?_)
  refine .bind (h₁.call (obeys_leadingContext hinner s₁ h₁.lt) fun constraints s₂ h₂ => ?_)
  refine .bind (h₂.expectPlain rfl fun className s₃ h₃ => ?_)
  refine .bind (h₃.call (hinner.typeAtom s₃ h₃.lt) fun head s₄ h₄ => ?_)
  refine .bind (h₄.openBody fun s₅ h₅ hopens => ?_)
  refine .bind (h₅.items hopens (obeys_instanceMember hinner) fun groups s₆ h₆ _ => ?_)
  refine .bind (h₆.expectCloser fun _ s₇ h₇ => ?_)
  exact .bind (.spanFrom fun _ => .pure h₇)

/-! ### Statements -/

theorem obeys_plainStatement (hinner : set.Nests inner) {first : Token} :
    set.Obeys true (plainStatement inner first) := by
  intro state hlt
  have h : set.Reached state false [] state := .refl hlt
  have hdefinition : set.Proceeds true (do return (← definition inner).statements) state :=
    .bind (h.call (obeys_definition hinner state hlt) fun _ s₁ h₁ => .pure h₁)
  refine .bind (.firstStop ?_)
  split
  · refine .bind (h.call (hinner.pattern state hlt) fun pattern s₁ h₁ => ?_)
    refine .bind (h₁.expectPlain rfl fun _ s₂ h₂ => ?_)
    refine .bind (h₂.skipNewlines fun s₃ h₃ _ => ?_)
    refine .bind (h₃.call (hinner.expression 0 s₃ h₃.lt) fun value s₄ h₄ => ?_)
    exact .bind (.spanFrom fun _ => .pure h₄)
  · exact .ite (fun _ => .bind h.unexpected) fun _ => hdefinition
  · exact .ite (fun _ => .bind h.unexpected) fun _ => hdefinition
  · exact .bind (h.call (hinner.expression 0 state hlt) fun value s₁ h₁ => .pure h₁)

theorem obeys_statement (hinner : set.Nests inner) : set.Obeys true (statement inner) := by
  intro state hlt
  have h : set.Reached state false [] state := .refl hlt
  refine .bind (.current ?_)
  split
  · next hkind =>
    exact .bind (h.call (proceeds_dataDeclaration hinner hlt hkind) fun _ s₁ h₁ => .pure h₁)
  · next hkind =>
    exact .bind (h.call (proceeds_effectDeclaration hinner hlt hkind) fun _ s₁ h₁ => .pure h₁)
  · next hkind =>
    exact .bind (h.call (proceeds_classDeclaration hinner hlt hkind) fun _ s₁ h₁ => .pure h₁)
  · next hkind =>
    exact .bind (h.call (proceeds_instanceDeclaration hinner hlt hkind) fun _ s₁ h₁ => .pure h₁)
  · exact h.failWith DiagnosticKind.noConfusion DiagnosticKind.noConfusion
  · next hkind =>
    exact .bind (h.call (proceeds_pendingAscription hinner hlt hkind) fun _ s₁ h₁ => .pure h₁)
  · exact .bind (h.call (obeys_conditional hinner state hlt) fun value s₁ h₁ => .pure h₁)
  · exact obeys_plainStatement hinner state hlt

/-! ### All productions -/

/-- What is nested keeps to the rules if the productions with the levels that are left do. -/
theorem nests_ofRules (hdeep : set.allows .tooDeep) {budget : Nat}
    {rules : (rule : ExprRule) → Parser rule.Answer}
    (hrules : ∀ rule, set.Obeys true (rules rule)) : set.Nests (.ofRules budget rules) where
  pattern := obeys_patternAt hdeep budget
  patternAtom := obeys_patternAtom (obeys_patternAt hdeep budget)
  typeExpr := obeys_typeAt hdeep budget .type
  typeAtom := obeys_typeAtom (obeys_typeAt hdeep budget)
  context := obeys_context (obeys_typeAt hdeep budget)
  expression minPower := hrules (.expression minPower)
  operand := hrules .operand
  statement := hrules .statement

/-- Every production keeps to the rules, however deep it may nest. -/
theorem obeys_produce (hwarns : set.Warns) (hdeep : set.allows .tooDeep) (budget : Nat) :
    ∀ rule, set.Obeys true (produce budget rule) := by
  -- at no levels left every production gives up; one level more nests only what obeys
  induction budget with
  | zero => exact fun _ state hlt => .throw ((Reached.refl hlt).abort hdeep Abort.noConfusion)
  | succ budget ih =>
    intro rule
    have hinner : set.Nests (.ofRules budget (produce budget)) := nests_ofRules hdeep ih
    cases rule with
    | expression minPower => exact obeys_expression hwarns hinner
    | operand => exact obeys_operand hwarns hinner
    | statement => exact obeys_statement hinner

end SableFrontend.Setting
