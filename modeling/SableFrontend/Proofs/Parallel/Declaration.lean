import SableFrontend.Proofs.Parallel.Operator

/-!
Declarations and statements on two streams. `mirrors_produce` ties the knot: by induction on the
levels of nesting that are left, every production does the same on both. Only of a statement that
is a conditional without its last branch nothing may be claimed, where that branch could come after
the end of the stretch.
-/

namespace SableFrontend

open TokenStream Parser Setting

/-- A conditional without a last branch, as a statement. -/
def Statement.lacksElse : Statement → Bool
  | item (.expression value _) => value.lacksElse
  | _ => false

namespace Parallel

variable {set : Setting} {P : Parallel set} {start state : ParserState} {inner : Nested}
  {position : Nat}

/-! ### Parts of headers -/

theorem agrees_typeParameters (hlt : state.position < set.stream.size)
    (hbase : P.base ≤ state.position) {waived : List String → ParserState → Prop} :
    P.Agrees waived typeParameters typeParameters state := by
  refine .collectWhileAt rfl (fun s hs hname => ?_) (fun s hs hname => ?_) hlt hbase
  · exact .bind ((Reached.refl hs).advancePlain hname rfl fun s₁ h₁ _ => .pure h₁)
  · exact .step (.advance (inner_of_kind hname rfl))
      ((Reached.refl hs.lt).advancePlain hname rfl fun s₁ h₁ _ => .pure rfl)

theorem agrees_openBody {what : String} (hlt : state.position < set.stream.size)
    {waived : Unit → ParserState → Prop} :
    P.Agrees waived (openBody what) (openBody what) state := by
  refine .bind (.expect rfl) ((Reached.refl hlt).expectPlain rfl fun _ s₁ h₁ => ?_)
  refine .bind_skipNewlines (h₁.skipNewlines fun s₂ h₂ _ => ⟨?_, fun hboundary =>
    (rejects_expect (TokenKind.ne_of_isBoundary hboundary rfl)).bind⟩)
  exact .bind (.expect rfl) (h₂.expectOpener fun _ s₃ h₃ _ _ => .pure rfl)

section

variable (hinner : set.Nests inner) (hmirrors : P.NestsAlike inner)

include hinner hmirrors

/-! ### Definitions -/

theorem agrees_definitionBody {name : Token} {patterns : List Pattern} (hloud : Loud true state)
    (hlt : state.position < set.stream.size) (hbase : P.base ≤ state.position) :
    P.Agrees never (definitionBody inner name patterns)
      (definitionBody inner (name.relocate P.relocation) (P.relocation.move patterns)) state := by
  refine .bind_skipNewlines ((Reached.refl hlt).skipNewlines fun s₁ h₁ _ => ⟨?_, fun hboundary =>
    (hmirrors.rejects 0 s₁ hboundary).bind⟩)
  refine .bind ((hmirrors.expression 0).at hloud h₁)
    (h₁.call (hinner.expression 0 s₁ h₁.lt) fun body s₂ h₂ => ?_)
  exact .step (.spanFrom (Nat.lt_of_le_of_lt hbase (h₂.progress rfl)))
    (.spanFrom fun _ => .pure (by simp))

theorem agrees_annotatedDefinition {name : Token} (hloud : Loud true state)
    (hguarded : P.Guarded state.position) (hlt : state.position < set.stream.size)
    (hbase : P.base ≤ state.position) (hkind : set.stream.kind state.position = .atSign) :
    P.Agrees never (annotatedDefinition inner name)
      (annotatedDefinition inner (name.relocate P.relocation)) state := by
  refine .step (.advance (inner_of_kind hkind rfl))
    ((Reached.refl hlt).advancePlain hkind rfl fun s₁ h₁ _ => ?_)
  refine .bind (hmirrors.typeExpr.at hloud hguarded.clear h₁)
    (h₁.call (hinner.typeExpr s₁ h₁.lt) fun typeExpr s₂ h₂ => ?_)
  refine .step (.spanFrom (Nat.lt_of_le_of_lt hbase (h₂.progress rfl))) (.spanFrom fun span => ?_)
  refine .step (.isAt_guarded rfl (hguarded.reached h₂))
    (.isAt (.ite (fun hassign => ?_) fun _ => .pure ?_))
  · have hassign := beq_iff_eq.1 hassign
    refine .step (.advance (inner_of_kind hassign rfl))
      (h₂.advancePlain hassign rfl fun s₃ h₃ _ => ?_)
    refine .bind (agrees_definitionBody hinner hmirrors (hloud.reached h₃) h₃.lt
      (Nat.le_trans hbase h₃.within.le))
      (h₃.call (obeys_definitionBody hinner s₃ h₃.lt) fun definition s₄ h₄ => .pure ?_)
    simp [Relocation.move, Relocatable.relocate, DefinitionLine.relocate, Ascription.relocate]
  · simp [Relocation.move, Relocatable.relocate, DefinitionLine.relocate, Ascription.relocate]

theorem mirrors_definition : P.MirrorsGuarded true (definition inner) := by
  intro state hlt hloud hguarded
  refine .of_live (obeys_definition hinner state hlt)
    (fun hboundary => (rejects_expect (TokenKind.ne_of_isBoundary hboundary rfl)).bind)
    fun hlive => ?_
  refine .bind (.expect rfl) ((Reached.refl hlt).expectPlain rfl fun name s₁ h₁ => ?_)
  refine .step (.isAt (Or.inl rfl)) (.isAt (.ite (fun hat => ?_) fun _ => ?_))
  · exact agrees_annotatedDefinition hinner hmirrors (hloud.reached h₁) (hguarded.reached h₁) h₁.lt
      (base_le_of_reached h₁ hlive) (beq_iff_eq.1 hat)
  · refine .bind (.collectWhile (fun _ hs => (obeys_startsPatternAtom _ hs.lt).test)
      (fun _ hs _ => hinner.patternAtom _ hs.lt) (fun _ _ => agrees_startsPatternAtom)
      (fun _ hs _ => hmirrors.patternAtom.weaken.at (hloud.reached h₁) hs) h₁.lt
      (base_le_of_reached h₁ hlive))
      (h₁.collectWhile obeys_startsPatternAtom hinner.patternAtom fun patterns s₂ h₂ => ?_)
    refine .bind (.expect rfl) (h₂.expectPlain rfl fun _ s₃ h₃ => ?_)
    refine .bind (agrees_definitionBody hinner hmirrors (hloud.reached h₃) h₃.lt
      (base_le_of_reached h₃ hlive))
      (h₃.call (obeys_definitionBody hinner s₃ h₃.lt) fun definition s₄ h₄ => .pure ?_)
    simp [Relocation.move, Relocatable.relocate, DefinitionLine.relocate]

theorem agrees_pendingAscription (hloud : Loud true state) (hguarded : P.Guarded state.position)
    (hlive : P.Live state.position) (hlt : state.position < set.stream.size)
    (hkind : set.stream.kind state.position = .atSign) :
    P.Agrees never (pendingAscription inner) (pendingAscription inner) state := by
  refine .step (.advance (inner_of_kind hkind rfl))
    ((Reached.refl hlt).advancePlain hkind rfl fun s₁ h₁ _ => ?_)
  refine .bind (hmirrors.typeExpr.at hloud hguarded.clear h₁)
    (h₁.call (hinner.typeExpr s₁ h₁.lt) fun typeExpr s₂ h₂ => ?_)
  exact .step (.spanFrom (base_lt_of_reached h₂ hlive)) (.spanFrom fun _ => .pure (by simp))

/-! ### Data types -/

theorem mirrorsInside_fieldSpec : P.MirrorsInside true (fieldSpec inner) := by
  intro state hlt hloud hsheltered
  refine .of_shown (obeys_fieldSpec hinner state hlt) hsheltered.shown fun hlive => ?_
  refine .bind (.expect rfl) ((Reached.refl hlt).expectPlain rfl fun name s₁ h₁ => ?_)
  refine .bind (.expect rfl) (h₁.expectPlain rfl fun _ s₂ h₂ => ?_)
  refine .bind (hmirrors.typeExpr.at hloud hsheltered.clear h₂)
    (h₂.call (hinner.typeExpr s₂ h₂.lt) fun typeExpr s₃ h₃ => ?_)
  refine .step (.isAt (Or.inr (hsheltered.reached h₃).shown)) (.isAt (.ite (fun hassign => ?_) fun _ => ?_))
  · have hassign := beq_iff_eq.1 hassign
    refine .step (.advance (inner_of_kind hassign rfl))
      (h₃.advancePlain hassign rfl fun s₄ h₄ _ => ?_)
    refine .step (.skipNewlines (hsheltered.reached h₄)) (h₄.skipNewlines fun s₅ h₅ _ => ?_)
    refine .bind (.map ((hmirrors.expression 0).at hloud h₅) fun _ => rfl)
      (.map (h₅.call (hinner.expression 0 s₅ h₅.lt) fun value s₆ h₆ => ?_))
    exact .step (.spanFrom (base_lt_of_reached h₆ hlive)) (.spanFrom fun _ => .pure (by simp))
  · refine .step (.pure rfl) (.pure ?_)
    exact .step (.spanFrom (base_lt_of_reached h₃ hlive)) (.spanFrom fun _ => .pure (by simp))

theorem mirrorsInside_constructorSpec : P.MirrorsInside true (constructorSpec inner) := by
  intro state hlt hloud hsheltered
  refine .of_shown (obeys_constructorSpec hinner state hlt) hsheltered.shown fun hlive => ?_
  have hname : set.Runs (expect .typeIdentifier "as constructor name") state
      (fun _ s₁ => set.Reached state true [] s₁) (set.Stops state) :=
    (Reached.refl hlt).expectPlain rfl fun _ s₁ h₁ => h₁
  refine .step (.expect rfl) ((hname.and runs_expect).mono
    (fun name s₁ ⟨h₁, hname, hkind, hposition, _⟩ => ?_) fun _ _ _ => trivial)
  subst hname
  have hprogress := h₁.progress rfl
  have hboundary : (set.stream.kind state.position).isBoundary = false := by
    rw [TokenStream.kind, hkind]
    rfl
  refine .bind_touching hlive hboundary rfl (by omega) (fun hopener => ?_) ?_
  · refine .step (.advance (inner_of_kind hopener rfl))
      (h₁.advanceOpener hopener fun s₂ h₂ hopens _ => ?_)
    have hdeep := fun {moved s} (h : set.Reached state moved [.square] s) => deep_of_reached h hlive
    refine .bind (.items h₂.lt hopens (obeys_fieldSpec hinner)
      (mirrorsInside_fieldSpec hinner hmirrors) (hloud.reached h₂) (base_le_of_reached h₂ hlive)
      (hdeep h₂).sheltered)
      (h₂.items hopens (obeys_fieldSpec hinner) fun named s₃ h₃ _ => ?_)
    refine .bind (.expectCloser (hdeep h₃)) (h₃.expectCloser fun _ s₄ h₄ => ?_)
    exact .step (.spanFrom (base_lt_of_reached h₄ hlive)) (.spanFrom fun _ => .pure (by simp))
  · refine .bind (.collectWhile (fun _ hs => (obeys_startsTypeAtom _ hs.lt).test)
      (fun _ hs _ => hinner.typeAtom _ hs.lt) (fun _ _ => agrees_startsTypeAtom)
      (fun _ hs _ => hmirrors.typeAtom.at (hloud.reached h₁) (hsheltered.reached h₁).clear hs)
      h₁.lt (base_le_of_reached h₁ hlive))
      (h₁.collectWhile obeys_startsTypeAtom hinner.typeAtom fun positional s₂ h₂ => ?_)
    exact .step (.spanFrom (base_lt_of_reached h₂ hlive)) (.spanFrom fun _ => .pure (by simp))

theorem mirrorsInside_dataItem : P.MirrorsInside true (dataItem inner) := by
  intro state hlt hloud hsheltered
  have hfield := mirrorsInside_fieldSpec hinner hmirrors state hlt hloud hsheltered
  have hconstructor := mirrorsInside_constructorSpec hinner hmirrors state hlt hloud hsheltered
  exact .step (.isAt (Or.inl rfl)) (.isAt (.ite (fun _ => .map hfield fun _ => rfl)
    fun _ => .map hconstructor fun _ => rfl))

theorem agrees_dataDeclaration (hloud : Loud true state) (hlive : P.Live state.position)
    (hlt : state.position < set.stream.size)
    (hkind : set.stream.kind state.position = .keyword .dataWord) :
    P.Agrees never (dataDeclaration inner) (dataDeclaration inner) state := by
  have hdeep := fun {moved s} (h : set.Reached state moved [.square] s) => deep_of_reached h hlive
  refine .step (.advance (inner_of_kind hkind rfl))
    ((Reached.refl hlt).advancePlain hkind rfl fun s₁ h₁ _ => ?_)
  refine .bind (.expect rfl) (h₁.expectPlain rfl fun name s₂ h₂ => ?_)
  refine .bind (agrees_typeParameters h₂.lt (base_le_of_reached h₂ hlive))
    (h₂.call (obeys_typeParameters s₂ h₂.lt) fun parameters s₃ h₃ => ?_)
  refine .bind (agrees_openBody h₃.lt) (h₃.openBody fun s₄ h₄ hopens => ?_)
  refine .bind (.items h₄.lt hopens (obeys_dataItem hinner) (mirrorsInside_dataItem hinner hmirrors)
    (hloud.reached h₄) (base_le_of_reached h₄ hlive) (hdeep h₄).sheltered)
    (h₄.items hopens (obeys_dataItem hinner) fun entries s₅ h₅ _ => ?_)
  refine .bind (.expectCloser (hdeep h₅)) (h₅.expectCloser fun _ s₆ h₆ => ?_)
  refine .step (.spanFrom (base_lt_of_reached h₆ hlive)) (.spanFrom fun span => ?_)
  dsimp only
  rw [P.relocation.move_getLeft, P.relocation.move_getRight]
  generalize entries.filterMap Sum.getLeft? = fields
  generalize entries.filterMap Sum.getRight? = constructors
  cases fields with
  | nil => exact .pure (by simp)
  | cons field fields =>
    cases constructors with
    | nil => exact .pure (by simp)
    | cons constructor constructors =>
      simp only [Relocation.move, Relocatable.relocate, List.map_cons, FieldSpec.relocate_span]
      exact .bind_always .reportError fun _ s₇ => .pure (by simp)

/-! ### Effects, type classes and instances -/

theorem mirrorsInside_operationSpec : P.MirrorsInside true (operationSpec inner) := by
  intro state hlt hloud hsheltered
  refine .of_shown (obeys_operationSpec hinner state hlt) hsheltered.shown fun hlive => ?_
  have h : set.Reached state false [] state := .refl hlt
  refine .step (.current hlive.shown) (.current (.ite (fun _ => .unexpected_bind) fun hname => ?_))
  refine .step (.advance (inner_of_isName hname))
    (h.advancePlain rfl (TokenKind.isPlain_of_isName hname) fun s₁ h₁ _ => ?_)
  refine .bind (.expect rfl) (h₁.expectPlain rfl fun _ s₂ h₂ => ?_)
  refine .bind (hmirrors.typeExpr.at hloud hsheltered.clear h₂)
    (h₂.call (hinner.typeExpr s₂ h₂.lt) fun typeExpr s₃ h₃ => ?_)
  refine .step (.spanFrom (base_lt_of_reached h₃ hlive)) (.spanFrom fun _ => .pure ?_)
  simp [Relocation.move, Relocatable.relocate, OperationSpec.relocate]

theorem agrees_effectDeclaration (hloud : Loud true state) (hlive : P.Live state.position)
    (hlt : state.position < set.stream.size)
    (hkind : set.stream.kind state.position = .keyword .effectWord) :
    P.Agrees never (effectDeclaration inner) (effectDeclaration inner) state := by
  have hdeep := fun {moved s} (h : set.Reached state moved [.square] s) => deep_of_reached h hlive
  refine .step (.advance (inner_of_kind hkind rfl))
    ((Reached.refl hlt).advancePlain hkind rfl fun s₁ h₁ _ => ?_)
  refine .bind (.expect rfl) (h₁.expectPlain rfl fun name s₂ h₂ => ?_)
  refine .bind (agrees_typeParameters h₂.lt (base_le_of_reached h₂ hlive))
    (h₂.call (obeys_typeParameters s₂ h₂.lt) fun parameters s₃ h₃ => ?_)
  refine .bind (agrees_openBody h₃.lt) (h₃.openBody fun s₄ h₄ hopens => ?_)
  refine .bind (.items h₄.lt hopens (obeys_operationSpec hinner)
    (mirrorsInside_operationSpec hinner hmirrors) (hloud.reached h₄) (base_le_of_reached h₄ hlive)
    (hdeep h₄).sheltered)
    (h₄.items hopens (obeys_operationSpec hinner) fun operations s₅ h₅ _ => ?_)
  refine .bind (.expectCloser (hdeep h₅)) (h₅.expectCloser fun _ s₆ h₆ => ?_)
  exact .step (.spanFrom (base_lt_of_reached h₆ hlive)) (.spanFrom fun _ => .pure (by simp))

theorem agrees_leadingContext {what : String} (hloud : Loud true state)
    (hguarded : P.Guarded state.position) (hlt : state.position < set.stream.size) :
    P.Agrees never (leadingContext inner what) (leadingContext inner what) state := by
  refine .step (agrees_contextAhead hguarded.clear)
    (.contextAhead fun _ => .ite (fun _ => ?_) fun _ => .pure rfl)
  refine .bind (hmirrors.context state hlt hloud hguarded.clear)
    ((Reached.refl hlt).call (hinner.context state hlt) fun constraints s₁ h₁ => ?_)
  exact .bind .expectOperator (h₁.expectOperator fun _ s₂ h₂ => .pure rfl)

theorem mirrors_classMember : P.MirrorsGuarded true (classMember inner) := by
  intro state hlt hloud hguarded
  refine .bind (mirrors_definition hinner hmirrors state hlt hloud hguarded)
    ((Reached.refl hlt).call (obeys_definition hinner state hlt) fun line s₁ h₁ => .pure ?_)
  exact (line.relocate_members).symm

theorem agrees_classDeclaration (hloud : Loud true state) (hguarded : P.Guarded state.position)
    (hlive : P.Live state.position) (hlt : state.position < set.stream.size)
    (hkind : set.stream.kind state.position = .keyword .typeclassWord) :
    P.Agrees never (classDeclaration inner) (classDeclaration inner) state := by
  have hdeep := fun {moved s} (h : set.Reached state moved [.square] s) => deep_of_reached h hlive
  refine .step (.advance (inner_of_kind hkind rfl))
    ((Reached.refl hlt).advancePlain hkind rfl fun s₁ h₁ _ => ?_)
  refine .bind (agrees_leadingContext hinner hmirrors (hloud.reached h₁) (hguarded.reached h₁) h₁.lt)
    (h₁.call (obeys_leadingContext hinner s₁ h₁.lt) fun superclasses s₂ h₂ => ?_)
  refine .bind (.expect rfl) (h₂.expectPlain rfl fun name s₃ h₃ => ?_)
  refine .bind (.expect rfl) (h₃.expectPlain rfl fun parameter s₄ h₄ => ?_)
  refine .bind (agrees_openBody h₄.lt) (h₄.openBody fun s₅ h₅ hopens => ?_)
  refine .bind (.items h₅.lt hopens (obeys_classMember hinner)
    (mirrors_classMember hinner hmirrors).mirrorsInside (hloud.reached h₅)
    (base_le_of_reached h₅ hlive) (hdeep h₅).sheltered)
    (h₅.items hopens (obeys_classMember hinner) fun groups s₆ h₆ _ => ?_)
  refine .bind (.expectCloser (hdeep h₆)) (h₆.expectCloser fun _ s₇ h₇ => ?_)
  refine .step (.spanFrom (base_lt_of_reached h₇ hlive)) (.spanFrom fun _ => .pure ?_)
  have hmerge : ∀ members : List ClassMember,
      mergeDefinitions ClassMember.definition? .definition (P.relocation.move members) =
        P.relocation.move (mergeDefinitions ClassMember.definition? .definition members) :=
    mergeDefinitions_map (r := P.relocation)
      (fun member => by cases member <;> simp [ClassMember.definition?, Relocation.move,
        Relocatable.relocate])
      fun definition => by simp [Relocation.move, Relocatable.relocate]
  rw [P.relocation.move_flatten, hmerge]
  simp [Relocation.move, Relocatable.relocate]

theorem mirrorsInside_instanceMember : P.MirrorsInside true (instanceMember inner) := by
  intro state hlt hloud hsheltered
  have hdefinition : P.Agrees never (do return (← definition inner).definition.toList)
      (do return (← definition inner).definition.toList) state := by
    refine .bind (mirrors_definition hinner hmirrors state hlt hloud hsheltered.guarded)
      ((Reached.refl hlt).call (obeys_definition hinner state hlt) fun line s₁ h₁ => .pure ?_)
    exact Option.toList_map.symm
  by_cases hkind : set.stream.kind state.position = .identifier
  · have hin : P.Inner state.position := inner_of_kind hkind rfl
    refine .step (.peek hin (hsheltered.succ hlt (hkind ▸ rfl)).shown) (.peek ?_)
    exact .step (.isAt (Or.inl rfl)) (.isAt (.ite (fun _ => .failWith_bind) fun _ => hdefinition))
  · -- then the token behind it does not matter
    refine .congr _ _ ?_ (fun right hrelated _ => ?_) hdefinition
    · show (if ((set.stream.kind state.position == .identifier) && _) = true then _ else _ :
        Parser (List TermDef)) set.stream state = _
      rw [beq_eq_false_iff_ne.2 hkind]
      rfl
    · have hsame := hrelated.test (.ofEq .identifier rfl)
      show (if ((P.other.kind right.position == .identifier) && _) = true then _ else _ :
        Parser (List TermDef)) P.other right = _
      rw [TokenStream.kind, hsame, show ((set.stream.token state.position).kind == .identifier) =
        false from beq_eq_false_iff_ne.2 hkind]
      rfl

theorem agrees_instanceDeclaration (hloud : Loud true state) (hguarded : P.Guarded state.position)
    (hlive : P.Live state.position) (hlt : state.position < set.stream.size)
    (hkind : set.stream.kind state.position = .keyword .instanceWord) :
    P.Agrees never (instanceDeclaration inner) (instanceDeclaration inner) state := by
  have hdeep := fun {moved s} (h : set.Reached state moved [.square] s) => deep_of_reached h hlive
  refine .step (.advance (inner_of_kind hkind rfl))
    ((Reached.refl hlt).advancePlain hkind rfl fun s₁ h₁ _ => ?_)
  refine .bind (agrees_leadingContext hinner hmirrors (hloud.reached h₁) (hguarded.reached h₁) h₁.lt)
    (h₁.call (obeys_leadingContext hinner s₁ h₁.lt) fun constraints s₂ h₂ => ?_)
  refine .bind (.expect rfl) (h₂.expectPlain rfl fun className s₃ h₃ => ?_)
  refine .bind (hmirrors.typeAtom.at hloud hguarded.clear h₃)
    (h₃.call (hinner.typeAtom s₃ h₃.lt) fun head s₄ h₄ => ?_)
  refine .bind (agrees_openBody h₄.lt) (h₄.openBody fun s₅ h₅ hopens => ?_)
  refine .bind (.items h₅.lt hopens (obeys_instanceMember hinner)
    (mirrorsInside_instanceMember hinner hmirrors) (hloud.reached h₅)
    (base_le_of_reached h₅ hlive) (hdeep h₅).sheltered)
    (h₅.items hopens (obeys_instanceMember hinner) fun groups s₆ h₆ _ => ?_)
  refine .bind (.expectCloser (hdeep h₆)) (h₆.expectCloser fun _ s₇ h₇ => ?_)
  refine .step (.spanFrom (base_lt_of_reached h₇ hlive)) (.spanFrom fun _ => .pure ?_)
  have hmerge : ∀ members : List TermDef, mergeDefinitions some id (P.relocation.move members) =
      P.relocation.move (mergeDefinitions some id members) :=
    mergeDefinitions_map (r := P.relocation) (fun _ => rfl) fun _ => rfl
  rw [P.relocation.move_flatten, hmerge]
  simp [Relocation.move, Relocatable.relocate]

/-! ### Statements -/

omit hinner hmirrors in
/-- The first stop ahead, which need not be the same if an item may end there. -/
theorem bind_firstStop {α : Type} [Relocatable α] {stops : TokenKind → Bool}
    {waived : α → ParserState → Prop} {next next' : Token → Parser α}
    (hguarded : P.Guarded state.position)
    (h : P.Agrees waived (next (set.stream.firstStop stops 0 state.position))
      (next' ((set.stream.firstStop stops 0 state.position).relocate P.relocation)) state)
    (hstop : (set.stream.firstStop stops 0 state.position).kind.isBoundary = true →
      ∀ token : Token, token.kind.isBoundary = true →
        P.Agrees waived (next (set.stream.firstStop stops 0 state.position)) (next' token) state) :
    P.Agrees waived (firstStop stops >>= next) (firstStop stops >>= next') state where
  forward := h.forward
  grows := h.grows
  muted_eq := h.muted_eq
  mirrored right hrelated hseen := by
    obtain ⟨found, hbase, hle, hopened, hleft, hright⟩ := exists_firstStop stops
      hrelated.base_le hrelated.le_stop (Or.inr hguarded)
    rw [← hrelated.position_eq] at hright
    have hrun : (firstStop stops >>= next') P.other right =
        next' (P.other.token (P.place found)) P.other right := by
      show next' (P.other.firstStop stops 0 right.position) P.other right = _
      rw [hright]
    rw [hrun]
    rcases Nat.lt_or_eq_of_le hle with hlt | rfl
    · have hmirrored := h.mirrored right hrelated hseen
      rw [hleft, ← (live_of_lt hbase hlt).token_eq, ← hleft] at hmirrored
      exact hmirrored
    · have hclosed := hguarded.closed hopened
      exact (hstop (hleft ▸ kind_stop) _ hclosed.kind_stop).mirrored right hrelated hseen

theorem agrees_plainStatement {first : Token} (hloud : Loud true state)
    (hguarded : P.Guarded state.position) (hlive : P.Live state.position) (hlt : state.position < set.stream.size) :
    P.Agrees never (plainStatement inner first)
      (plainStatement inner (first.relocate P.relocation)) state := by
  have h : set.Reached state false [] state := .refl hlt
  have hdefinition : P.Agrees never (do return (← definition inner).statements)
      (do return (← definition inner).statements) state :=
    .bind (mirrors_definition hinner hmirrors state hlt hloud hguarded)
      (h.call (obeys_definition hinner state hlt) fun line s₁ h₁ =>
        .pure line.relocate_statements.symm)
  have hexpression : P.Agrees never
      (do
        let value ← inner.expression 0
        return [Statement.item (.expression value value.span)])
      (do
        let value ← inner.expression 0
        return [Statement.item (.expression value value.span)]) state :=
    .bind (hmirrors.expression 0 state hlt hloud)
      (h.call (hinner.expression 0 state hlt) fun value s₁ h₁ => .pure (by simp))
  refine bind_firstStop hguarded ?_ fun hstop token htoken => ?_
  · dsimp only [Token.relocate_kind]
    split
    · refine .bind (hmirrors.pattern.weaken state hlt hloud)
        (h.call (hinner.pattern state hlt) fun pattern s₁ h₁ => ?_)
      refine .bind (.expect rfl) (h₁.expectPlain rfl fun _ s₂ h₂ => ?_)
      refine .bind_skipNewlines (h₂.skipNewlines fun s₃ h₃ _ => ⟨?_, fun hboundary =>
        (hmirrors.rejects 0 s₃ hboundary).bind⟩)
      refine .bind ((hmirrors.expression 0).at hloud h₃)
        (h₃.call (hinner.expression 0 s₃ h₃.lt) fun value s₄ h₄ => ?_)
      exact .step (.spanFrom (base_lt_of_reached h₄ hlive)) (.spanFrom fun _ => .pure (by simp))
    · exact .ite (fun _ => .unexpected_bind) fun _ => hdefinition
    · exact .ite (fun _ => .unexpected_bind) fun _ => hdefinition
    · exact hexpression
  · -- neither is a sign that ends a head
    generalize set.stream.firstStop endsStatementHead 0 state.position = found at hstop
    rcases TokenKind.eq_of_isBoundary hstop with hkind | hkind | ⟨bracket, hkind⟩ | hkind <;>
      rcases TokenKind.eq_of_isBoundary htoken with hkind' | hkind' | ⟨bracket', hkind'⟩ | hkind' <;>
        rw [hkind, hkind'] <;> exact hexpression

omit hinner in
theorem rejects_plainStatement {first : Token} (hlt : state.position < set.stream.size)
    (hboundary : (set.stream.kind state.position).isBoundary = true) :
    set.Rejects (plainStatement inner first) state := by
  have hhere : set.stream.firstStop endsStatementHead 0 state.position =
      set.stream.token state.position := by
    rw [TokenStream.firstStop_eq _ hlt]
    rcases TokenKind.eq_of_isBoundary hboundary with hkind | hkind | ⟨bracket, hkind⟩ | hkind <;>
      rw [hkind] <;> rfl
  have hexpression : set.Rejects
      (do
        let value ← inner.expression 0
        return [Statement.item (.expression value value.span)]) state :=
    (hmirrors.rejects 0 state hboundary).bind
  refine Runs.bind (.firstStop ?_)
  rw [hhere]
  rcases TokenKind.eq_of_isBoundary hboundary with hkind | hkind | ⟨bracket, hkind⟩ | hkind <;>
    rw [TokenStream.kind] at hkind <;> rw [hkind] <;> exact hexpression

omit hinner in
theorem rejects_statement (hlt : state.position < set.stream.size)
    (hboundary : (set.stream.kind state.position).isBoundary = true) :
    set.Rejects (statement inner) state := by
  have hplain : ∀ first, set.Rejects (plainStatement inner first) state :=
    fun _ => rejects_plainStatement hmirrors hlt hboundary
  refine Runs.bind (.current ?_)
  rcases TokenKind.eq_of_isBoundary hboundary with hkind | hkind | ⟨bracket, hkind⟩ | hkind <;>
    rw [TokenStream.kind] at hkind <;> rw [hkind] <;> exact hplain _

/-- Of a conditional without its last branch nothing may be claimed, and of nothing else. -/
theorem agrees_statement (hloud : Loud true state) (hguarded : P.Guarded state.position)
    (hlt : state.position < set.stream.size) :
    P.Agrees (fun answer final => answer.any Statement.lacksElse = true ∧
      P.Uncertain final.position) (statement inner) (statement inner) state := by
  refine .of_live (obeys_statement hinner state hlt)
    (rejects_statement hmirrors hlt) fun hlive => ?_
  have h : set.Reached state false [] state := .refl hlt
  refine .step (.current hlive.shown) (.current ?_)
  dsimp only [Relocation.move, Relocatable.relocate, Token.relocate_kind]
  split
  · next hkind =>
    exact .bind (agrees_dataDeclaration hinner hmirrors hloud hlive hlt hkind)
      (h.call (proceeds_dataDeclaration hinner hlt hkind) fun _ s₁ h₁ => .pure (by simp))
  · next hkind =>
    exact .bind (agrees_effectDeclaration hinner hmirrors hloud hlive hlt hkind)
      (h.call (proceeds_effectDeclaration hinner hlt hkind) fun _ s₁ h₁ => .pure (by simp))
  · next hkind =>
    exact .bind (agrees_classDeclaration hinner hmirrors hloud hguarded hlive hlt hkind)
      (h.call (proceeds_classDeclaration hinner hlt hkind) fun _ s₁ h₁ => .pure (by simp))
  · next hkind =>
    exact .bind (agrees_instanceDeclaration hinner hmirrors hloud hguarded hlive hlt hkind)
      (h.call (proceeds_instanceDeclaration hinner hlt hkind) fun _ s₁ h₁ => .pure (by simp))
  · exact .failWith
  · next hkind =>
    exact .bind (agrees_pendingAscription hinner hmirrors hloud hguarded hlive hlt hkind)
      (h.call (proceeds_pendingAscription hinner hlt hkind) fun _ s₁ h₁ => .pure (by simp))
  · refine .bind_waived (agrees_conditional hinner hmirrors hloud hlt)
      (h.call (obeys_conditional hinner state hlt) fun value s₁ h₁ => ⟨.pure (by simp), fun hwaived hseen => ?_⟩)
    exact hseen.2 ⟨by simpa [Statement.lacksElse] using hwaived.2.1, hwaived.2.2⟩
  · exact (agrees_plainStatement hinner hmirrors hloud hguarded hlive hlt).mono fun _ _ => False.elim

theorem mirrorsInside_statement : P.MirrorsInside true (statement inner) := by
  intro state hlt hloud hsheltered
  refine .of_shown (obeys_statement hinner state hlt) hsheltered.shown fun hlive => ?_
  refine (agrees_statement hinner hmirrors hloud hsheltered.guarded hlt).unwaived
    ((obeys_statement hinner state hlt).mono (fun answer final h hle hwaived => ?_)
      fun _ _ _ => trivial)
  exact (hsheltered.reached h).certain (base_le_of_reached h hlive) hle hwaived.2

end

/-! ### All productions -/

theorem rejectsEnds_produce (budget minPower : Nat) :
    set.RejectsEnds (produce budget (.expression minPower)) := by
  intro state hboundary
  cases budget with
  | zero => rfl
  | succ budget => exact rejects_expression hboundary

theorem nestsAlike_of_mirrors (hdeep : set.allows .tooDeep) {budget : Nat}
    (hexpression : ∀ minPower, P.Mirrors (α := Expr) true (produce budget (.expression minPower)))
    (hoperand : P.Mirrors (α := Expr) true (produce budget .operand))
    (hstatement : P.MirrorsInside (α := List Statement) true (produce budget .statement)) :
    P.NestsAlike (.ofRules budget (produce budget)) where
  pattern := mirrors_patternAt hdeep budget
  patternAtom := mirrors_patternAtom (obeys_patternAt hdeep budget) (mirrors_patternAt hdeep budget)
  typeExpr := mirrors_typeAt hdeep budget .type
  typeAtom := mirrors_typeAtom (obeys_typeAt hdeep budget) (mirrors_typeAt hdeep budget)
  context := mirrors_context (obeys_typeAt hdeep budget) (mirrors_typeAt hdeep budget)
  expression := hexpression
  operand := hoperand
  statement := hstatement
  rejects := rejectsEnds_produce budget

/-- What is nested does the same on both streams, however deep it may nest. -/
theorem nestsAlike_ofRules (hwarns : set.Warns) (hdeep : set.allows .tooDeep) (budget : Nat) :
    P.NestsAlike (.ofRules budget (produce budget)) := by
  -- at no levels left every production gives up; one level more nests only what is alike
  induction budget with
  | zero =>
    exact nestsAlike_of_mirrors hdeep (fun _ _ _ _ => .throw) (fun _ _ _ => .throw)
      fun _ _ _ _ => .throw
  | succ budget ih =>
    have hinner : set.Nests (.ofRules budget (produce budget)) :=
      nests_ofRules hdeep (obeys_produce hwarns hdeep budget)
    exact nestsAlike_of_mirrors hdeep (fun _ => mirrors_expression hinner ih hwarns)
      (mirrors_operand hinner ih hwarns) (mirrorsInside_statement hinner ih)

/-- A statement with levels left, of which nothing may be claimed if it is a conditional without
its last branch. -/
theorem agrees_produce_statement (hwarns : set.Warns) (hdeep : set.allows .tooDeep) (budget : Nat)
    (hloud : Loud true state) (hguarded : P.Guarded state.position)
    (hlt : state.position < set.stream.size) :
    P.Agrees (α := List Statement) (fun answer final => answer.any Statement.lacksElse = true ∧
      P.Uncertain final.position) (produce budget .statement) (produce budget .statement) state := by
  cases budget with
  | zero => exact .throw
  | succ budget =>
    exact agrees_statement (nests_ofRules hdeep (obeys_produce hwarns hdeep budget))
      (nestsAlike_ofRules hwarns hdeep budget) hloud hguarded hlt

end Parallel

end SableFrontend
