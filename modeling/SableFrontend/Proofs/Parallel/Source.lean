import SableFrontend.Proofs.Grammar.Source
import SableFrontend.Proofs.Parallel.Declaration

/-!
Whole sources on two streams. Where nesting is too deep the report shows the token that was reached,
so it is the same if that token is.
-/

namespace SableFrontend

open TokenStream Parser Setting

/-- The declarations that are made of the items of a module. -/
def Parser.finishDeclarations (groups : List (List Statement)) : Parser (List Declaration) := do
  let statements ← declarationsOnly groups.flatten
  let (found, reported) := Statement.group statements
  reported.forM report
  return found.filterMap Item.declaration?

/-- A module, of which the header and the declarations have been read. -/
def Parser.finishModule (start : Span) (name : Option String) (declarations : List Declaration) :
    Parser Module := do
  return { name := name, declarations := declarations, span := start.join (← current).span }

/-- What stands between the separators of a module. -/
def Parser.moduleItem : Parser (List Statement) := boundNesting (produce nestingBudget .statement)

theorem Parser.moduleSource_eq : moduleSource = (do
    let start ← current
    skipSeparators false
    let name ← optionalHeader
    let groups ← items moduleItem .endOfFile false "declaration"
    let declarations ← finishDeclarations groups
    finishModule start.span name declarations) := by
  unfold finishDeclarations
  simp only [bind_assoc, pure_bind]
  rfl

/-- A parser that may nest too deeply keeps to the rules of the inside when it is bounded, too. -/
theorem Setting.obeys_boundNesting {set : Setting} {α : Type} {moved : Bool} {parser : Parser α}
    (h : set.Obeys moved parser) : set.Obeys moved (boundNesting parser) :=
  fun state hlt => (show set.Runs _ _ _ _ from proceeds_boundNesting (h state hlt)).mono
    (fun _ _ h => ⟨h.within, h.opened_eq, ⟨h.follows.muted_eq, h.follows.reports, h.follows.events⟩,
      h.settles, h.progress⟩)
    fun _ _ h => ⟨h.within, ⟨h.follows.muted_eq, h.follows.reports, h.follows.events⟩,
      h.allowed.1, h.settles, h.reports⟩

theorem Setting.obeys_moduleItem {set : Setting} (hwarns : set.Warns) (hdeep : set.allows .tooDeep) :
    set.Obeys true moduleItem :=
  obeys_boundNesting (obeys_produce hwarns hdeep nestingBudget .statement)

/-- An item may end at a token, and no group does. -/
theorem TokenKind.isSeparator_or {kind : TokenKind} (h : kind.isBoundary = true)
    (hcloser : kind.isCloser = false) : (kind.isSeparator || kind == .endOfFile) = true := by
  rw [TokenKind.isBoundary, hcloser, Bool.or_false] at h
  exact h

namespace Parallel

variable {set : Setting} {P : Parallel set} {start state : ParserState} {α : Type} [Relocatable α]

/-! ### The limit of nesting -/

theorem agrees_tooDeep {waived : α → ParserState → Prop} :
    P.Agrees waived
      (do
        reportTooDeep
        note .cutShort
        throw .failed)
      (do
        reportTooDeep
        note .cutShort
        throw .failed) state := by
  have hrejects : set.Rejects
      (do
        reportTooDeep
        note .cutShort
        throw .failed : Parser α) state := rfl
  have hreported : ∀ token : Token, P.Agrees (α := α) waived
      (do
        reportError .unexpectedToken "expression nested too deeply" token.span
          ["split the expression into smaller named definitions"]
        note .cutShort
        throw .failed)
      (do
        reportError .unexpectedToken "expression nested too deeply"
          (token.relocate P.relocation).span
          ["split the expression into smaller named definitions"]
        note .cutShort
        throw .failed) state :=
    fun _ => .bind_always .reportError fun _ _ => .bind_always .note fun _ _ => .throw
  have hsome := hreported (set.stream.token state.position)
  refine ⟨hsome.forward, hsome.grows, hsome.muted_eq, fun right hrelated hseen => ?_⟩
  rcases hrelated.live_or with hlive | ⟨hexact, hstop⟩
  · have hmirrored := hsome.mirrored right hrelated hseen
    rw [← hrelated.token_eq hlive] at hmirrored
    exact hmirrored
  · exact absurd hseen (not_seen_of_rejects hrejects hexact hstop)

theorem agrees_boundNesting {waived : α → ParserState → Prop} {parser other : Parser α}
    (h : P.Agrees waived parser other state) :
    P.Agrees waived (boundNesting parser) (boundNesting other) state := by
  refine .tryCatch h ?_
  unfold Setting.Runs
  split
  · trivial
  · next abort final _ =>
    cases abort with
    | tooDeep => exact ⟨agrees_tooDeep, fun hseen => hseen.2⟩
    | _ => exact ⟨.throw, fun hseen => hseen.2⟩

/-! ### Headers -/

/-- Looking at a token where the streams may differ at the end of the stretch. -/
theorem Agrees.bind_current_stop {waived : α → ParserState → Prop} {next next' : Token → Parser α}
    (h : P.Agrees waived (next (set.stream.token state.position))
      (next' ((set.stream.token state.position).relocate P.relocation)) state)
    (hstop : P.exact = false → state.position = P.stop →
      P.Agrees waived (next (set.stream.token state.position))
        (next' (P.other.token (P.place P.stop))) state) :
    P.Agrees waived (Parser.current >>= next) (Parser.current >>= next') state where
  forward := h.forward
  grows := h.grows
  muted_eq := h.muted_eq
  mirrored right hrelated hseen := by
    rcases hrelated.live_or with hlive | ⟨hexact, hend⟩
    · have hmirrored := h.mirrored right hrelated hseen
      rw [← hrelated.token_eq hlive] at hmirrored
      exact hmirrored
    · have hmirrored := (hstop hexact hend).mirrored right hrelated hseen
      rw [← hend, ← hrelated.position_eq] at hmirrored
      exact hmirrored

theorem agrees_moduleHeader (hlt : state.position < set.stream.size)
    (hkind : set.stream.kind state.position = .keyword .moduleWord)
    (hbase : P.base ≤ state.position) (hclosed : P.Closed)
    (hcloser : P.exact = true ∨ (set.stream.kind P.stop).isCloser = false ∧
      (P.other.kind (P.place P.stop)).isCloser = false) :
    P.Agrees never moduleHeader moduleHeader state := by
  refine .step (.advance (inner_of_kind hkind rfl))
    ((Reached.refl hlt).advancePlain hkind rfl fun s₁ h₁ _ => ?_)
  refine .bind (.expect rfl) (h₁.expectPlain rfl fun first s₂ h₂ => ?_)
  refine .bind (.collectBehind rfl rfl (obeys_tokenValue rfl)
    (fun s hs => mirrors_tokenValue rfl rfl s hs.lt (show Loud false s from Bool.noConfusion)) h₂.lt
    (Nat.le_trans hbase h₂.within.le))
    (h₂.collectBehind rfl (obeys_tokenValue rfl) fun more s₃ h₃ => ?_)
  have hname : P.relocation.move (String.intercalate "." (first.value :: more)) =
      String.intercalate "." ((P.relocation.move first).value :: P.relocation.move more) := by
    simp [Relocation.move, Relocatable.relocate]
  refine .bind_current_stop (.ite (fun _ => .unexpected_bind) fun _ => .pure hname) fun hexact hstop => ?_
  -- neither stream has a token there at which a header could not end
  obtain ⟨hcloser, hcloser'⟩ := hcloser.resolve_left (Bool.not_eq_true _ ▸ hexact)
  have hends : ∀ {kind : TokenKind}, kind.isBoundary = true → kind.isCloser = false →
      ¬(!(kind.isSeparator || kind == .endOfFile)) = true := by
    intro kind h h'
    rw [kind.isSeparator_or h h']
    exact Bool.noConfusion
  exact .ite_iff (iff_of_false (hstop ▸ hends kind_stop hcloser) (hends hclosed.kind_stop hcloser'))
    (fun hnot => absurd hnot (hstop ▸ hends kind_stop hcloser)) fun _ => .pure hname

theorem agrees_optionalHeader (h : set.Reached .initial false [] state) (hbase : P.base = 0)
    (hlift : P.lift = 0) (hfinal : P.final = true) :
    P.Agrees never optionalHeader optionalHeader state := by
  have hle : P.base ≤ state.position := hbase ▸ Nat.zero_le _
  refine .step (.isAt (Or.inl rfl)) (.isAt (.ite (fun hkeyword => ?_) fun _ => .pure rfl))
  have hkind := beq_iff_eq.1 hkeyword
  have hheader := proceeds_moduleHeader h.lt hkind
  refine .bind (.recover (agrees_moduleHeader h.lt hkind hle (closed_of_final hfinal) (Or.inl (P.ends hfinal).1)) hheader (Or.inl hfinal))
    ((Reached.refl h.lt).recover hheader (fun name middle hmiddle => ?_)
      fun middle hwithin _ _ => ?_)
  · exact .ite (fun hnone => nomatch hnone) fun _ => .pure rfl
  · refine .ite (fun _ => ?_) fun hsome => absurd rfl hsome
    have hmiddle := h.within.trans hwithin
    exact .step (.synchronize isPart_source hmiddle rfl (by rw [hlift])
      (surrounds_of_base_le (Nat.le_of_eq hbase)) (Or.inl hfinal)) (runs_synchronize isPart_source hmiddle fun _ _ _ _ _ _ => .pure rfl)

/-! ### Modules -/

theorem agrees_declarationsOnly {waived : List Statement → ParserState → Prop}
    {statements : List Statement} :
    P.Agrees waived (declarationsOnly statements)
      (declarationsOnly (P.relocation.move statements)) state := by
  refine .filterM fun statement s => ?_
  dsimp only [Relocation.move, Relocatable.relocate]
  cases statement with
  | item item =>
    cases item <;> simp only [Statement.relocate, Item.relocate]
    · exact .pure rfl
    · exact .bind_always .reportError fun _ _ => .pure rfl
    · exact .bind_always .reportError fun _ _ => .pure rfl
  | pending => exact .pure rfl

/-- The declarations made of items that are moved are those that are made of them, moved. -/
theorem agrees_finishDeclarations {waived : List Declaration → ParserState → Prop}
    {groups : List (List Statement)} :
    P.Agrees waived (finishDeclarations groups) (finishDeclarations (P.relocation.move groups))
      state := by
  unfold finishDeclarations
  rw [Relocation.move_flatten]
  refine .bind_always agrees_declarationsOnly fun statements s₁ => ?_
  rw [Statement.relocate_group]
  refine .bind_always (.forM fun diagnostic s => .report) fun _ s₂ => .pure ?_
  exact (Relocation.move_filterMap (fun item => by cases item <;> simp [Item.declaration?]) _).symm

/-- An item of a module, of which nothing may be claimed if it is a conditional without its last
branch. -/
theorem agrees_moduleItem (hwarns : set.Warns) (hdeep : set.allows .tooDeep)
    (hloud : Loud true state) (hguarded : P.Guarded state.position)
    (hlt : state.position < set.stream.size) :
    P.Agrees (fun answer final => answer.any Statement.lacksElse = true ∧
      P.Uncertain final.position) moduleItem moduleItem state :=
  agrees_boundNesting (agrees_produce_statement hwarns hdeep nestingBudget hloud hguarded hlt)

theorem mirrorsInside_moduleItem (hwarns : set.Warns) (hdeep : set.allows .tooDeep) :
    P.MirrorsInside true moduleItem := fun state hlt hloud hsheltered =>
  agrees_boundNesting
    ((nestsAlike_ofRules hwarns hdeep nestingBudget).statement state hlt hloud hsheltered)

/-- Reading a module on two streams that are the same throughout. -/
theorem agrees_moduleSource (hwarns : set.Warns) (hdeep : set.allows .tooDeep) (hbase : P.base = 0)
    (hlift : P.lift = 0) (hfinal : P.final = true) :
    P.Agrees never moduleSource moduleSource .initial := by
  have h : set.Reached .initial false [] .initial := .refl set.stream.size_pos
  have hsheltered : ∀ {position : Nat}, P.Sheltered position := Or.inl hfinal
  rw [moduleSource_eq]
  refine .step (.current hsheltered.shown) (.current ?_)
  refine .step (.skipSeparators hsheltered) (h.skipSeparators fun s₁ h₁ => ?_)
  refine .bind (agrees_optionalHeader h₁ hbase hlift hfinal)
    (h₁.optionalHeader fun name s₂ h₂ => ?_)
  have hloud : Loud true s₂ := fun _ => h₂.follows.muted_eq
  refine .bind_always (.items h₂.lt h₂.opens_source (obeys_moduleItem hwarns hdeep)
    (mirrorsInside_moduleItem hwarns hdeep) hloud (hbase ▸ Nat.zero_le _) hsheltered)
    fun groups s₃ => ?_
  refine .bind_always agrees_finishDeclarations fun declarations s₄ => ?_
  refine .bind_always (.current hsheltered.shown) fun token s₅ => .pure ?_
  have hname : P.relocation.move name = name := by simp
  rw [hname]
  rfl

end Parallel

end SableFrontend
