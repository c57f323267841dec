import SableFrontend.Proofs.Grammar.Reading
import SableFrontend.Proofs.Parallel.Prefix
import SableFrontend.Proofs.Tree.Grouping
import SableFrontend.Proofs.Tree.Structure

/-!
What the items of a module become once all have been read, as a function of their statements
(`Parser.finishDeclarations_apply`), and what becomes of two lists of statements one behind the
other (`Statement.declarations_append`).
-/

namespace SableFrontend

open TokenStream SableFrontend.Parser Setting

/-! ### Loops with more answers -/

section

variable {α : Type} {item : Parser α} {within : Enclosure} {what : String} {answers more : List α}
  {stream : TokenStream} {state : ParserState}

/-- Answers that are there already stay behind those that are added. -/
theorem Parser.attemptItem_append (item : Parser α) (within : Enclosure) (what : String)
    (answers more : List α) :
    attemptItem item within what (answers ++ more) =
      (fun result : Bool × List α => (result.1, result.2 ++ more)) <$>
        attemptItem item within what answers := by
  unfold attemptItem
  rw [map_bind]
  refine bind_congr fun value? => ?_
  cases value? with
  | none => simp
  | some value => simp

theorem Parser.nextItem_append (item : Parser α) (within : Enclosure) (what : String)
    (answers more : List α) :
    nextItem item within what (answers ++ more) =
      (· ++ more) <$> nextItem item within what answers := by
  have hsettle : settle within (attemptItem item within what (answers ++ more)) =
      (· ++ more) <$> settle within (attemptItem item within what answers) := by
    rw [attemptItem_append]
    unfold settle
    rw [bind_map_left, map_bind]
    refine bind_congr fun ⟨ended, answer⟩ => ?_
    cases ended <;> simp
  unfold nextItem
  rw [readItem_eq, readItem_eq, hsettle]
  simp [map_bind]

theorem Parser.iterate_append (item : Parser α) (within : Enclosure) (what : String)
    (count : Nat) (answers more : List α) :
    repeatWhile.iterate (startsItem within) (nextItem item within what) count (answers ++ more) =
      (· ++ more) <$>
        repeatWhile.iterate (startsItem within) (nextItem item within what) count answers := by
  induction count generalizing answers with
  | zero => rfl
  | succ count ih =>
    rw [repeatWhile.iterate, repeatWhile.iterate, map_bind]
    refine bind_congr fun starts => ?_
    cases starts with
    | false => simp
    | true =>
      simp only [if_true]
      rw [nextItem_append, map_bind]
      simp [ih]

end

/-! ### Finishing -/

/-- What is reported of a statement that may not stand at the top of a source. -/
def Statement.misplaced? : Statement → Option Diagnostic
  | .item (.bind _ _ span) | .item (.expression _ span) =>
    some (.errorAt .unexpectedToken "expressions are not allowed at module level" span
      ["wrap the expression in a definition such as `main = ...`"] [])
  | _ => none

/-- The statements that may stand at the top of a source. -/
def Statement.placed (statements : List Statement) : List Statement :=
  statements.filter (·.misplaced?.isNone)

/-- What is reported of the statements of a source once all have been read. -/
def Statement.reportsAtTop (statements : List Statement) : List Diagnostic :=
  statements.filterMap misplaced? ++ (group (placed statements)).2

/-- The declarations that statements become. -/
def Statement.declarations (statements : List Statement) : List Declaration :=
  (group (placed statements)).1.filterMap Item.declaration?

section

variable {α : Type} {stream : TokenStream} {state : ParserState}

/-- A filter that reports what it leaves out. -/
theorem Parser.filterM_apply {action : α → Parser Bool} {leftOut? : α → Option Diagnostic}
    (haction : ∀ element state, action element stream state =
      (.ok (leftOut? element).isNone, state.reportAll (leftOut? element).toList))
    (list : List α) :
    list.filterM action stream state =
      (.ok (list.filter fun element => (leftOut? element).isNone),
        state.reportAll (list.filterMap leftOut?)) := by
  -- what is kept stands in reverse order while the filter runs
  have hloop : ∀ (kept : List α) state, List.filterAuxM action list kept stream state =
      (.ok ((list.filter fun element => (leftOut? element).isNone).reverse ++ kept),
        state.reportAll (list.filterMap leftOut?)) := by
    induction list with
    | nil => exact fun kept state => rfl
    | cons first rest ih =>
      intro kept state
      rw [List.filterAuxM, bind_apply, haction]
      dsimp only
      rw [ih]
      cases hfirst : leftOut? first with
      | none => simp [hfirst]
      | some diagnostic =>
        rw [List.filterMap_cons_some hfirst, List.filter_cons_of_neg (by simp [hfirst])]
        rfl
  unfold List.filterM
  rw [bind_apply, hloop]
  simp only [List.append_nil]
  show (Except.ok _, _) = _
  rw [List.reverse_reverse]

theorem Parser.declarationsOnly_apply (statements : List Statement) :
    declarationsOnly statements stream state =
      (.ok (Statement.placed statements),
        state.reportAll (statements.filterMap Statement.misplaced?)) := by
  refine filterM_apply (fun statement state => ?_) statements
  cases statement with
  | pending => rfl
  | item plain => cases plain <;> rfl

/-- What the declarations of a source are, and what is reported of them, is settled by the statements
that were read. -/
theorem Parser.finishDeclarations_apply (groups : List (List Statement)) :
    finishDeclarations groups stream state =
      (.ok (Statement.declarations groups.flatten),
        state.reportAll (Statement.reportsAtTop groups.flatten)) := by
  unfold finishDeclarations
  rw [bind_apply, declarationsOnly_apply]
  dsimp only
  rw [bind_apply, reportAll_apply, Statement.reportsAtTop, ParserState.reportAll_append]
  rfl

end

/-- The rest of a module, in terms of the loop over its items. -/
theorem Parser.moduleRest_apply (within : Enclosure) (count : Nat) (answers : List (List Statement))
    (stream : TokenStream) (state : ParserState) :
    moduleRest within count answers stream state =
      match repeatWhile.iterate (startsItem within) (nextItem moduleItem within "declaration") count
        answers stream state with
      | (.ok reversed, middle) =>
        let statements := reversed.reverse.flatten
        (.ok (Statement.declarations statements),
          ParserState.reportAll
            { middle with history := .finished within middle.position :: middle.history }
            (Statement.reportsAtTop statements))
      | (.error abort, middle) => (.error abort, middle) := by
  unfold moduleRest
  rw [bind_apply]
  cases repeatWhile.iterate (startsItem within) (nextItem moduleItem within "declaration") count
    answers stream state with
  | mk result middle =>
    cases result with
    | error abort => rfl
    | ok reversed => exact finishDeclarations_apply reversed.reverse

/-! ### Statements at the top in two parts -/

/-- The definition that a declaration is, if it is one. -/
def Declaration.definition? : Declaration → Option TermDef
  | .definition found => some found
  | _ => none

/-- Declarations of which neighbouring definitions of one name are one. -/
def Declaration.mergeClauses (declarations : List Declaration) : List Declaration :=
  mergeDefinitions definition? .definition declarations

theorem Declaration.mergeClauses_embed (declarations : List Declaration) :
    mergeDefinitions Item.definition? Item.ofDefinition (declarations.map .declaration) =
      (mergeClauses declarations).map .declaration := by
  have hdefinition : ∀ declaration : Declaration,
      (Item.declaration declaration).definition? = declaration.definition? := fun declaration => by
    cases declaration <;> rfl
  have hof : ∀ found : TermDef, Item.ofDefinition found = .declaration (.definition found) :=
    fun _ => rfl
  exact mergeDefinitions_embed hdefinition hof declarations

theorem Declaration.mergeClauses_move (r : Relocation) (declarations : List Declaration) :
    mergeClauses (r.move declarations) = r.move (mergeClauses declarations) := by
  have hdefinition : ∀ declaration : Declaration, (declaration.relocate r).definition? =
      declaration.definition?.map (TermDef.relocate r) := fun declaration => by
    cases declaration <;> simp [definition?]
  exact mergeDefinitions_map hdefinition (fun definition => by simp) declarations

namespace Statement

variable {statement : Statement} {statements before : List Statement}

/-- A conditional without a last branch may not stand at the top. -/
theorem lacksElse_of_misplaced? (h : statement.misplaced? = none) : statement.lacksElse = false := by
  cases statement with
  | pending => rfl
  | item plain => cases plain <;> first | rfl | cases h

theorem exists_declaration_of_settle {target : Option String} {item : Item}
    (h : statement.misplaced? = none) (hitem : (statement.settle target).1 = some item) :
    ∃ declaration, item = .declaration declaration := by
  cases statement with
  | pending =>
    cases target <;> cases hitem
    exact ⟨_, rfl⟩
  | item plain =>
    cases plain with
    | declaration declaration =>
      cases declaration with
      | ascription ascription =>
        obtain ⟨name, typeExpr, attachment, span⟩ := ascription
        cases attachment <;> cases target <;> cases hitem <;> exact ⟨_, rfl⟩
      | _ =>
        cases hitem
        exact ⟨_, rfl⟩
    | _ => cases h

/-- Statements that may stand at the top become declarations. -/
theorem exists_declaration_of_group (h : ∀ statement ∈ statements, statement.misplaced? = none) :
    ∀ item ∈ (group statements).1, ∃ declaration, item = .declaration declaration := by
  have hmerged : ∀ statement ∈ mergeDefinitions definition? ofDefinition statements,
      statement.misplaced? = none := forall_mem_mergeDefinitions (fun _ => rfl) h
  have hsettled : ∀ statements : List Statement,
      (∀ statement ∈ statements, statement.misplaced? = none) →
      ∀ item ∈ (settleAll statements).1, ∃ declaration, item = .declaration declaration := by
    intro statements
    induction statements with
    | nil => exact fun _ _ hmem => nomatch hmem
    | cons statement rest ih =>
      intro h item hmem
      obtain ⟨hfirst, hrest⟩ := List.forall_mem_cons.1 h
      rw [settleAll_cons] at hmem
      rcases List.mem_append.1 hmem with hmem | hmem
      · exact exists_declaration_of_settle hfirst (Option.mem_toList.1 hmem)
      · exact ih hrest item hmem
  exact hsettled _ hmerged

theorem group_placed (statements : List Statement) :
    (group (placed statements)).1 = (declarations statements).map .declaration := by
  have hitems : ∀ items : List Item, (∀ item ∈ items, ∃ declaration, item = .declaration declaration) →
      items = (items.filterMap Item.declaration?).map .declaration := by
    intro items
    induction items with
    | nil => exact fun _ => rfl
    | cons item rest ih =>
      intro h
      obtain ⟨⟨declaration, rfl⟩, hrest⟩ := List.forall_mem_cons.1 h
      exact congrArg (_ :: ·) (ih hrest)
  refine hitems _ (exists_declaration_of_group fun statement hmem => ?_)
  exact Option.isNone_iff_eq_none.1 (List.mem_filter.1 hmem).2

/-- Two lists of statements one behind the other, of which nothing is reported of the first. -/
theorem declarations_append (h : reportsAtTop before = []) (after : List Statement) :
    declarations (before ++ after) =
        Declaration.mergeClauses (declarations before ++ declarations after) ∧
      reportsAtTop (before ++ after) = reportsAtTop after := by
  obtain ⟨hmisplaced, hgroup⟩ := List.append_eq_nil_iff.1 h
  have happend := group_append hgroup (placed after)
  rw [group_placed, group_placed, ← List.map_append, Declaration.mergeClauses_embed] at happend
  have hplaced : placed (before ++ after) = placed before ++ placed after := List.filter_append ..
  refine ⟨?_, ?_⟩
  · rw [declarations, hplaced, happend, List.filterMap_map]
    exact List.filterMap_some
  · rw [reportsAtTop, reportsAtTop, List.filterMap_append, hmisplaced, hplaced, happend]
    rfl

theorem misplaced?_move (r : Relocation) (statement : Statement) :
    (statement.relocate r).misplaced? = r.move statement.misplaced? := by
  cases statement with
  | pending => simp [misplaced?]
  | item plain => cases plain <;> simp [misplaced?]

theorem placed_move (r : Relocation) (statements : List Statement) :
    placed (r.move statements) = r.move (placed statements) :=
  Relocation.move_filter (fun statement => by
    rw [show r.move statement = statement.relocate r from rfl, misplaced?_move]
    cases statement.misplaced? <;> rfl) statements

theorem reportsAtTop_move (r : Relocation) (statements : List Statement) :
    reportsAtTop (r.move statements) = r.move (reportsAtTop statements) := by
  rw [reportsAtTop, reportsAtTop, placed_move, relocate_group,
    Relocation.move_filterMap (misplaced?_move r)]
  exact List.map_append.symm

theorem declarations_move (r : Relocation) (statements : List Statement) :
    declarations (r.move statements) = r.move (declarations statements) := by
  rw [declarations, declarations, placed_move, relocate_group]
  exact Relocation.move_filterMap (fun item => by cases item <;> simp [Item.declaration?]) _

end Statement

end SableFrontend
