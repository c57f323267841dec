import SableFrontend.Proofs.Parallel.TopLevel
import SableFrontend.Proofs.Placement.Declaration

/-!
Modules are made up of what is read for them. Between the header and the end of the file there are
statements and separators only, and if nothing is reported, all statements are declarations and are
kept: so the declarations leave no token out (`Setting.Placed`).
-/

namespace SableFrontend

/-! ### Declarations among statements -/

theorem trees_map_declaration (declarations : List Declaration) :
    trees (declarations.map Item.declaration) = trees declarations := by
  rw [trees_eq_map fun _ => rfl, trees_eq_map fun _ => rfl, List.map_map]
  rfl

/-- What may not stand at the top is reported where it stands. -/
theorem Statement.span_of_misplaced? {statement : Statement} {diagnostic : Diagnostic}
    (h : statement.misplaced? = some diagnostic) :
    ∃ tree ∈ trees statement, ∀ label ∈ diagnostic.labels, label.span = tree.span := by
  cases statement with
  | pending => cases h
  | item plain =>
    refine ⟨plain.outline, List.mem_singleton_self _, fun label hmem => ?_⟩
    cases plain with
    | declaration => cases h
    | _ =>
      cases h
      rw [List.mem_singleton.1 hmem]
      rfl

namespace TokenStream

variable {stream : TokenStream} {low least middle high : Nat} {statements : List Statement}
  {quiet : Prop}

theorem Lined.mergeDefinitions (h : stream.Lined low least statements high) :
    stream.Lined low least
      (mergeDefinitions Statement.definition? Statement.ofDefinition statements) high := by
  cases statements with
  | nil => exact h
  | cons statement rest =>
    rw [mergeDefinitions_cons]
    exact h.mergeInto

/-- Separators may follow. -/
theorem Lined.stretch (h : stream.Lined low least statements middle) (hmiddle : least ≤ middle)
    (hle : middle ≤ high) (hgap : stream.Apart false middle high) :
    stream.Lined low least statements high :=
  List.append_nil statements ▸ h.append (.none hle hgap) hmiddle

/-- In silence, declarations that are read one by one make up everything between two positions. -/
theorem Rounds.lined {groups : List (List Statement)}
    (h : stream.Rounds false stream.ReadsStatements quiet low high groups) (hquiet : quiet)
    (hall : ∀ statement ∈ groups.reverse.flatten, statement.misplaced? = Option.none) :
    stream.Lined low low groups.reverse.flatten high := by
  induction h with
  | none hle hgap => exact .none hle (hgap hquiet)
  | @more first last high heard group before hbefore hlt hreads hheard hle hgap ih =>
    rw [List.reverse_cons, List.flatten_append, List.flatten_singleton] at hall ⊢
    obtain ⟨hall, hgroup⟩ := List.forall_mem_append.1 hall
    rcases hreads.2 with ⟨value, span, rfl⟩ | hlined
    · cases hgroup _ (List.mem_singleton_self _)
    · exact (ih hall).append (hlined.stretch (Nat.le_of_lt hlt) hle (hgap hquiet)) hbefore.le

/-! ### Finishing -/

/-- The declarations of a source are a row, and what is reported of them points at trees. -/
theorem Row.declarations {first : Nat}
    (h : stream.Row quiet first first (trees statements) high) :
    stream.Row quiet first first (trees (Statement.declarations statements)) high ∧
      ∀ diagnostic ∈ Statement.reportsAtTop statements, ∀ label ∈ diagnostic.labels,
        stream.Marks label.span := by
  have hplaced : stream.Row quiet first first (trees (Statement.placed statements)) high :=
    h.sublist (trees_sublist List.filter_sublist)
  obtain ⟨hrow, hmarks⟩ := hplaced.group
  rw [Statement.group_placed, trees_map_declaration] at hrow
  refine ⟨hrow, fun diagnostic hmem label hlabel => ?_⟩
  rcases List.mem_append.1 hmem with hmem | hmem
  · obtain ⟨statement, hstatement, hmisplaced⟩ := List.mem_filterMap.1 hmem
    obtain ⟨tree, htree, hspan⟩ := Statement.span_of_misplaced? hmisplaced
    rw [hspan label hlabel]
    exact (h.sits (Nat.le_refl _) tree (mem_trees.2 ⟨statement, hstatement, htree⟩)).marks
  · exact hmarks diagnostic hmem label hlabel

theorem Lined.declarations (h : stream.Lined low low statements high)
    (hnone : Statement.reportsAtTop statements = []) :
    stream.Lined low low ((Statement.declarations statements).map Statement.ofDeclaration) high := by
  obtain ⟨hplaced, hgroup⟩ := List.append_eq_nil_iff.1 hnone
  have hall : Statement.placed statements = statements := by
    refine List.filter_eq_self.2 fun statement hmem => ?_
    simpa using List.filterMap_eq_nil_iff.1 hplaced statement hmem
  have hsettled := h.mergeDefinitions.settleAll (by rwa [hall] at hgroup)
  have hitems := Statement.group_placed statements
  rw [hall] at hitems
  rw [← Statement.group, hitems, List.map_map] at hsettled
  exact hsettled

/-! ### Headers -/

variable (stream)

/-- A token of the header: the keyword that only separators precede, or one of the names and dots
behind it. -/
def InHeader (position : Nat) : Prop :=
  ∃ first, stream.Apart false 0 first ∧ stream.kind first = .keyword .moduleWord ∧
    first ≤ position ∧ ∀ middle, first < middle → middle ≤ position →
      stream.kind middle = .typeIdentifier ∨ stream.kind middle = .dot

/-- Up to a position there are separators and the header only. -/
def Headed (high : Nat) : Prop :=
  ∀ position, position < high →
    (stream.kind position).separates false = true ∨ stream.InHeader position

end TokenStream

namespace Setting

open SableFrontend.Parser

variable {set : Setting} {α : Type} {start state : ParserState} {footing : Footing}
  {before : List Outline}

/-! ### The limit of nesting -/

/-- Nesting that is too deep is a reported failure. -/
theorem runs_boundNesting {parser : Parser α} {returns : α → ParserState → Prop}
    (hparser : set.Runs parser state returns (set.Halts state)) :
    set.Runs (boundNesting parser) state returns (set.Halts state) := by
  refine .tryCatch (hparser.mono (fun _ _ h => h) fun abort final hhalts => ?_)
  cases abort with
  | tooDeep =>
    refine .bind (.bind (.current ?_))
    refine hhalts.passed.reportError hhalts.passed.marks fun last hlast _ hloud => ?_
    exact .bind (.note (Passed.throw (hlast.noted (.cutShort :: last.history)) fun _ => hloud))
  | failed => exact .throw hhalts
  | overlongInteger digits => exact .throw hhalts
  | endless => exact .throw hhalts

/-! ### Headers -/

/-- Behind its keyword a header has names and dots. -/
theorem runs_moduleHeader (hlt : state.position < set.stream.size)
    (hkind : set.stream.kind state.position = .keyword .moduleWord) :
    set.Runs moduleHeader state
      (fun _ final => set.Passed state .solid [] final ∧
        ∀ position, state.position < position → position < final.position →
          set.stream.kind position = .typeIdentifier ∨ set.stream.kind position = .dot)
      (set.Halts state) := by
  -- one more token of the header
  have hnext : ∀ {s s' : ParserState},
      (∀ position, state.position < position → position < s.position →
        set.stream.kind position = .typeIdentifier ∨ set.stream.kind position = .dot) →
      (set.stream.kind s.position = .typeIdentifier ∨ set.stream.kind s.position = .dot) →
      s' = { s with position := s.position + 1 } →
      ∀ position, state.position < position → position < s'.position →
        set.stream.kind position = .typeIdentifier ∨ set.stream.kind position = .dot := by
    rintro s _ hnames hname rfl position hlow hhigh
    rcases Nat.eq_or_lt_of_le (Nat.le_of_lt_succ hhigh) with rfl | hlt
    · exact hname
    · exact hnames position hlow hlt
  refine .bind ((Passed.refl hlt).advance hkind rfl fun s₁ h₁ hs₁ => ?_)
  refine .bind (h₁.expect rfl fun s₂ hname h₂ hs₂ => ?_)
  have hnone : ∀ position, state.position < position → position < s₁.position →
      set.stream.kind position = .typeIdentifier ∨ set.stream.kind position = .dot := by
    intro position hlow hhigh
    rw [hs₁] at hhigh
    exact absurd hhigh (Nat.not_lt_of_le hlow)
  refine .bind (.bind (Runs.repeatWhile
    (fun _ s => set.Passed state .solid [] s ∧
      ∀ position, state.position < position → position < s.position →
        set.stream.kind position = .typeIdentifier ∨ set.stream.kind position = .dot)
    (fun answers s ⟨hs, hnames⟩ => .isAt ⟨fun hdot => ?_, fun _ => ?_⟩)
    (fun _ s hs => ⟨hs.1.forget, Abort.noConfusion⟩) ⟨h₂, hnext hnone (Or.inl hname) hs₂⟩))
  · have hdot := beq_iff_eq.1 hdot
    refine .bind (.bind (hs.advance hdot rfl fun s₃ h₃ hs₃ => ?_))
    exact .bind (h₃.expect rfl fun s₄ hmore h₄ hs₄ =>
      .pure (.pure ⟨h₄, hnext (hnext hnames (Or.inr hdot) hs₃) (Or.inl hmore) hs₄⟩))
  · exact .pure (.bind (.current (.ite (fun _ => .bind hs.unexpected) fun _ => .pure ⟨hs, hnames⟩)))

theorem Passed.optionalHeader (h : set.Passed start .loose [] state)
    (hgap : set.stream.Apart false 0 state.position)
    {returns : Option String → ParserState → Prop}
    (next : ∀ name final, set.Passed start .loose [] final →
      (final.Quiet → set.stream.Headed final.position) → returns name final) :
    set.Runs optionalHeader state returns (set.Halts start) := by
  have hfirst : ∀ position, position < state.position →
      (set.stream.kind position).separates false = true :=
    fun position hlt => hgap position (Nat.zero_le _) hlt
  refine .bind (.isAt (.ite (fun hkeyword => ?_) fun _ => .pure (next none state h fun _ =>
    fun position hlt => Or.inl (hfirst position hlt))))
  have hkind := beq_iff_eq.1 hkeyword
  refine .bind (h.recover (runs_moduleHeader h.lt hkind) (fun name final ⟨hfinal, hnames⟩ => ?_)
    fun final hfinal hloud => ?_)
  · refine .ite (fun hnone => nomatch hnone) fun _ =>
      .pure (next _ final (h.onward hfinal).loosen fun _ position hlt => ?_)
    by_cases hbefore : position < state.position
    · exact Or.inl (hfirst position hbefore)
    · refine Or.inr ⟨state.position, hgap, hkind, Nat.le_of_not_lt hbefore, fun middle hlt' hle => ?_⟩
      exact hnames middle hlt' (Nat.lt_of_le_of_lt hle hlt)
  · refine .ite (fun _ => ?_) fun hsome => absurd rfl hsome
    refine .bind ((h.further hfinal).synchronize fun last hlast _ hstill => .pure ?_)
    exact next none last hlast fun hquiet => absurd hquiet (hstill hloud)

/-! ### Modules -/

theorem reads_moduleItem : set.ReadsItem set.stream.ReadsStatements moduleItem :=
  fun s hs => runs_boundNesting (reads_produce nestingBudget s hs)


/-- Reports one after the other. -/
theorem tells_reportAll {diagnostics : List Diagnostic}
    (hmarks : ∀ diagnostic ∈ diagnostics, ∀ label ∈ diagnostic.labels,
      set.stream.Marks label.span) :
    set.Tells state (state.reportAll diagnostics) ∧
      ((state.reportAll diagnostics).Quiet → diagnostics = []) := by
  have hruns : set.Runs (diagnostics.forM Parser.report) state
      (fun _ final => set.Tells state final ∧ (final.Quiet → diagnostics = [])) fun _ _ => False :=
    .reportEach hmarks fun _ htells hnone => ⟨htells, hnone⟩
  exact hruns.returns (reportAll_apply diagnostics)

theorem Runs.finishDeclarations {groups : List (List Statement)}
    {returns : List Declaration → ParserState → Prop} {stops : Abort → ParserState → Prop}
    (h : returns (Statement.declarations groups.flatten)
      (state.reportAll (Statement.reportsAtTop groups.flatten))) :
    set.Runs (finishDeclarations groups) state returns stops := by
  unfold Setting.Runs
  rw [finishDeclarations_apply]
  exact h

/-- What is known of a module when it has been read, up to the end of the file. -/
structure Placed (set : Setting) (source : Module) (state : ParserState) : Prop where
  lt : state.position < set.stream.size
  kind_eq : set.stream.kind state.position = .endOfFile
  span_eq : source.span = set.stream.reach 0 state.position
  sits : ∀ tree ∈ trees source.declarations, set.stream.Sits state.Quiet 0 state.position tree
  marked : set.Marked state.log
  unmerged : Unmerged (trees source.declarations)
  lined : state.Quiet → ∃ first, set.stream.Headed first ∧ set.stream.Lined first first
    (source.declarations.map Statement.ofDeclaration) state.position

theorem places_moduleSource : set.Runs moduleSource .initial set.Placed (set.Halts .initial) := by
  have h : set.Passed .initial .firm [] .initial := .refl set.stream.size_pos
  rw [moduleSource_eq]
  refine .bind (.current (.bind (h.skipSeparators fun s₁ h₁ hposition => ?_)))
  refine .bind (h₁.optionalHeader ?_ fun name s₂ h₂ hheaded => ?_)
  · rw [hposition]
    exact TokenStream.apart_skipWhile
  refine .bind (h₂.locally ((Passed.refl h₂.lt).items reads_moduleItem
    fun groups s₃ hitems hrounds hend => ?_))
  have h₃ := h₂.further hitems
  have hrow : set.stream.Row s₃.Quiet s₂.position s₂.position (trees groups.flatten) s₃.position := by
    have hrow := hrounds.row fun hreads => hreads.1
    rwa [List.reverse_reverse, ← trees_flatten] at hrow
  obtain ⟨hdeclarations, hmarks⟩ := hrow.declarations
  obtain ⟨htells, hsilent⟩ : set.Tells s₃ _ ∧ _ := tells_reportAll hmarks
  have h₄ := h₃.told htells
  refine .bind (.finishDeclarations (.bind (.current (.pure ?_))))
  exact {
    lt := h₄.lt
    kind_eq := hend.elim id id
    span_eq := rfl
    sits := fun tree hmem =>
      (hdeclarations.sits (Nat.zero_le _) tree hmem).mono (Nat.le_refl _) (Nat.le_refl _) htells.quiet
    marked := h₄.marked nofun
    unmerged := by
      have hmerged := Item.unmerged (Statement.merged_group (Statement.placed groups.flatten))
      rwa [Statement.group_placed, trees_map_declaration] at hmerged
    lined := fun hquiet => by
      have hnone := hsilent hquiet
      have hquiet₃ := htells.quiet hquiet
      have hall := List.filterMap_eq_nil_iff.1 (List.append_eq_nil_iff.1 hnone).1
      rw [← List.reverse_reverse groups] at hall
      have hlined := hrounds.lined hquiet₃ hall
      rw [List.reverse_reverse] at hlined
      exact ⟨s₂.position, hheaded (hitems.quiet hquiet₃), hlined.declarations hnone⟩ }

end Setting

end SableFrontend
