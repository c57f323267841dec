import SableFrontend.Proofs.Branches.Block
import SableFrontend.Proofs.Grammar.Entry
import SableFrontend.Proofs.Parallel.Prefix
import SableFrontend.Proofs.Parallel.Spelling

/-!
Another spelling of an annotated definition. Where two streams differ in how one definition is spelled
(`AnnotatedDefinition.Exchanged`), the loops over the items around it do the same on both, and read the
definition as an annotation and a definition without it (`Exchanged.loops`). So the modules are the same,
up to places, and the same is reported (`Exchanged.moduleSource`); and blocks whose statements are read
alike end alike (`Parser.finishBlock_respelled`).
-/

namespace SableFrontend

open TokenStream SableFrontend.Parser Setting

/-! ### Items that are statements -/

/-- An item that is a statement, which may nest one level deeper than `budget`. -/
structure Parser.ReadsStatements (budget : Nat) (item : Parser (List Statement)) : Prop where
  obeys : ∀ {set : Setting}, set.Warns → set.allows .tooDeep → set.Obeys true item
  leaves : ∀ {set : Setting} {log : Log} {start : Nat} {statements : List Statement} {stop : Nat}
    {later : Log}, set.Leaves log (produce (budget + 1) .statement) start statements stop later →
      set.Leaves log item start statements stop later
  agrees : ∀ {set : Setting} (P : Parallel set) {state : ParserState}, set.Warns →
    set.allows .tooDeep → Parallel.Loud true state → P.Guarded state.position →
    state.position < set.stream.size →
    P.Agrees (fun answer final => answer.any Statement.lacksElse = true ∧
      P.Uncertain final.position) item item state
  mirrorsInside : ∀ {set : Setting} (P : Parallel set), set.Warns → set.allows .tooDeep →
    P.MirrorsInside true item

theorem Parser.readsStatements_statement (budget : Nat) :
    ReadsStatements budget (produce (budget + 1) .statement) where
  obeys hwarns hdeep := obeys_produce hwarns hdeep (budget + 1) .statement
  leaves h := h
  agrees P _ hwarns hdeep hloud hguarded hlt :=
    P.agrees_produce_statement hwarns hdeep (budget + 1) hloud hguarded hlt
  mirrorsInside P hwarns hdeep := (P.nestsAlike_ofRules hwarns hdeep (budget + 1)).statement

theorem Parser.readsStatements_moduleItem {budget : Nat} (h : budget + 1 = nestingBudget) :
    ReadsStatements budget moduleItem where
  obeys := obeys_moduleItem
  leaves hread history := by
    rw [h] at hread
    exact .tryCatch ((hread history).mono (fun _ _ h => h) fun _ _ => False.elim)
  agrees P _ hwarns hdeep hloud hguarded hlt := P.agrees_moduleItem hwarns hdeep hloud hguarded hlt
  mirrorsInside P := P.mirrorsInside_moduleItem

/-- What closes an enclosure is no plain token. -/
theorem Setting.IsPart.closer_isPlain {set : Setting} {within : Enclosure} (hpart : set.IsPart within) :
    within.closer.isPlain = false := by
  have hopens := hpart.opens
  generalize within.closer = closer at hopens
  cases hopens <;> rfl

/-! ### Loops over the items around a definition -/

/-- Two runs of a loop over items give the same statements, but for their places and for how one
annotation is spelled, and have reported the same. -/
structure Parser.RunsAlike (run run' : Except Abort (List (List Statement)) × ParserState) : Prop where
  outcome : match run.1, run'.1 with
    | .ok answers, .ok answers' => Statement.Respelled answers.reverse.flatten answers'.reverse.flatten
    | .error abort, .error abort' => abort = abort'
    | _, _ => False
  reports : Relocation.forget.move run.2.log.diagnostics.toList =
    Relocation.forget.move run'.2.log.diagnostics.toList
  muted_eq : run.2.log.muted = 0
  muted_eq' : run'.2.log.muted = 0

/-- Two streams have the same annotated definition at one place, each in a spelling of its own. In front
of it they have the same tokens, and behind it the same tokens follow up to what closes all. -/
structure AnnotatedDefinition.Exchanged {budget : Nat} (parts : AnnotatedDefinition budget)
    (set : Setting) (other : TokenStream) (relocation : Relocation) (start stop stop' length : Nat) :
    Prop where
  spelled : parts.Spelled set.stream start stop
  spelled_other : parts.Spelled other start stop'
  token_eq : ∀ position < start, other.token position = set.stream.token position
  recurs : set.Recurs other relocation stop stop' length
  ends : Recurs.Ends set other relocation stop stop' length true

namespace AnnotatedDefinition

variable {set set' : Setting} {budget : Nat} {parts : AnnotatedDefinition budget}
  {relocation : Relocation} {start stop stop' length : Nat}

/-- The streams are the same up to where the definition begins. -/
theorem Exchanged.shares (h : parts.Exchanged set set'.stream relocation start stop stop' length)
    {within : Enclosure} {state : ParserState} (hpart : set.IsPart within)
    (hbetween : set.Between within state) (hposition : state.position = start) :
    set.Shares set'.stream within start where
  stays := hposition ▸ hbetween.stays
  opened_eq := hposition ▸ hbetween.opened_eq
  lt_other := Nat.lt_of_le_of_lt h.spelled_other.level.1.within.le h.spelled_other.level.1.within.lt
  token_eq := h.token_eq
  starts := by
    have hcloser := hpart.closer_isPlain
    rw [Enclosure.endsItem, Bool.or_eq_false_iff]
    refine ⟨beq_eq_false_iff_ne.2 fun heq => ?_, ?_⟩
    · rw [← heq] at hcloser
      rcases h.spelled.kind_eq with hkind | hkind <;> rw [hkind] at hcloser <;> cases hcloser
    · rcases h.spelled.kind_eq with hkind | hkind <;> rw [hkind] <;> cases within.commas <;> rfl
  starts_other := by
    rcases h.spelled_other.kind_eq with hkind | hkind <;> rw [hkind] <;> cases within.commas <;> rfl

/-- What is read up to a definition with its type, of it, and behind it: `later` stands for what would
be read of the rest alone. -/
theorem Spelled.iterate {item : Parser (List Statement)} (hreads : ReadsStatements budget item)
    (hspelled : parts.Spelled set'.stream start stop')
    (hrecurs : set.Recurs set'.stream relocation stop stop' length)
    (hends : Recurs.Ends set set'.stream relocation stop stop' length true)
    {within within' : Enclosure} {what : String} {before : List (List Statement)}
    {first middle : ParserState} (hwarns : set.Warns) (hdeep : set.allows .tooDeep)
    (hpart : set.IsPart within) (hlevel : set.stream.Level within.first stop)
    (hpart' : set'.IsPart within') (halike : within.Alike within')
    (hrounds : Rounds set'.stream item within' what [] first before middle)
    (hposition : middle.position = start) (hmuted : middle.log.muted = 0)
    (hlevel' : set'.stream.Level within'.first start) :
    ∃ groups reports final, parts.Reading (List.flatten groups) ∧ parts.Reports reports ∧
      repeatWhile.iterate (startsItem within') (nextItem item within' what) set'.stream.size []
          set'.stream first =
        ((itemsFrom set.stream item within what stop).1.map fun later =>
          relocation.move later ++ (groups.reverse ++ before), final) ∧
      final.log.diagnostics.toList = middle.log.diagnostics.toList ++ (reports ++
        relocation.move (itemsFrom set.stream item within what stop).2.log.diagnostics.toList) ∧
      final.log.muted = 0 := by
  obtain ⟨hspelledLevel, hboundary⟩ := hspelled.level
  have hstopLevel := hlevel'.trans hspelledLevel
  have hstop : set'.stream.kind stop' = within'.closer ∨
      (set'.stream.kind stop').separates within'.commas = true := by
    rcases TokenKind.eq_of_isBoundary hboundary with hkind | hkind | ⟨bracket, hkind⟩ | hkind
    · exact Or.inr (by rw [hkind]; rfl)
    · exact Or.inr (by rw [hkind]; rfl)
    · exact Or.inl (hpart'.closes hstopLevel.within hstopLevel.opened_eq
        (Or.inr (by rw [hkind]; rfl))).kind_eq
    · exact Or.inl (hpart'.closes hstopLevel.within hstopLevel.opened_eq (Or.inl hkind)).kind_eq
  obtain ⟨groups, reports, behind, hreading, hsame, hrounds', hlog, hbehind⟩ := hspelled.rounds what
    before hreads.leaves hpart'.closer_isPlain hstop hposition hmuted
  obtain ⟨hbehindLog, hbehindMuted⟩ :
      behind.log.diagnostics.toList = middle.log.diagnostics.toList ++ reports ∧
        behind.log.muted = 0 := by
    rw [hlog]
    exact ParserState.reportAll_log hmuted reports
  obtain ⟨taken, htaken, hiterate⟩ := (hrounds.trans hrounds').iterate
  have hsize : behind.position < set'.stream.size := by
    rw [hbehind]
    exact (within_skipWhile (fun _ => TokenKind.isPlain_of_separates) hstopLevel.within.lt).1.lt
  rw [halike.commas_eq] at hbehind
  obtain ⟨final, hrest, hreports, hfinal⟩ := hrecurs.rest what (set'.stream.size - taken)
    hends hpart hlevel.within hlevel.opened_eq (hreads.obeys hwarns hdeep)
    (fun P => hreads.mirrorsInside P hwarns hdeep) halike.closer_eq halike.commas_eq
    (hpart'.level_eq.trans (congrArg List.length hstopLevel.opened_eq.symm)) hbehind (by omega)
    hbehindMuted
  refine ⟨groups, reports, final, hreading, hsame, ?_, ?_, hfinal⟩
  swap
  · rw [hreports, hbehindLog, List.append_assoc]
  rw [show set'.stream.size = taken + (set'.stream.size - taken) by omega, hiterate,
    ← List.nil_append (groups.reverse ++ before), iterate_append, map_apply, hrest]
  cases (itemsFrom set.stream item within what stop).1 <;> rfl

/-- Two readings of one definition are the same, but for their places and for the annotation. -/
theorem Reading.respelled {statements statements' after after' : List Statement}
    (h : parts.Reading statements) (h' : parts.Reading statements') (before : List Statement)
    (hafter : Relocation.forget.move after = Relocation.forget.move after') :
    Statement.Respelled (before ++ (statements ++ after)) (before ++ (statements' ++ after')) := by
  obtain ⟨span, hhead, hname, htype, hdefinition⟩ := h
  obtain ⟨span', hhead', hname', htype', hdefinition'⟩ := h'
  have hsame : (parts.definition span).relocate .forget = (parts.definition span').relocate .forget := by
    simp only [definition, TermDef.relocate, Clause.relocate, List.map_cons, List.map_nil,
      Span.relocate_forget span span']
  refine .of before hhead hhead' ?_ (hname'.trans hname.symm) (htype.trans htype'.symm)
    (hdefinition.trans (hsame.trans hdefinition'.symm)) hafter
  exact (TermDef.relocate_name ..).symm.trans ((congrArg TermDef.name hdefinition).trans
    ((TermDef.relocate_name ..).trans hname.symm))

/-- The loops over the items around the definition run alike. -/
theorem Exchanged.loops {item : Parser (List Statement)} (hreads : ReadsStatements budget item)
    (h : parts.Exchanged set set'.stream relocation start stop stop' length)
    (hwarns : set.Warns) (hdeep : set.allows .tooDeep) (hwarns' : set'.Warns)
    (hdeep' : set'.allows .tooDeep) {within within' : Enclosure} {what : String}
    {before : List (List Statement)} {first middle first' : ParserState}
    (hpart : set.IsPart within) (hpart' : set'.IsPart within') (halike : within.Alike within')
    (hbetween : set.Between within first) (hbetween' : set'.Between within' first')
    (hmuted : first.log.muted = 0) (hplace : first'.position = first.position)
    (hlog : first'.log = first.log)
    (hrounds : Rounds set.stream item within what [] first before middle)
    (hposition : middle.position = start)
    (hfront : first.position = start ∨ set.stream.kind (start - 1) = .semicolon) :
    RunsAlike
      (repeatWhile.iterate (startsItem within) (nextItem item within what) set.stream.size []
        set.stream first)
      (repeatWhile.iterate (startsItem within') (nextItem item within' what) set'.stream.size []
        set'.stream first') := by
  have hitem := hreads.obeys hwarns hdeep
  have hitem' := hreads.obeys hwarns' hdeep'
  have hreached := (reached_of_rounds hpart hitem hrounds hbetween).1
  have hmiddle := hreached.between hbetween
  have hmutedMiddle : middle.log.muted = 0 := hreached.follows.muted_eq.trans hmuted
  have hlevel : set.stream.Level within.first stop :=
    (Level.mk (hposition ▸ hmiddle.stays) (hposition ▸ hmiddle.opened_eq)).trans h.spelled.level.1
  have hfront' : first.position = start ∨
      within.first < start ∧ set.stream.kind (start - 1) = .semicolon := by
    rcases Nat.lt_or_eq_of_le (hposition ▸ hreached.within.le) with hlt | heq
    · exact Or.inr ⟨Nat.lt_of_le_of_lt hbetween.stays.le hlt, hfront.resolve_left (Nat.ne_of_lt hlt)⟩
    · exact Or.inl heq
  -- what stands in front is read on the other stream in the same rounds
  obtain ⟨middle', hrounds', hlog', hposition'⟩ := (h.shares hpart hmiddle hposition).rounds
    set'.balanced hfront' halike hpart hitem
    (fun P s hclosed hlt hzero =>
      hreads.agrees P hwarns hdeep (fun _ => hzero) hclosed.guarded hlt)
    hrounds hbetween hmuted (Nat.le_of_eq hposition) hplace hlog
  have hmiddle' := (reached_of_rounds hpart' hitem' hrounds' hbetween').1.between hbetween'
  have hstart' : middle'.position = start := hposition'.trans hposition
  obtain ⟨groups, reports, final, hreading, hsame, hrun, hreports, hfinal⟩ := h.spelled.iterate hreads
    (Recurs.self h.recurs.within h.recurs.opened_eq h.recurs.boundary)
    ⟨rfl, h.ends.2⟩ hwarns hdeep hpart hlevel hpart (.refl within) hrounds
    hposition hmutedMiddle ⟨hposition ▸ hmiddle.stays, hposition ▸ hmiddle.opened_eq⟩
  obtain ⟨groups', reports', final', hreading', hsame', hrun', hreports', hfinal'⟩ :=
    h.spelled_other.iterate hreads h.recurs h.ends hwarns hdeep hpart hlevel hpart' halike hrounds' hstart'
    (hlog' ▸ hmutedMiddle) ⟨hstart' ▸ hmiddle'.stays, hstart' ▸ hmiddle'.opened_eq⟩
  rw [hrun, hrun']
  refine ⟨?_, ?_, hfinal, hfinal'⟩
  · cases (itemsFrom set.stream item within what stop).1 with
    | error abort => rfl
    | ok later =>
      have hflatten : ∀ later groups : List (List Statement),
          (later ++ (groups.reverse ++ before)).reverse.flatten =
            before.reverse.flatten ++ (groups.flatten ++ later.reverse.flatten) := by
        intro later groups
        simp [List.append_assoc]
      show Statement.Respelled (Relocation.id.move later ++ (groups.reverse ++ before)).reverse.flatten
        (relocation.move later ++ (groups'.reverse ++ before)).reverse.flatten
      rw [hflatten, hflatten]
      refine hreading.respelled hreading' _ ?_
      have hreverse : ∀ r : Relocation, (r.move later).reverse.flatten =
          r.move later.reverse.flatten := fun r => by
        rw [← r.move_flatten]
        exact congrArg List.flatten List.map_reverse.symm
      rw [hreverse, hreverse, Relocation.move_move, Relocation.move_move]
      rfl
  · simp only [hreports, hreports', hlog', Relocation.move_append, Relocation.move_move]
    rw [show Relocation.forget.move reports = Relocation.forget.move reports' from
      hsame.trans hsame'.symm]
    rfl

end AnnotatedDefinition

/-! ### Modules -/

namespace Statement

/-- What becomes an annotation may stand at the top of a source. -/
theorem Annotates.misplaced?_eq {head : Statement} {ascription : Ascription}
    (h : head.Annotates ascription) : head.misplaced? = none := by
  have hsettle := h.settle_eq
  cases head with
  | pending => rfl
  | item plain => cases plain <;> first | rfl | cases hsettle

/-- What may not stand at the top of a source is left out around another spelling, and reported. -/
theorem Respelled.atTop {statements others : List Statement} (h : Respelled statements others) :
    Respelled (placed statements) (placed others) ∧
      Relocation.forget.move (statements.filterMap misplaced?) =
        Relocation.forget.move (others.filterMap misplaced?) := by
  obtain @⟨before, after, after', head, head', ascription, ascription', definition, definition', hhead,
    hhead', hname, hname', htype, hdefinition, hafter⟩ := h
  have hof : ∀ definition, (ofDefinition definition).misplaced? = none := fun _ => rfl
  have hplaced : ∀ {head : Statement} {ascription : Ascription} (definition : TermDef)
      (after : List Statement), head.Annotates ascription →
      placed (before ++ head :: ofDefinition definition :: after) =
        placed before ++ head :: ofDefinition definition :: placed after := by
    intro head ascription definition after hhead
    simp [placed, hhead.misplaced?_eq, hof]
  have hmisplaced : ∀ {head : Statement} {ascription : Ascription} (definition : TermDef)
      (after : List Statement), head.Annotates ascription →
      (before ++ head :: ofDefinition definition :: after).filterMap misplaced? =
        before.filterMap misplaced? ++ after.filterMap misplaced? := by
    intro head ascription definition after hhead
    simp [hhead.misplaced?_eq, hof]
  rw [hplaced definition after hhead, hplaced definition' after' hhead', hmisplaced definition after
    hhead, hmisplaced definition' after' hhead', Relocation.move_append, Relocation.move_append]
  refine ⟨.of _ hhead hhead' hname hname' htype hdefinition ?_, ?_⟩
  · rw [← placed_move, hafter, placed_move]
  · rw [← Relocation.move_filterMap (misplaced?_move .forget) after, hafter,
      Relocation.move_filterMap (misplaced?_move .forget)]

/-- In another spelling the same is reported of the statements of a source. -/
theorem Respelled.reportsAtTop {statements others : List Statement} (h : Respelled statements others) :
    Relocation.forget.move (reportsAtTop statements) = Relocation.forget.move (reportsAtTop others) := by
  obtain ⟨hplaced, hmisplaced⟩ := h.atTop
  rw [Statement.reportsAtTop, Statement.reportsAtTop, Relocation.move_append, Relocation.move_append,
    hmisplaced, hplaced.group.2]

end Statement

/-- Modules of one name have the same structure if their declarations have. -/
theorem Module.sameStructure_of_declarations {left right : Module} (hname : left.name = right.name)
    (hdeclarations : sameNodes (left.declarations.map Declaration.outline)
      (right.declarations.map Declaration.outline) = true) : left.sameStructure right = true := by
  obtain ⟨name, declarations, span⟩ := left
  obtain ⟨_, others, span'⟩ := right
  subst hname
  cases name <;> simp [sameStructure, outline, Outline.sameStructure, sameFields,
    OutlineField.sameField, OutlineField.ofText?, OutlineField.ofNodes, OutlineValue.sameValue,
    hdeclarations]

namespace Parser.RunsAlike

variable {run run' : Except Abort (List (List Statement)) × ParserState}

/-- What is made of statements at the end of a source is the same in both spellings. -/
theorem moduleSource {left right : TokenStream} {name : Option String} {within within' : Enclosure}
    {first first' : ParserState}
    (h : RunsAlike
      (repeatWhile.iterate (startsItem within) (nextItem moduleItem within "declaration") left.size []
        left first)
      (repeatWhile.iterate (startsItem within') (nextItem moduleItem within' "declaration") right.size []
        right first'))
    (hopening : moduleOpening left .initial = (.ok (name, within), first))
    (hopening' : moduleOpening right .initial = (.ok (name, within'), first')) :
    Module.SameOutcome (moduleSource left .initial).1 (moduleSource right .initial).1 ∧
      Relocation.forget.move (moduleSource left .initial).2.log.diagnostics.toList =
        Relocation.forget.move (moduleSource right .initial).2.log.diagnostics.toList := by
  obtain ⟨houtcome, hreports, hmuted, hmuted'⟩ := h
  rw [moduleSource_apply, moduleSource_apply, hopening, hopening']
  dsimp only
  rw [moduleRest_apply, moduleRest_apply]
  generalize repeatWhile.iterate (startsItem within) (nextItem moduleItem within "declaration")
    left.size [] left first = run at *
  generalize repeatWhile.iterate (startsItem within') (nextItem moduleItem within' "declaration")
    right.size [] right first' = run' at *
  obtain ⟨result, middle⟩ := run
  obtain ⟨result', middle'⟩ := run'
  cases result with
  | error abort =>
    cases result' with
    | error abort' => exact ⟨houtcome, hreports⟩
    | ok => exact houtcome.elim
  | ok answers =>
    cases result' with
    | error abort' => exact houtcome.elim
    | ok answers' =>
      dsimp only at houtcome ⊢
      refine ⟨Module.sameStructure_of_declarations rfl houtcome.atTop.1.group.1.sameDeclarations, ?_⟩
      have hlog := @ParserState.reportAll_log
        { middle with history := .finished within middle.position :: middle.history } hmuted
        (Statement.reportsAtTop answers.reverse.flatten)
      have hlog' := @ParserState.reportAll_log
        { middle' with history := .finished within' middle'.position :: middle'.history } hmuted'
        (Statement.reportsAtTop answers'.reverse.flatten)
      rw [hlog.1, hlog'.1, Relocation.move_append, Relocation.move_append, houtcome.reportsAtTop]
      exact congrArg (· ++ _) hreports

end Parser.RunsAlike

namespace AnnotatedDefinition

variable {set set' : Setting} {budget : Nat} {parts : AnnotatedDefinition budget}
  {relocation : Relocation} {start stop stop' length : Nat}

/-- In another spelling of one definition a module is read as the same module, but for places, and the
same is reported. -/
theorem Exchanged.moduleSource (hbudget : budget + 1 = nestingBudget)
    (h : parts.Exchanged set set'.stream relocation start stop stop' length)
    (hwarns : set.Warns) (hdeep : set.allows .tooDeep) (hwarns' : set'.Warns)
    (hdeep' : set'.allows .tooDeep) {name : Option String} {within : Enclosure}
    {before : List (List Statement)} {first middle : ParserState}
    (hopening : moduleOpening set.stream .initial = (.ok (name, within), first))
    (hrounds : Rounds set.stream moduleItem within "declaration" [] first before middle)
    (hposition : middle.position = start)
    (hfront : first.position = start ∨ set.stream.kind (start - 1) = .semicolon) :
    Module.SameOutcome (Parser.moduleSource set.stream .initial).1
        (Parser.moduleSource set'.stream .initial).1 ∧
      Relocation.forget.move (Parser.moduleSource set.stream .initial).2.log.diagnostics.toList =
        Relocation.forget.move (Parser.moduleSource set'.stream .initial).2.log.diagnostics.toList := by
  obtain ⟨hwithin, hpart, hbetween, hopened, hmuted⟩ :=
    (@runs_moduleOpening set).returns hopening
  have hreached := (reached_of_rounds hpart (obeys_moduleItem hwarns hdeep) hrounds hbetween).1
  have hmiddle := hreached.between hbetween
  have hshares := h.shares hpart hmiddle hposition
  have hkind : ∀ {stream : TokenStream} {start}, (stream.kind start = .identifier ∨
      stream.kind start = .atSign) → stream.kind start ≠ .keyword .moduleWord ∧
        stream.kind start ≠ .endOfFile ∧ (stream.kind start).isSeparator = false := by
    rintro stream start (hkind | hkind) <;> rw [hkind] <;>
      exact ⟨TokenKind.noConfusion, TokenKind.noConfusion, rfl⟩
  obtain ⟨hleft, hend, hseparator⟩ := hkind h.spelled.kind_eq
  obtain ⟨hright, -, hseparator'⟩ := hkind h.spelled_other.kind_eq
  have houtside : set.stream.opened start = [] := hshares.opened_eq.trans hopened
  have hskip : set'.stream.skipWhile (·.separates false) start = start :=
    skipWhile_eq_self (by rw [TokenKind.separates, hseparator']; rfl)
  have hbegins : set.BeginsLike set'.stream start := {
    lt := hshares.lt
    lt_other := hshares.lt_other
    token_eq := h.token_eq
    depth_eq := fun position hle => hshares.depth_other set'.balanced hle
    opened_eq := houtside
    not_separator := hseparator
    separator := fun heq => absurd heq hend }
  obtain ⟨within', first', hopening', hwithin', hlog, hplace⟩ := hbegins.opening hopening
    (hposition ▸ hreached.within.le) hleft (by rw [hskip]; exact hright)
    (by
      rw [hskip, hshares.depth_other set'.balanced (Nat.le_refl _), set.balanced.depth_eq hshares.lt,
        houtside]
      rfl)
    (by
      have hspares := Spares.moduleOpening set.stream .initial
        (fun diagnostic hmem => absurd hmem (Array.not_mem_empty _))
      rw [hopening] at hspares
      exact hspares) fun heq => absurd heq hend
  obtain ⟨-, hpart', hbetween', -, -⟩ := (@runs_moduleOpening set').returns hopening'
  have hsame : first'.position = first.position := by
    rw [hplace, BeginsLike.meet]
    split
    · rfl
    · next hge =>
      have hle : first.position ≤ start := hposition ▸ hreached.within.le
      rw [hskip]
      omega
  exact (h.loops (readsStatements_moduleItem hbudget) hwarns hdeep hwarns' hdeep' hpart hpart'
    (hwithin.alike hwithin') hbetween hbetween' hmuted hsame hlog hrounds hposition
    hfront).moduleSource hopening hopening'

end AnnotatedDefinition

/-! ### Blocks -/

/-- In another spelling the same expression stands at the end of the items, if one does. -/
theorem Item.Respelled.splitResult? {items others : List Item} (h : Respelled items others) :
    match Parser.splitResult? items, Parser.splitResult? others with
    | none, none => True
    | some (before, value), some (before', value') =>
      SableFrontend.sameNodes (itemOutlines before) (itemOutlines before') = true ∧
        value.relocate .forget = value'.relocate .forget
    | _, _ => False := by
  obtain @⟨front, rest, rest', ascription, ascription', hascription, hrest⟩ := h
  have hsplit : ∀ (ascription : Ascription) (rest : List Item),
      Parser.splitResult? (front ++ .declaration (.ascription ascription) :: rest) =
        (Parser.splitResult? rest).map fun split =>
          (front ++ .declaration (.ascription ascription) :: split.1, split.2) := by
    intro ascription rest
    cases rest with
    | nil => simp [Parser.splitResult?]
    | cons item rest =>
      unfold Parser.splitResult?
      rw [List.getLast?_append_of_ne_nil _ (List.cons_ne_nil _ _), List.getLast?_cons_cons,
        List.dropLast_append_of_ne_nil (List.cons_ne_nil _ _), List.dropLast_cons_cons]
      split <;> rfl
  have hmoved := congrArg Parser.splitResult? hrest
  rw [Parallel.splitResult?_relocate, Parallel.splitResult?_relocate] at hmoved
  rw [hsplit, hsplit]
  cases hleft : Parser.splitResult? rest with
  | none =>
    cases hright : Parser.splitResult? rest' with
    | none => trivial
    | some =>
      rw [hleft, hright] at hmoved
      cases hmoved
  | some split =>
    cases hright : Parser.splitResult? rest' with
    | none =>
      rw [hleft, hright] at hmoved
      cases hmoved
    | some split' =>
      rw [hleft, hright] at hmoved
      obtain ⟨hbefore, hvalue⟩ := Prod.mk.inj (Option.some.inj hmoved)
      exact ⟨(Respelled.of front hascription hbefore).sameNodes, hvalue⟩

/-- Reading an expression ends in the same way as another time: with expressions of the same structure,
or given up alike. -/
def Expr.SameOutcome {ε : Type} : Except ε Expr → Except ε Expr → Prop
  | .ok value, .ok other => value.outline.sameStructure other.outline = true
  | .error abort, .error other => abort = other
  | _, _ => False

/-- What a block is made of once its statements have been read. -/
def Parser.finishBlock (start : Span) (reportedBefore : Nat) (groups : List (List Statement)) :
    Parser Expr := do
  let close ← expect (.closer .square) "to close block"
  let (statements, reported) := Statement.group groups.flatten
  reported.forM report
  match splitResult? statements with
  | none =>
    if (← get).log.count == reportedBefore then
      reportError .unexpectedToken "block must end with an expression" close.span []
    throw .failed
  | some (before, value) =>
    match value with
    | .conditional _ none span =>
      reportError .missingElseBranch
        "`if` producing the value of a block needs an `else` branch" span []
    | _ => pure ()
    return .block before value (← spanFrom start)

theorem Parser.block_eq (inner : Nested) : block inner = (do
    let start := (← expect (.opener .square) "").span
    let reportedBefore := (← get).log.count
    let groups ← items inner.statement (.closer .square) false "statement"
    finishBlock start reportedBefore groups) := rfl

/-- What is reported at the end of a block, besides what its statements lead to. -/
def Parser.blockReport? (split : Option (List Item × Expr)) (quiet : Bool) (close : Span) :
    Option Diagnostic :=
  match split with
  | none =>
    if quiet then
      some (.errorAt .unexpectedToken "block must end with an expression" close [] [])
    else none
  | some (_, value) =>
    if value.lacksElse then
      some (.errorAt .missingElseBranch
        "`if` producing the value of a block needs an `else` branch" value.span [] [])
    else none

/-- What a block comes to, once its statements are grouped. -/
def Parser.blockOutcome (span : Span) : Option (List Item × Expr) → Except Abort Expr
  | none => .error .failed
  | some (before, value) => .ok (.block before value span)

theorem Parser.finishBlock_apply {stream : TokenStream} {state : ParserState} (start : Span)
    (reportedBefore : Nat) (groups : List (List Statement))
    (hkind : stream.kind state.position = .closer .square)
    (hlt : state.position + 1 < stream.size) :
    finishBlock start reportedBefore groups stream state =
      let group := Statement.group groups.flatten
      let middle := ParserState.reportAll { state with position := state.position + 1 } group.2
      let close := (stream.token state.position).span
      (blockOutcome (start.join close) (splitResult? group.1),
        middle.reportAll (blockReport? (splitResult? group.1) (middle.log.count == reportedBefore)
          close).toList) := by
  rw [finishBlock, bind_apply, expect_apply hkind hlt]
  dsimp only
  rw [bind_apply, reportAll_apply]
  dsimp only
  generalize hmiddle : ParserState.reportAll { state with position := state.position + 1 }
    (Statement.group groups.flatten).2 = middle
  have hposition : middle.position = state.position + 1 := by rw [← hmiddle]; rfl
  cases splitResult? (Statement.group groups.flatten).1 with
  | none =>
    show (if middle.log.count == reportedBefore then _ else _ : Parser Expr) stream middle = _
    cases middle.log.count == reportedBefore <;> rfl
  | some split =>
    obtain ⟨before, value⟩ := split
    have hspan : ∀ final : ParserState, final.position = state.position + 1 →
        (do return Expr.block before value (← spanFrom start) : Parser Expr) stream final =
          (.ok (.block before value (start.join (stream.token state.position).span)), final) := by
      intro final hfinal
      show (Except.ok (Expr.block before value (start.join (stream.token (final.position - 1)).span)),
        final) = _
      rw [hfinal]
      rfl
    cases value with
    | conditional branches otherwise span =>
      cases otherwise with
      | none => exact hspan (middle.reportAll [_]) hposition
      | some => exact hspan middle hposition
    | _ => exact hspan middle hposition

/-- Blocks with another spelling among their statements end alike. -/
theorem Parser.finishBlock_respelled {left right : TokenStream} {middle middle' : ParserState}
    {groups groups' : List (List Statement)} (start start' : Span) (reportedBefore : Nat)
    (h : Statement.Respelled groups.flatten groups'.flatten)
    (hreports : Relocation.forget.move middle.log.diagnostics.toList =
      Relocation.forget.move middle'.log.diagnostics.toList)
    (hmuted : middle.log.muted = 0) (hmuted' : middle'.log.muted = 0)
    (hkind : left.kind middle.position = .closer .square)
    (hkind' : right.kind middle'.position = .closer .square)
    (hlt : middle.position + 1 < left.size) (hlt' : middle'.position + 1 < right.size) :
    Expr.SameOutcome (finishBlock start reportedBefore groups left middle).1
        (finishBlock start' reportedBefore groups' right middle').1 ∧
      Relocation.forget.move
          (finishBlock start reportedBefore groups left middle).2.log.diagnostics.toList =
        Relocation.forget.move
          (finishBlock start' reportedBefore groups' right middle').2.log.diagnostics.toList := by
  obtain ⟨hitems, hgroup⟩ := h.group
  rw [finishBlock_apply start reportedBefore groups hkind hlt,
    finishBlock_apply start' reportedBefore groups' hkind' hlt']
  dsimp only
  obtain ⟨hlog, hzero⟩ := @ParserState.reportAll_log { middle with position := middle.position + 1 }
    hmuted (Statement.group groups.flatten).2
  obtain ⟨hlog', hzero'⟩ :=
    @ParserState.reportAll_log { middle' with position := middle'.position + 1 } hmuted'
      (Statement.group groups'.flatten).2
  have hsame : Relocation.forget.move (ParserState.reportAll
        { middle with position := middle.position + 1 }
        (Statement.group groups.flatten).2).log.diagnostics.toList =
      Relocation.forget.move (ParserState.reportAll
        { middle' with position := middle'.position + 1 }
        (Statement.group groups'.flatten).2).log.diagnostics.toList := by
    rw [hlog, hlog', Relocation.move_append, Relocation.move_append, hgroup]
    exact congrArg (· ++ _) hreports
  have hcount : (ParserState.reportAll { middle with position := middle.position + 1 }
        (Statement.group groups.flatten).2).log.count =
      (ParserState.reportAll { middle' with position := middle'.position + 1 }
        (Statement.group groups'.flatten).2).log.count := by
    have hlength : ∀ diagnostics : Array Diagnostic,
        (Relocation.forget.move diagnostics.toList).length = diagnostics.size := fun diagnostics =>
      (List.length_map _).trans Array.length_toList
    rw [Log.count, Log.count, ← hlength, ← hlength, hsame]
  generalize ParserState.reportAll { middle with position := middle.position + 1 }
    (Statement.group groups.flatten).2 = last at *
  generalize ParserState.reportAll { middle' with position := middle'.position + 1 }
    (Statement.group groups'.flatten).2 = last' at *
  rw [hcount]
  have hsplit := hitems.splitResult?
  have hend : Expr.SameOutcome
        (blockOutcome (start.join (left.token middle.position).span)
          (splitResult? (Statement.group groups.flatten).1))
        (blockOutcome (start'.join (right.token middle'.position).span)
          (splitResult? (Statement.group groups'.flatten).1)) ∧
      Relocation.forget.move (blockReport? (splitResult? (Statement.group groups.flatten).1)
          (last'.log.count == reportedBefore) (left.token middle.position).span) =
        Relocation.forget.move (blockReport? (splitResult? (Statement.group groups'.flatten).1)
          (last'.log.count == reportedBefore) (right.token middle'.position).span) := by
    generalize splitResult? (Statement.group groups.flatten).1 = split at hsplit ⊢
    generalize splitResult? (Statement.group groups'.flatten).1 = split' at hsplit ⊢
    cases split with
    | none =>
      cases split' with
      | none =>
        refine ⟨rfl, ?_⟩
        cases last'.log.count == reportedBefore <;> rfl
      | some => exact hsplit.elim
    | some split =>
      cases split' with
      | none => exact hsplit.elim
      | some split' =>
        obtain ⟨before, value⟩ := split
        obtain ⟨before', value'⟩ := split'
        obtain ⟨hbefore, hvalue⟩ := hsplit
        have houtline : value.outline.sameStructure value'.outline = true :=
          @Outline.sameStructure_of_relocate_eq .forget .forget _ _
            (by rw [← Expr.outline_relocate, hvalue, Expr.outline_relocate])
        refine ⟨?_, ?_⟩
        · simp only [blockOutcome, Expr.SameOutcome, Expr.outline, Outline.sameStructure, sameFields,
            OutlineField.sameField, OutlineField.ofNodes, OutlineField.ofNode, OutlineValue.sameValue,
            hbefore, houtline, beq_self_eq_true, Bool.and_self]
        · have hlacks : value.lacksElse = value'.lacksElse := by
            rw [← value.lacksElse_relocate .forget, hvalue, Expr.lacksElse_relocate]
          rw [blockReport?, blockReport?, hlacks]
          cases value'.lacksElse <;> rfl
  refine ⟨hend.1, ?_⟩
  rw [(ParserState.reportAll_log hzero _).1, (ParserState.reportAll_log hzero' _).1,
    Relocation.move_append, Relocation.move_append, hsame]
  have htoList : ∀ report? : Option Diagnostic, Relocation.forget.move report?.toList =
      (Relocation.forget.move report?).toList := fun report? => by cases report? <;> rfl
  rw [htoList, htoList, hend.2]

end SableFrontend
