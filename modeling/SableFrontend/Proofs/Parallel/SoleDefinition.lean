import SableFrontend.Proofs.Grammar.Budget
import SableFrontend.Proofs.Grammar.Level
import SableFrontend.Proofs.Parallel.Composition
import SableFrontend.Proofs.Parallel.Recurrence
import SableFrontend.Proofs.Parallel.Surroundings
import SableFrontend.Proofs.Token.Defining
import SableFrontend.Proofs.Tree.Conservation

/-!
A module of one definition without parameters is read like a text that is only its value
(`parseExpression_soleDefinition`). Behind `x =` the tokens of the text are those it has alone
(`TokenStream.Defines`), so the value is read there as it is read alone, up to the end of both
(`TokenStream.Defines.exists_run`). That the definition is all there is goes through for a value, since
only separators follow it. The other way round, nothing that is read at the top is lost without a report
(`Statement.eq_of_declarations`), so a single clause that is left has been the only item.
-/

namespace SableFrontend

open TokenStream SableFrontend.Parser Setting

/-! ### The stream of a definition -/

/-- A stream that begins with `x =` and goes on like another one. -/
structure TokenStream.Defines (stream other : TokenStream) (relocation : Relocation) : Prop where
  size_eq : other.size = stream.size + 2
  name : (other.token 0).word = { kind := .identifier, value := "x" }
  sign : other.kind 1 = .assign
  token_add : ∀ position < stream.size,
    other.token (position + 2) = (stream.token position).relocate relocation
  touches_add : ∀ position, position + 1 < stream.size →
    (other.token (position + 2)).touches (other.token (position + 1 + 2)) =
      (stream.token position).touches (stream.token (position + 1))

/-- The tokens of a value and of its definition make such streams. -/
theorem Token.Defines.exists_defines {file : String} {stream other : TokenStream}
    (h : Token.Defines file stream.tokens other.tokens) :
    ∃ relocation, stream.Defines other relocation := by
  obtain ⟨htokens, hname, hsign, hpaired⟩ := h
  obtain ⟨relocation, rfl⟩ := hpaired.exists_relocation
  have htouches := hpaired.zipWith_touches_eq
  have hsize : other.size = stream.size + 2 := by
    rw [TokenStream.size, TokenStream.size, ← Array.length_toList, htokens]
    simp
  have hget : ∀ {stream : TokenStream} {position : Nat}, position < stream.size →
      stream.tokens.toList[position]? = some (stream.token position) := fun hlt => by
    rw [Array.getElem?_toList, getElem?_tokens hlt]
  have htoken : ∀ position < stream.size,
      other.token (position + 2) = (stream.token position).relocate relocation := by
    intro position hlt
    have hother := hget (show position + 2 < other.size by omega)
    rw [htokens, List.getElem?_cons_succ, List.getElem?_cons_succ, List.getElem?_map, hget hlt] at hother
    exact (Option.some.inj hother).symm
  refine ⟨relocation, hsize, ?_, ?_, htoken, fun position hlt => ?_⟩
  · have hother := hget (show 0 < other.size by omega)
    rw [htokens] at hother
    rw [← Option.some.inj hother]
    exact hname
  · have hother := hget (show 1 < other.size by omega)
    rw [htokens] at hother
    rw [TokenStream.kind, ← Option.some.inj hother]
    exact congrArg Word.kind hsign
  · have hneighbours := congrArg (·[position]?) htouches
    rw [htoken position (by omega), htoken (position + 1) hlt]
    simp only [List.getElem?_zipWith, List.getElem?_tail, List.getElem?_map, hget hlt,
      hget (Nat.lt_of_succ_lt hlt), Option.map_some] at hneighbours
    exact Option.some.inj hneighbours

namespace TokenStream.Defines

variable {stream other : TokenStream} {relocation : Relocation}

theorem kind_add (h : stream.Defines other relocation) {position : Nat} (hlt : position < stream.size) :
    other.kind (position + 2) = stream.kind position := by
  rw [TokenStream.kind, h.token_add position hlt]
  rfl

theorem opened_add (h : stream.Defines other relocation) {position : Nat} (hle : position < stream.size) :
    other.opened (position + 2) = stream.opened position := by
  have hsize := h.size_eq
  induction position with
  | zero =>
    have hname : (other.kind 0).isPlain = true := by
      rw [show other.kind 0 = .identifier from congrArg Word.kind h.name]
      rfl
    have hsign : (other.kind 1).isPlain = true := by rw [h.sign]; rfl
    rw [opened_succ_plain (by omega) hsign, opened_succ_plain (by omega) hname, opened_zero, opened_zero]
  | succ position ih =>
    rw [opened_succ (Nat.lt_of_succ_lt hle), show position + 1 + 2 = position + 2 + 1 by omega,
      opened_succ (by omega), ih (Nat.lt_of_succ_lt hle), h.kind_add (Nat.lt_of_succ_lt hle)]

/-- Line breaks and other separators behind the sign are those in front of the value. -/
theorem skipWhile_add (h : stream.Defines other relocation) (isMember : TokenKind → Bool)
    (position : Nat) :
    other.skipWhile isMember (position + 2) = stream.skipWhile isMember position + 2 := by
  obtain ⟨skipped, hleft, hright⟩ := exists_skipWhile_add isMember
    (show other.size + position = stream.size + (position + 2) by have := h.size_eq; omega)
    fun offset hoffset => by
      rw [show position + 2 + offset = position + offset + 2 by omega, h.kind_add hoffset]
  omega

end TokenStream.Defines

/-- From where the value begins on, the stream of the definition is that of the value. -/
theorem Setting.endsLike_of_defines {set : Setting} {other : TokenStream} {relocation : Relocation}
    (h : set.stream.Defines other relocation) (balanced : other.Balanced) :
    set.EndsLike other relocation (set.stream.skipWhile (· == .newline) 0)
      (set.stream.skipWhile (· == .newline) 0 + 2) := by
  have hnewlines : ∀ k < set.stream.skipWhile (· == .newline) 0, set.stream.kind k = .newline :=
    fun k hlt => beq_iff_eq.1 (isMember_of_lt_skipWhile (Nat.zero_le k) hlt)
  obtain ⟨hstays, hopened, -⟩ := @within_skipWhile set.stream (· == .newline) 0
    (fun kind hkind => by rw [beq_iff_eq.1 hkind]; rfl) set.stream.size_pos
  generalize hfirst : set.stream.skipWhile (· == .newline) 0 = first at *
  have hsize := h.size_eq
  have hadd : ∀ offset, first + offset + 2 = first + 2 + offset := fun offset => by omega
  refine ⟨hstays.lt, by omega, fun offset hlt => ?_, fun offset hlt => ?_, fun offset hlt => ?_,
    hopened.trans set.stream.opened_zero, fun hkind => ?_⟩
  · rw [← hadd, h.token_add _ hlt]
  · rw [← hadd, ← hadd]
    exact h.touches_add (first + offset) hlt
  · rw [← hadd, balanced.depth_eq (by omega), set.balanced.depth_eq hlt, h.opened_add hlt]
  · -- neither a line break nor the sign gives a bracket its form
    cases first with
    | zero =>
      exact formBefore?_eq_none (by rw [Nat.zero_add, h.sign]; nofun) (by rw [Nat.zero_add, h.sign]; nofun)
    | succ first =>
      have hbefore := hnewlines first (Nat.lt_succ_self first)
      have hother : other.kind (first + 1 + 2 - 1) = .newline :=
        (h.kind_add (Nat.lt_of_succ_lt hstays.lt)).trans hbefore
      rw [formBefore?_eq_none (by rw [hother]; nofun) (by rw [hother]; nofun),
        formBefore?_eq_none (by rw [Nat.add_sub_cancel, hbefore]; nofun)
          (by rw [Nat.add_sub_cancel, hbefore]; nofun)]

/-! ### Reading the definition -/

/-- A definition by one clause without parameters. -/
def TermDef.plain (name : Token) (body : Expr) (span : Span) : TermDef where
  name := name.value
  clauses := [{ patterns := [], body := body, span := span }]
  span := span

/-- A name in front of a sign begins a definition without parameters: its value is read, behind the line
breaks there. -/
theorem Setting.runs_statement_of_assign {set : Setting} {inner : Nested} {state : ParserState}
    (hname : set.stream.kind state.position = .identifier)
    (hsign : set.stream.kind (state.position + 1) = .assign)
    {returns : List Statement → ParserState → Prop} {stops : Abort → ParserState → Prop}
    (h : set.Runs (inner.expression 0)
      { state with position := set.stream.skipWhile (· == .newline) (state.position + 2) }
      (fun body final => returns [.ofDefinition (.plain (set.stream.token state.position) body
        ((set.stream.token state.position).span.join (set.stream.token (final.position - 1)).span))]
          final) stops) :
    set.Runs (statement inner) state returns stops := by
  have hlt := succ_lt_size_of_kind hname TokenKind.noConfusion
  have hlt' := succ_lt_size_of_kind hsign TokenKind.noConfusion
  have hstop : (set.stream.firstStop endsStatementHead 0 state.position).kind = .assign := by
    rw [TokenStream.firstStop, if_pos (Nat.lt_of_succ_lt hlt), hname]
    dsimp only
    rw [if_neg (fun h => absurd h.2 Bool.false_ne_true), firstStop_self hlt (by rw [hsign]; rfl) (by rw [hsign]; rfl)]
    exact hsign
  have hbody : set.Runs (definitionBody inner (set.stream.token state.position) [])
      { state with position := state.position + 2 }
      (fun definition final => returns [.ofDefinition definition] final) stops :=
    .bind (.skipWhile (.bind (h.mono (fun body final hreturns => .bind hreturns)
      fun _ _ hstops => hstops)))
  have hline : set.Runs (definition inner) state
      (fun line final => returns line.statements final) stops := by
    refine .bind (.expect hname hlt (.bind (.isAt (.ite (fun hat => ?_) fun _ => ?_))))
    · rw [show set.stream.kind (state.position + 1) = .assign from hsign] at hat
      cases hat
    · refine .bind (.bind (.repeatWhile_done ?_ (.pure (.bind (.expect hsign hlt' (.bind (hbody.mono
        (fun _ _ hreturns => .pure hreturns) fun _ _ hstops => hstops)))))))
      have hkind : (set.stream.token (state.position + 1)).kind = .assign := hsign
      rw [Parallel.startsPatternAtom_apply, Token.isOperator]
      dsimp only
      rw [hkind]
      rfl
  refine .bind (.current ?_)
  rw [show (set.stream.token state.position).kind = .identifier from hname]
  refine .bind (.firstStop ?_)
  rw [hstop]
  have hrest : set.Runs (do
      if (set.stream.token state.position).kind != .identifier then
        unexpected ["name"] ("before " ++ TokenKind.assign.describe)
      return (← Parser.definition inner).statements) state returns stops := by
    rw [show (set.stream.token state.position).kind = .identifier from hname]
    exact .bind (hline.mono (fun _ _ h => .pure h) fun _ _ h => h)
  exact hrest

/-! ### One definition and nothing else -/

theorem map_fst_followed {α : Type} (name? : α → Option String) (items : List α) :
    (followed name? items).map Prod.fst = items := by
  induction items with
  | nil => rfl
  | cons item rest ih => rw [followed, List.map_cons, ih]

namespace Statement

variable {statements : List Statement}

/-- If nothing is reported at the top and only definitions are left, there have been only definitions. -/
theorem isSome_definition?_of_declarations (hreports : reportsAtTop statements = [])
    (hall : ∀ declaration ∈ declarations statements, declaration.definition?.isSome = true) :
    ∀ statement ∈ statements, statement.definition?.isSome = true := by
  obtain ⟨hmisplaced, hgroup⟩ := List.append_eq_nil_iff.1 hreports
  have hplaced : placed statements = statements := List.filter_eq_self.2 fun statement hmem =>
    Option.isNone_iff_eq_none.2 (List.filterMap_eq_nil_iff.1 hmisplaced statement hmem)
  rw [hplaced] at hgroup
  have hitems := group_placed statements
  rw [hplaced] at hitems
  obtain ⟨fates, hfirst, hkept, hfates, hnotices⟩ := exists_fates_group statements
  rw [hgroup, List.map_nil] at hnotices
  -- all that is no definition is kept, but nothing of that kind is left
  have hnone : fates = [] := by
    refine List.eq_nil_iff_forall_not_mem.2 fun fate hmem => ?_
    have hquiet := List.filterMap_eq_nil_iff.1 hnotices.symm fate hmem
    cases hfate : fate.2 with
    | none =>
      rw [hfate] at hquiet
      cases hquiet
    | some pair =>
      have hpair : pair ∈ fates.filterMap Prod.snd := List.mem_filterMap.2 ⟨fate, hmem, hfate⟩
      rw [hkept] at hpair
      obtain ⟨hfollowed, hno⟩ := List.mem_filter.1 hpair
      have hitem : pair.1 ∈ (group statements).1 := by
        rw [← map_fst_followed Item.annotatedName? (group statements).1]
        exact List.mem_map_of_mem hfollowed
      rw [hitems] at hitem
      obtain ⟨declaration, hdeclaration, heq⟩ := List.mem_map.1 hitem
      have hsome := hall declaration hdeclaration
      rw [← heq] at hno
      cases declaration with
      | definition => cases hno
      | _ => cases hsome
  intro statement hmem
  rw [hnone, List.map_nil] at hfirst
  rw [← map_fst_followed annotatedName? statements] at hmem
  obtain ⟨pair, hpair, rfl⟩ := List.mem_map.1 hmem
  have hdefinition := List.filter_eq_nil_iff.1 hfirst.symm pair hpair
  exact Option.isSome_iff_ne_none.2 (by simpa using hdefinition)

/-- If nothing is reported at the top, all clauses are left. -/
theorem flatMap_namedClauses_declarations (hreports : reportsAtTop statements = []) :
    (declarations statements).flatMap (namedClauses Declaration.definition?) =
      statements.flatMap (namedClauses definition?) := by
  have hplaced : placed statements = statements := List.filter_eq_self.2 fun statement hmem =>
    Option.isNone_iff_eq_none.2
      (List.filterMap_eq_nil_iff.1 (List.append_eq_nil_iff.1 hreports).1 statement hmem)
  have hitems := group_placed statements
  rw [hplaced] at hitems
  have hof : ∀ definition, definition? (ofDefinition definition) = some definition := fun _ => rfl
  rw [← flatMap_namedClauses_merge hof statements, ← flatMap_namedClauses_settleAll]
  show _ = (group statements).1.flatMap _
  rw [hitems, List.flatMap_map]
  refine List.flatMap_congr fun declaration _ => ?_
  cases declaration <;> rfl

/-- If one clause is all that is left, it is all there has been. -/
theorem eq_of_declarations {definition : TermDef} {clause : Clause}
    (hreports : reportsAtTop statements = [])
    (hleft : declarations statements = [.definition definition]) (hclauses : definition.clauses = [clause])
    (hmade : ∀ statement ∈ statements, ∀ definition, statement.definition? = some definition →
      definition.clauses ≠ []) :
    ∃ found, statements = [.ofDefinition found] ∧ found.name = definition.name ∧
      found.clauses = [clause] := by
  have hall := isSome_definition?_of_declarations hreports fun declaration hmem => by
    rw [hleft, List.mem_singleton] at hmem
    rw [hmem]
    rfl
  have hsame := flatMap_namedClauses_declarations hreports
  rw [hleft, List.flatMap_singleton] at hsame
  replace hsame : [(definition.name, clause)] = statements.flatMap (namedClauses definition?) := by
    rw [← hsame]
    show _ = definition.clauses.map _
    rw [hclauses]
    rfl
  have hnonempty : ∀ statement ∈ statements, namedClauses definition? statement ≠ [] := by
    intro statement hmem
    obtain ⟨found, hfound⟩ := Option.isSome_iff_exists.1 (hall statement hmem)
    rw [namedClauses, hfound]
    exact fun h => hmade statement hmem found hfound (List.map_eq_nil_iff.1 h)
  cases statements with
  | nil => cases hsame
  | cons statement rest =>
    obtain ⟨found, hfound⟩ := Option.isSome_iff_exists.1 (hall statement List.mem_cons_self)
    obtain rfl := eq_ofDefinition hfound
    have hfirst := hnonempty _ List.mem_cons_self
    rw [List.flatMap_cons] at hsame
    cases hclausesOf : namedClauses definition? (ofDefinition found) with
    | nil => exact absurd hclausesOf hfirst
    | cons pair more =>
      rw [hclausesOf] at hsame
      obtain ⟨hpair, hmore⟩ := List.cons.inj hsame
      obtain ⟨rfl, hrest⟩ := List.append_eq_nil_iff.1 hmore.symm
      have hnone : rest = [] := List.eq_nil_iff_forall_not_mem.2 fun other hmem =>
        hnonempty other (List.mem_cons_of_mem _ hmem) (List.flatMap_eq_nil_iff.1 hrest other hmem)
      subst hnone
      obtain ⟨clause', hlist, hclause'⟩ := List.map_eq_singleton_iff.1
        (show found.clauses.map (found.name, ·) = [pair] from hclausesOf)
      rw [← hpair] at hclause'
      obtain ⟨hname, rfl⟩ := Prod.mk.inj hclause'
      exact ⟨found, rfl, hname, hlist⟩

end Statement

/-- A statement is something, and each of its definitions has a clause. -/
def Statement.Made (statements : List Statement) : Prop :=
  statements ≠ [] ∧ ∀ statement ∈ statements, ∀ definition, statement.definition? = some definition →
    definition.clauses ≠ []

namespace Setting

variable {set : Setting} {state final : ParserState} {inner : Nested}

theorem Statement.made_singleton {statement : Statement} (h : statement.definition? = none) :
    Statement.Made [statement] :=
  ⟨List.cons_ne_nil _ _, fun other hmem definition hdefinition => by
    rw [List.mem_singleton.1 hmem, h] at hdefinition
    cases hdefinition⟩

/-- What a parser gives may be put to use without knowing what it is. -/
theorem Runs.after {α β : Type} {parser : Parser α} {next : α → Parser β}
    {returns : β → ParserState → Prop}
    (h : ∀ answer state, set.Runs (next answer) state returns fun _ _ => True) :
    set.Runs (parser >>= next) state returns fun _ _ => True :=
  .bind (runs_always h fun _ _ => trivial)

theorem runs_definition_made : set.Runs (definition inner) state
    (fun line _ => Statement.Made line.statements) fun _ _ => True := by
  have hbody : ∀ (name : Token) (patterns : List Pattern) state,
      set.Runs (definitionBody inner name patterns) state
        (fun definition _ => definition.clauses ≠ []) fun _ _ => True := fun _ _ _ =>
    .after fun _ _ => .after fun _ _ => .after fun _ _ => .pure (List.cons_ne_nil _ _)
  have hmade : ∀ (ascription : Option Ascription) {definition : TermDef}, definition.clauses ≠ [] →
      Statement.Made (DefinitionLine.statements { ascription := ascription, definition := some definition }) := by
    intro ascription definition hclauses
    cases ascription with
    | none =>
      refine ⟨List.cons_ne_nil _ _, fun statement hmem found hfound => ?_⟩
      obtain rfl := List.mem_singleton.1 hmem
      cases hfound
      exact hclauses
    | some ascription =>
      refine ⟨List.cons_ne_nil _ _, fun statement hmem found hfound => ?_⟩
      rcases List.mem_cons.1 hmem with rfl | hmem
      · cases hfound
      · obtain rfl := List.mem_singleton.1 hmem
        cases hfound
        exact hclauses
  refine .after fun name _ => .after fun _ _ => .ite (fun _ => ?_) fun _ => ?_
  · refine .after fun _ _ => .after fun _ _ => .after fun _ _ => .after fun _ _ =>
      .ite (fun _ => .after fun _ _ => .bind ((hbody _ _ _).mono (fun _ _ h => .pure (hmade _ h))
        fun _ _ h => h)) fun _ => .pure ?_
    exact Statement.made_singleton rfl
  · exact .after fun _ _ => .after fun _ _ => .bind ((hbody _ _ _).mono (fun _ _ h => .pure (hmade _ h))
      fun _ _ h => h)

theorem runs_statement_made : set.Runs (statement inner) state
    (fun statements _ => Statement.Made statements) fun _ _ => True := by
  have hdeclaration : ∀ {parser : Parser Declaration} {state},
      set.Runs parser state (fun declaration _ => declaration.definition? = none) (fun _ _ => True) →
      set.Runs (do return [Statement.ofDeclaration (← parser)] : Parser (List Statement)) state
        (fun statements _ => Statement.Made statements) fun _ _ => True :=
    fun h => .bind (h.mono (fun declaration _ hnone => .pure (Statement.made_singleton (by
      cases declaration <;> first | rfl | cases hnone))) fun _ _ h => h)
  refine .after fun token _ => ?_
  split
  · refine hdeclaration (.after fun _ _ => .after fun _ _ => .after fun _ _ => .after fun _ _ =>
      .after fun entries _ => .after fun _ _ => .after fun _ _ => ?_)
    dsimp only
    split
    · exact .pure rfl
    · exact .pure rfl
    · exact .after fun _ _ => .pure rfl
  · exact hdeclaration (.after fun _ _ => .after fun _ _ => .after fun _ _ => .after fun _ _ =>
      .after fun _ _ => .after fun _ _ => .after fun _ _ => .pure rfl)
  · exact hdeclaration (.after fun _ _ => .after fun _ _ => .after fun _ _ => .after fun _ _ =>
      .after fun _ _ => .after fun _ _ => .after fun _ _ => .after fun _ _ => .pure rfl)
  · exact hdeclaration (.after fun _ _ => .after fun _ _ => .after fun _ _ => .after fun _ _ =>
      .after fun _ _ => .after fun _ _ => .after fun _ _ => .after fun _ _ => .pure rfl)
  · exact .after fun _ _ => .throw trivial
  · refine .bind (.after fun _ _ => .after fun _ _ => .after fun _ _ => .pure (.pure ?_))
    exact Statement.made_singleton rfl
  · exact .after fun _ _ => .pure (Statement.made_singleton rfl)
  · refine .after fun stop _ => ?_
    have hdefinition : ∀ state, set.Runs (do
        return (← definition inner).statements : Parser (List Statement)) state
        (fun statements _ => Statement.Made statements) fun _ _ => True := fun state =>
      .bind (runs_definition_made.mono (fun _ _ h => .pure h) fun _ _ h => h)
    split
    · exact .after fun _ _ => .after fun _ _ => .after fun _ _ => .after fun _ _ => .after fun _ _ =>
        .pure (Statement.made_singleton rfl)
    · exact .ite (fun _ => .after fun _ _ => hdefinition _) fun _ => hdefinition _
    · exact .ite (fun _ => .after fun _ _ => hdefinition _) fun _ => hdefinition _
    · exact .after fun _ _ => .pure (Statement.made_singleton rfl)

/-! ### Rounds of which nothing is reported -/

variable {α : Type} {item : Parser α} {within : Enclosure} {what : String} {answers more : List α}

theorem runs_self {parser : Parser α} :
    set.Runs parser state (fun answer final => parser set.stream state = (.ok answer, final))
      fun abort final => parser set.stream state = (.error abort, final) := by
  unfold Runs
  split <;> assumption

/-- If nothing is reported of an item, it has been read, and has ended where it should. -/
theorem runs_attemptItem_of_quiet (hlt : state.position < set.stream.size) (hitem : set.Obeys true item)
    (hmuted : state.log.muted = 0) :
    set.Runs (attemptItem item within what answers) state (fun result middle =>
      middle.log.count = state.log.count → ∃ value last, item set.stream state = (.ok value, last) ∧
        result = (true, value :: answers) ∧ last.log.count = state.log.count ∧
        within.endsItem (set.stream.kind last.position) = true ∧ middle.position = last.position)
      fun _ _ => True := by
  have hrun : set.Runs item state _ _ := (hitem state hlt).and runs_self
  refine .bind (.bind (.get (.tryCatch (.map (hrun.mono (fun value last ⟨hreached, hvalue⟩ => ?_)
    fun abort last ⟨hstops, _⟩ => ?_)))))
  · have hend : set.Runs (recover (endItem within what)) last _ _ :=
      (runs_recover (proceeds_endItem hreached.lt)).and runs_recover_endItem
    refine .bind (hend.mono (fun ended middle ⟨⟨_, _, hcount, _, hreports⟩, hplace, hends⟩ =>
      .pure fun hquiet => ?_) fun _ _ _ => trivial)
    have hbefore := hreached.follows.count_le
    cases ended with
    | none =>
      have hmore := hreports rfl (hreached.follows.muted_eq.trans hmuted)
      omega
    | some _ => exact ⟨value, last, hvalue, rfl, by omega, hends.symm, hplace⟩
  · cases abort with
    | failed =>
      refine .bind (.get (.bind (.note (.pure (.pure fun hquiet => ?_)))))
      exact absurd hquiet (Nat.ne_of_gt (hstops.reports rfl hmuted))
    | _ => exact .throw trivial

/-- If nothing is reported in a round, it adds what has been read, up to where the next round begins. -/
theorem exists_of_nextItem (hlt : state.position < set.stream.size) (hitem : set.Obeys true item)
    (hmuted : state.log.muted = 0)
    (hnext : nextItem item within what answers set.stream state = (.ok more, final))
    (hquiet : final.log.count = state.log.count) :
    ∃ value last, item set.stream state = (.ok value, last) ∧ more = value :: answers ∧
      last.log.count = state.log.count ∧ within.endsItem (set.stream.kind last.position) = true ∧
      final.position = set.stream.skipWhile (·.separates within.commas) last.position := by
  have hattempted : set.Runs (attemptItem item within what answers) state _ _ :=
    (runs_attemptItem (hitem state hlt)).and (runs_attemptItem_of_quiet hlt hitem hmuted)
  rw [nextItem_apply, settle_apply] at hnext
  unfold Runs at hattempted
  cases hattempt : attemptItem item within what answers set.stream state with
  | mk result middle =>
    rw [hattempt] at hnext hattempted
    cases result with
    | error abort => cases hnext
    | ok result =>
      obtain ⟨hsettled, hread⟩ := hattempted
      obtain ⟨ended, given⟩ := result
      cases ended with
      | false =>
        obtain ⟨-, rfl⟩ := Prod.mk.inj hnext
        have hreports := hsettled.reports rfl hmuted
        exact absurd hquiet (Nat.ne_of_gt hreports)
      | true =>
        obtain ⟨hgiven, rfl⟩ := Prod.mk.inj hnext
        obtain ⟨value, last, hvalue, hresult, hcount, hends, hplace⟩ := hread hquiet
        obtain rfl : given = value :: answers := (Prod.mk.inj hresult).2
        exact ⟨value, last, hvalue, (Except.ok.inj hgiven).symm, hcount, hends, by rw [← hplace]⟩

/-- If nothing is reported in some rounds, they add what has been read, one item each. -/
theorem exists_of_rounds (hpart : set.IsPart within) (hitem : set.Obeys true item)
    (h : Rounds set.stream item within what answers state more final)
    (hbetween : set.Between within state) (hmuted : state.log.muted = 0)
    (hquiet : final.log.count = state.log.count) :
    ∃ added, more = added ++ answers ∧
      (∀ value ∈ added, ∃ state last, item set.stream state = (.ok value, last)) ∧
      (state.position < final.position → added ≠ []) := by
  induction h with
  | refl => exact ⟨[], rfl, nofun, fun hlt => absurd hlt (Nat.lt_irrefl _)⟩
  | head hstarts hnext hlt hrest ih =>
    have hreached := reached_of_nextItem hpart hitem hbetween hstarts hnext
    have hbetween' := hreached.between hbetween
    have hafter := (reached_of_rounds hpart hitem hrest hbetween').1
    have hcount := hreached.follows.count_le
    have hcount' := hafter.follows.count_le
    obtain ⟨value, last, hvalue, rfl, -⟩ := exists_of_nextItem hbetween.lt hitem hmuted hnext (by omega)
    obtain ⟨added, rfl, hadded, -⟩ := ih hbetween' (hreached.follows.muted_eq.trans hmuted) (by omega)
    refine ⟨added ++ [value], by simp, fun other hmem => ?_, fun _ => by simp⟩
    rcases List.mem_append.1 hmem with hmem | hmem
    · exact hadded other hmem
    · rw [List.mem_singleton.1 hmem]
      exact ⟨_, last, hvalue⟩

end Setting

/-! ### The value and its definition -/

/-- Reading a source as a single production: there is nothing but separators around it. -/
theorem Parser.whole_eq_ok_iff {α : Type} {parser : Parser α} {stream : TokenStream}
    {state final : ParserState} {value : α} :
    whole parser stream state = (.ok value, final) ↔ ∃ middle,
      parser stream (state.skip stream) = (.ok value, middle) ∧
      stream.kind (middle.skip stream).position = .endOfFile ∧ final = middle.skip stream := by
  have hinside : whole parser stream state = boundNesting (do
      let answer ← parser
      skipSeparators false
      if !(← isAt .endOfFile) then unexpected ["end of input"] ""
      return answer) stream (state.skip stream) := rfl
  rw [hinside]
  constructor
  · intro h
    replace h := boundNesting_eq_ok h
    rw [bind_apply] at h
    split at h
    · next answer middle hparser =>
      replace h : (if !(stream.kind (middle.skip stream).position == .endOfFile) then
          unexpected ["end of input"] "" >>= fun _ => pure answer
        else pure answer : Parser α) stream (middle.skip stream) = _ := h
      split at h
      · cases h
      · next hend =>
        obtain ⟨hvalue, rfl⟩ := Prod.mk.inj h
        cases hvalue
        exact ⟨middle, hparser, by simpa using hend, rfl⟩
    · cases h
  · rintro ⟨middle, hparser, hend, rfl⟩
    have hrun : (do
        let answer ← parser
        skipSeparators false
        if !(← isAt .endOfFile) then unexpected ["end of input"] ""
        return answer) stream (state.skip stream) = (.ok value, middle.skip stream) := by
      rw [bind_apply, hparser]
      show (if !(stream.kind (middle.skip stream).position == .endOfFile) then
          unexpected ["end of input"] "" >>= fun _ => pure value
        else pure value : Parser α) stream (middle.skip stream) = _
      rw [hend]
      rfl
    rw [boundNesting, tryCatch_apply, hrun]

/-- In front of what is no separator the line breaks are all that is passed over. -/
theorem TokenStream.skipWhile_separates {stream : TokenStream} {position : Nat}
    (h : stream.kind (stream.skipWhile (· == .newline) position) ≠ .semicolon) :
    stream.skipWhile (·.separates false) position = stream.skipWhile (· == .newline) position := by
  fun_induction TokenStream.skipWhile stream (· == .newline) position with
  | case1 position hlt hmember ih =>
    rw [TokenStream.skipWhile, if_pos hlt, if_pos (by rw [beq_iff_eq.1 hmember]; rfl)]
    exact ih h
  | case2 position hlt hmember =>
    rw [TokenStream.skipWhile, if_pos hlt, if_neg]
    intro hseparates
    generalize stream.kind position = kind at *
    cases kind with
    | newline => exact hmember rfl
    | semicolon => exact h rfl
    | _ => cases hseparates
  | case3 position hge => rw [TokenStream.skipWhile, if_neg hge]

section

variable {stream other : TokenStream} {relocation : Relocation}

/-- The value is read behind the sign as it is read alone. -/
theorem TokenStream.Defines.exists_run (h : stream.Defines other relocation) (balanced : stream.Balanced)
    (balanced' : other.Balanced) (budget : Nat) {log : Log} (hmuted : log.muted = 0)
    (history : List ParserEvent) :
    let first := stream.skipWhile (· == .newline) 0
    let run := produce budget (.expression 0) stream { ParserState.initial with position := first }
    ∃ final, produce budget (.expression 0) other
        { position := first + 2, log := log, history := history } =
          (run.1.map (Expr.relocate relocation), final) ∧
      final.log.diagnostics.toList =
        log.diagnostics.toList ++ relocation.move run.2.log.diagnostics.toList ∧
      final.log.muted = 0 ∧ run.2.log.muted = 0 ∧ final.position = run.2.position + 2 ∧
      run.2.position < stream.size := by
  intro first run
  let set := Entry.expression.setting balanced
  have hends : set.EndsLike other relocation first (first + 2) := endsLike_of_defines h balanced'
  have hobeys : set.Obeys true (produce budget (.expression 0)) :=
    obeys_produce Or.inr Abort.Arises.tooDeep budget (.expression 0)
  have hproceeds := hobeys { ParserState.initial with position := first } hends.lt
  have hafter : run.2.position < stream.size ∧ run.2.log.muted = 0 :=
    hproceeds.elim (motive := fun _ final => final.position < stream.size ∧ final.log.muted = 0)
      (fun _ _ hreached => ⟨hreached.lt, hreached.follows.muted_eq⟩)
      fun _ _ hstops => ⟨hstops.within.lt, hstops.follows.muted_eq⟩
  obtain ⟨final, reports, heq, hleft, hright, hsame, hplace⟩ := @EndsLike.mirrored_at set other relocation
    Expr _ (produce budget (.expression 0)) (produce budget (.expression 0))
    { ParserState.initial with position := first } { position := first + 2, log := log, history := history }
    hends hmuted
    (fun P _ _ _ _ _ => (P.nestsAlike_ofRules Or.inr Abort.Arises.tooDeep budget).expression 0 _
      hends.lt fun _ => rfl) hafter.1
  obtain rfl : run.2.log.diagnostics.toList = reports := hleft
  refine ⟨final, heq, hright, hsame.trans hafter.2, hafter.2, ?_, hafter.1⟩
  have hplace : final.position + first = first + 2 + run.2.position := hplace
  omega

/-- In front of the name there is nothing, and no header. -/
theorem TokenStream.Defines.exists_opening (h : stream.Defines other relocation) (balanced : other.Balanced) :
    ∃ within first, moduleOpening other .initial = (.ok (none, within), first) ∧
      first.position = 0 ∧ first.log = ParserState.initial.log := by
  have hname : other.kind 0 = .identifier := congrArg Word.kind h.name
  have hnone : other.skipWhile (·.separates false) 0 = 0 :=
    skipWhile_eq_self (by rw [hname]; rfl)
  obtain ⟨within, first, hopening, hposition, hlog⟩ := @exists_opening_of_ne
    (Entry.module.setting balanced) (by
      show other.kind (other.skipWhile _ 0) ≠ _
      rw [hnone, hname]
      exact TokenKind.noConfusion)
  exact ⟨within, first, hopening, hposition.trans hnone, hlog⟩

/-- The only declaration of a module is the definition of `x` by a body. -/
def Module.DefinesOnly (source : Module) (body : Expr) : Prop :=
  ∃ span span', source.declarations = [.definition {
    name := "x", clauses := [{ patterns := [], body := body, span := span }], span := span' }]

/-- A fact that holds wherever a parser gives up holds wherever it gives up at the limit of nesting. -/
theorem Setting.Runs.boundNesting {α : Type} {set : Setting} {parser : Parser α} {state : ParserState}
    {returns : α → ParserState → Prop} {stops : Prop}
    (h : set.Runs parser state returns fun _ _ => stops) :
    set.Runs (Parser.boundNesting parser) state returns fun _ _ => stops := by
  refine .tryCatch (h.mono (fun _ _ h => h) fun abort final hstops => ?_)
  cases abort with
  | tooDeep => exact hstops
  | _ => exact .throw hstops

/-- The item at the top is the definition by what is read as the value. -/
theorem TokenStream.Defines.runs_moduleItem (h : stream.Defines other relocation)
    (balanced : stream.Balanced) (balanced' : other.Balanced) {budget : Nat}
    (hbudget : nestingBudget = budget + 1) {state : ParserState} (hposition : state.position = 0)
    (hmuted : state.log.muted = 0) :
    let run : Except Abort Expr × ParserState := produce budget (.expression 0) stream
      { ParserState.initial with position := stream.skipWhile (· == .newline) 0 }
    (Entry.module.setting balanced').Runs moduleItem state
      (fun statements final => ∃ body middle, run = (.ok body, middle) ∧ middle.position < stream.size ∧
        statements = [.ofDefinition (.plain (other.token 0) (relocation.move body)
          ((other.token 0).span.join (other.token (final.position - 1)).span))] ∧
        final.position = middle.position + 2 ∧ final.log =
          (relocation.move middle.log.diagnostics.toList).foldl Log.report state.log)
      fun _ _ => ∃ abort, run.1 = .error abort := by
  intro run
  obtain ⟨position, log, history⟩ := state
  obtain rfl : position = 0 := hposition
  let set := Entry.module.setting balanced'
  have hname : set.stream.kind 0 = .identifier := congrArg Word.kind h.name
  have hfirst : set.stream.skipWhile (· == .newline) (0 + 2) = stream.skipWhile (· == .newline) 0 + 2 :=
    h.skipWhile_add _ 0
  have hvalue : set.Runs (α := Expr) (produce budget (.expression 0))
      { position := stream.skipWhile (· == .newline) 0 + 2, log := log, history := history }
      (fun body final => ∃ value middle, run = (.ok value, middle) ∧ middle.position < stream.size ∧
        body = relocation.move value ∧ final.position = middle.position + 2 ∧
        final.log = (relocation.move middle.log.diagnostics.toList).foldl Log.report log)
      fun _ _ => ∃ abort, run.1 = .error abort := by
    obtain ⟨final, hfinal, hreports, hmuted', -, hplace, hlt⟩ :=
      h.exists_run balanced balanced' budget hmuted history
    unfold Setting.Runs
    rw [show produce budget (.expression 0) set.stream _ = _ from hfinal]
    generalize hrun : produce budget (.expression 0) stream _ = value at *
    obtain ⟨result, middle⟩ := value
    cases result with
    | error abort => exact ⟨abort, congrArg Prod.fst hrun⟩
    | ok value => exact ⟨value, middle, hrun, hlt, rfl, hplace, Log.eq_foldl_report hmuted hmuted' hreports⟩
  refine .boundNesting ?_
  rw [hbudget]
  refine runs_statement_of_assign hname h.sign ?_
  dsimp only
  rw [hfirst]
  refine hvalue.mono ?_ fun _ _ h => h
  rintro body final ⟨value, middle, hrun, hlt, rfl, hplace, hlog⟩
  exact ⟨value, middle, hrun, hlt, rfl, hplace, hlog⟩

/-- A loop over items ends in front of the end of the source. -/
theorem Parser.moduleRest_done {within : Enclosure} {answers : List (List Statement)} {state : ParserState}
    (hkind : stream.kind state.position = .endOfFile) (count : Nat) :
    moduleRest within (count + 1) answers stream state =
      (.ok (Statement.declarations answers.reverse.flatten), ParserState.reportAll
        { state with history := .finished within state.position :: state.history }
        (Statement.reportsAtTop answers.reverse.flatten)) := by
  have hstarts : startsItem within stream state = (.ok false, state) := by
    rw [startsItem_apply, hkind, beq_self_eq_true, Bool.or_true]
    rfl
  rw [moduleRest_apply, repeatWhile.iterate, bind_apply, hstarts]
  rfl

/-- What is read as a value is read as its definition. -/
theorem TokenStream.Defines.moduleSource_of_whole (h : stream.Defines other relocation)
    (balanced : stream.Balanced) (balanced' : other.Balanced)
    (hleads : stream.kind (stream.skipWhile (· == .newline) 0) ≠ .semicolon) {budget : Nat}
    (hbudget : nestingBudget = budget + 1) {value : Expr} {final : ParserState}
    (hrun : whole (α := Expr) (produce budget (.expression 0)) stream .initial = (.ok value, final)) :
    ∃ source last, moduleSource other .initial = (.ok source, last) ∧
      source.DefinesOnly (relocation.move value) ∧
      last.log.diagnostics.toList = relocation.move final.log.diagnostics.toList := by
  obtain ⟨middle, hparser, hend, rfl⟩ := whole_eq_ok_iff.1 hrun
  rw [ParserState.skip, show stream.skipWhile (·.separates false) ParserState.initial.position =
    stream.skipWhile (· == .newline) 0 from skipWhile_separates hleads] at hparser
  have hlt : middle.position < stream.size := by
    obtain ⟨-, -, -, -, -, -, hlt⟩ := h.exists_run balanced balanced' budget
      (show ParserState.initial.log.muted = 0 from rfl) []
    rwa [hparser] at hlt
  let set := Entry.module.setting balanced'
  obtain ⟨within, ⟨position, log, history⟩, hopening, rfl, rfl⟩ := h.exists_opening balanced'
  have hpart : set.Runs moduleOpening .initial _ _ := runs_moduleOpening
  obtain ⟨⟨-, hcloser, hcommas⟩, -, -, -, hmuted⟩ := hpart.returns hopening
  let definition : TermDef := .plain (other.token 0) (relocation.move value)
    ((other.token 0).span.join (other.token (middle.position + 2 - 1)).span)
  let later := (relocation.move middle.log.diagnostics.toList).foldl Log.report ParserState.initial.log
  have hread : set.Leaves ParserState.initial.log moduleItem 0 [.ofDefinition definition]
      (middle.position + 2) later := by
    intro history
    refine (@Defines.runs_moduleItem _ _ _ h balanced balanced' _ hbudget
      ⟨0, ParserState.initial.log, history⟩ rfl rfl).mono ?_ ?_
    · rintro statements final ⟨body, last, hbody, -, rfl, hplace, hreports⟩
      obtain ⟨hvalue, rfl⟩ := Prod.mk.inj (hparser.symm.trans hbody)
      obtain rfl := Except.ok.inj hvalue
      exact ⟨by rw [hplace], hplace, hreports⟩
    · rintro abort final ⟨abort, hfails⟩
      rw [hparser] at hfails
      cases hfails
  -- behind it there is nothing but separators
  have hstop : other.kind (middle.position + 2) = .endOfFile ∨
      (other.kind (middle.position + 2)).separates false = true := by
    rw [h.kind_add hlt]
    refine (Bool.eq_false_or_eq_true ((stream.kind middle.position).separates false)).symm.imp_left
      fun hseparates => ?_
    have hsame : (middle.skip stream).position = middle.position := skipWhile_eq_self hseparates
    rwa [hsame] at hend
  have hlast := (@within_skipWhile stream (·.separates false) _
    (fun _ => TokenKind.isPlain_of_separates) hlt).1.lt
  have hend' : other.kind (other.skipWhile (·.separates false) (middle.position + 2)) = .endOfFile := by
    rw [h.skipWhile_add, h.kind_add hlast]
    exact hend
  obtain ⟨closed, hrounds, hlogged, hclosed⟩ := @Leaves.exists_round _ set _ within _
    ⟨0, ParserState.initial.log, history⟩ _ _ hread "declaration" [] (Nat.zero_lt_succ _)
    (by rw [show set.stream.kind 0 = .identifier from congrArg Word.kind h.name]; rfl)
    (by rw [hcloser]; rfl) (by rw [hcloser, hcommas]; exact hstop)
  replace hclosed : closed.position = other.skipWhile (·.separates false) (middle.position + 2) := by
    rw [hclosed, hcommas]
    rfl
  obtain ⟨taken, htaken, hrest⟩ := hrounds.moduleRest_eq
  rw [hclosed, h.skipWhile_add, Nat.zero_add] at htaken
  obtain ⟨count, hcount⟩ := Nat.exists_eq_add_of_lt
    (show taken < other.size by have := h.size_eq; omega)
  have hdone := (hrest (count + 1)).trans (moduleRest_done (by rw [hclosed]; exact hend') count)
  rw [← Nat.add_assoc, ← hcount] at hdone
  rw [moduleSource_apply, hopening]
  dsimp only
  rw [show moduleRest within other.size [] other _ = _ from hdone]
  refine ⟨_, _, rfl, ⟨definition.span, definition.span, ?_⟩, ?_⟩
  · show _ = [Declaration.definition { definition with name := "x" }]
    rw [show "x" = (other.token 0).value from (congrArg Word.value h.name).symm]
    rfl
  · have hmutedLast : closed.log.muted = 0 := by
      rw [hlogged]
      exact (@ParserState.reportAll_log ParserState.initial rfl _).2
    rw [(ParserState.reportAll_log (show ({ closed with
      history := .finished within closed.position :: closed.history } : ParserState).log.muted = 0
        from hmutedLast) _).1]
    show closed.log.diagnostics.toList ++ [] = _
    rw [List.append_nil, hlogged]
    exact (@ParserState.reportAll_log ParserState.initial rfl _).1

/-- The items at the top are something, and each of their definitions has a clause. -/
theorem Setting.runs_moduleItem_made {set : Setting} {state : ParserState} :
    set.Runs moduleItem state (fun statements _ => Statement.Made statements) fun _ _ => True := by
  refine .boundNesting ?_
  rw [show nestingBudget = nestingBudget - 1 + 1 from rfl]
  exact runs_statement_made

/-- If nothing is reported of a module, and a definition is all that is left of it, that has been its only
item. -/
theorem Setting.Quiet.exists_sole {set : Setting} {source : Module} {body : Expr}
    (quiet : Quiet set.stream source) (hwarns : set.Warns) (hdeep : set.allows .tooDeep)
    (honly : source.DefinesOnly body) :
    ∃ found last, moduleItem set.stream quiet.first = (.ok [.ofDefinition found], last) ∧
      found.clauses.map Clause.body = [body] ∧ last.log.diagnostics = #[] ∧
      set.stream.kind (set.stream.skipWhile (·.separates false) last.position) = .endOfFile := by
  obtain ⟨within, first, last, answers, hopens, hrounds, hend, hempty, hreports, hleft⟩ := quiet
  have hopening : set.Runs moduleOpening .initial _ _ := runs_moduleOpening
  obtain ⟨⟨-, -, hcommas⟩, hpart, hbetween, -, hmuted⟩ := hopening.returns hopens
  have hitem := obeys_moduleItem hwarns hdeep
  obtain ⟨span, span', hdeclarations⟩ := honly
  rw [hleft] at hdeclarations
  have hcount : last.log.count = 0 := by
    rw [Log.count, hempty]
    rfl
  cases hrounds with
  | refl => cases hdeclarations
  | head hstarts hnext hlt hrest =>
    have hreached := reached_of_nextItem hpart hitem hbetween hstarts hnext
    have hbetween' := hreached.between hbetween
    have hbefore := hreached.follows.count_le
    have hafter := (reached_of_rounds hpart hitem hrest hbetween').1.follows.count_le
    obtain ⟨statements, final, hread, rfl, hquiet, -, hplace⟩ :=
      exists_of_nextItem hbetween.lt hitem hmuted hnext (by omega)
    obtain ⟨added, rfl, hadded, hmore⟩ := exists_of_rounds hpart hitem hrest hbetween'
      (hreached.follows.muted_eq.trans hmuted) (by omega)
    have hmade : ∀ group ∈ added ++ [statements], Statement.Made group := by
      intro group hmem
      rcases List.mem_append.1 hmem with hmem | hmem
      · obtain ⟨_, _, hrun⟩ := hadded group hmem
        exact (@runs_moduleItem_made set _).returns hrun
      · rw [List.mem_singleton.1 hmem]
        exact runs_moduleItem_made.returns hread
    obtain ⟨found, hfound, -, hclauses⟩ := Statement.eq_of_declarations hreports hdeclarations rfl
      fun statement hmem => by
        obtain ⟨group, hgroup, hmem⟩ := List.mem_flatten.1 hmem
        exact (hmade group (List.mem_reverse.1 hgroup)).2 statement hmem
    -- one statement leaves no room for another item
    rw [List.reverse_append, List.reverse_singleton, List.singleton_append, List.flatten_cons] at hfound
    have hsome := (hmade statements (List.mem_append_right _ (List.mem_singleton_self _))).1
    obtain ⟨rfl, hnone⟩ : statements = [.ofDefinition found] ∧ added.reverse.flatten = [] := by
      rcases List.append_eq_singleton_iff.1 hfound with ⟨hnil, -⟩ | hsplit
      · exact absurd hnil hsome
      · exact hsplit
    have hadded : added = [] := List.eq_nil_iff_forall_not_mem.2 fun group hmem =>
      (hmade group (List.mem_append_left _ hmem)).1
        (List.flatten_eq_nil_iff.1 hnone group (List.mem_reverse.2 hmem))
    have hlast := Nat.le_antisymm (Nat.le_sub_one_of_lt hbetween'.lt)
      (hend ▸ Nat.not_lt.1 fun hlt => hmore hlt hadded)
    refine ⟨found, final, hread, by rw [hclauses]; rfl, ?_, ?_⟩
    · have hsize : final.log.count = 0 := by omega
      exact Array.eq_empty_of_size_eq_zero hsize
    · rw [← hcommas, ← hplace, hlast]
      exact set.stream.kind_last

/-- What is read as the only definition of a module is read as a value. -/
theorem TokenStream.Defines.whole_of_moduleSource (h : stream.Defines other relocation)
    (balanced : stream.Balanced) (balanced' : other.Balanced)
    (hleads : stream.kind (stream.skipWhile (· == .newline) 0) ≠ .semicolon) {budget : Nat}
    (hbudget : nestingBudget = budget + 1) {source : Module} {body : Expr} {final : ParserState}
    (hrun : moduleSource other .initial = (.ok source, final)) (hquiet : final.log.diagnostics = #[])
    (honly : source.DefinesOnly body) :
    ∃ value last, whole (α := Expr) (produce budget (.expression 0)) stream .initial = (.ok value, last) ∧
      last.log.diagnostics = #[] ∧ body = relocation.move value := by
  let set := Entry.module.setting balanced'
  have hwarns : set.Warns := Or.inr
  have hdeep : set.allows .tooDeep := Abort.Arises.tooDeep
  obtain ⟨quiet⟩ := exists_quiet hwarns hdeep (show moduleSource set.stream _ = _ from hrun) hquiet
  obtain ⟨_, first, hopening, hposition, hlog⟩ := h.exists_opening balanced'
  obtain rfl : quiet.first = first := congrArg Prod.snd (quiet.opening.symm.trans hopening)
  have hmuted : quiet.first.log.muted = 0 := by
    rw [hlog]
    rfl
  obtain ⟨found, last, hread, hbody, hempty, hend⟩ := quiet.exists_sole hwarns hdeep honly
  obtain ⟨value, middle, hvalue, hlt, hfound, hplace, hreported⟩ :=
    (h.runs_moduleItem balanced balanced' hbudget hposition hmuted).returns hread
  refine ⟨value, middle.skip stream, whole_eq_ok_iff.2 ⟨middle, ?_, ?_, rfl⟩, ?_, ?_⟩
  · rw [ParserState.skip, show stream.skipWhile (·.separates false) ParserState.initial.position =
      stream.skipWhile (· == .newline) 0 from skipWhile_separates hleads]
    exact hvalue
  · have hafter := (@within_skipWhile stream (·.separates false) _
      (fun _ => TokenKind.isPlain_of_separates) hlt).1.lt
    rw [hplace, show set.stream.skipWhile _ _ = _ from h.skipWhile_add _ _] at hend
    exact (h.kind_add hafter).symm.trans hend
  · have hlogged := (congrArg (·.diagnostics.toList) hreported).trans (@ParserState.reportAll_log quiet.first
      hmuted (relocation.move middle.log.diagnostics.toList)).1
    rw [hempty] at hlogged
    exact Array.toList_eq_nil_iff.1 (List.map_eq_nil_iff.1 (List.append_eq_nil_iff.1 hlogged.symm).2)
  · obtain rfl := Option.some.inj (congrArg Statement.definition? (List.cons.inj hfound).1)
    exact (List.cons.inj hbody).1.symm

end

/-! ### Texts -/

/-- What a text is parsed to as an expression is, but for its places, the only definition that its module
behind `x = ` has: if it does not begin with a semicolon, and if one level of nesting is left for the
definition. -/
theorem parseExpression_soleDefinition {text file : String}
    (hleads : ∀ tokens, Token.ofText text file = .ok tokens →
      (tokens.find? (·.kind != .newline)).map Token.kind ≠ some .semicolon) :
    (∀ value, parseWhole (α := Expr) (produce (nestingBudget - 1) (.expression 0)) text file = .ok value →
      parseExpression text file = .ok value ∧ ∃ result source body,
        parseSource ("x = " ++ text) file = .ok result ∧ result.ok = true ∧
        result.module? = some source ∧ source.DefinesOnly body ∧
        value.outline.sameStructure body.outline = true) ∧
    ∀ result source body, parseSource ("x = " ++ text) file = .ok result → result.diagnostics = [] →
      result.module? = some source → source.DefinesOnly body → ∃ value,
        parseExpression text file = .ok value ∧ value.outline.sameStructure body.outline = true := by
  have hbudget : nestingBudget = nestingBudget - 1 + 1 := rfl
  have houtlasts : ∀ value,
      parseWhole (α := Expr) (produce (nestingBudget - 1) (.expression 0)) text file = .ok value →
        parseExpression text file = .ok value := fun value =>
    parseWhole_of_outlasts (outlasts_produce (nestingBudget - 1) (.expression 0))
  have hkind : ∀ {tokens stream}, Token.ofText text file = .ok tokens →
      TokenStream.ofTokens? tokens = some stream → stream.tokens = tokens →
      stream.kind (stream.skipWhile (· == .newline) 0) ≠ .semicolon := by
    intro tokens stream hlexes hstream htokens
    have hfind := @find?_skipWhile stream (· == .newline) rfl 0 stream.size_pos
    rw [List.drop_zero, Array.find?_toList, htokens] at hfind
    have hleads := hleads tokens hlexes
    rw [show (fun token : Token => token.kind != .newline) = fun token => !(token.kind == .newline)
      from rfl, hfind] at hleads
    exact fun heq => hleads (congrArg some heq)
  have hsame : ∀ (relocation : Relocation) (value : Expr),
      value.outline.sameStructure (relocation.move value).outline = true :=
    Relocation.sameStructure_move fun _ => Expr.outline_relocate
  constructor
  · intro value hparse
    refine ⟨houtlasts value hparse, ?_⟩
    cases hlexes : Token.ofText text file with
    | error error =>
      unfold parseWhole at hparse
      rw [hlexes] at hparse
      cases hparse
    | ok tokens =>
      obtain ⟨stream, hstream, htokens, balanced⟩ := TokenStream.exists_of_ofText hlexes
      obtain ⟨defining, hlexes', hdefines⟩ := Token.exists_defining hlexes
      obtain ⟨other, hother, htokens', balanced'⟩ := TokenStream.exists_of_ofText hlexes'
      rw [← htokens, ← htokens'] at hdefines
      obtain ⟨relocation, hdefines⟩ := hdefines.exists_defines
      obtain ⟨final, hrun, herrors⟩ := exists_whole_of_parseWhole hlexes hstream hparse
      obtain ⟨source, last, hmodule, honly, hreports⟩ := hdefines.moduleSource_of_whole balanced balanced'
        (hkind hlexes hstream htokens) hbudget hrun
      refine ⟨_, source, relocation.move value, parseSource_eq_ok hlexes' hother hmodule, ?_, rfl, honly,
        hsame relocation value⟩
      have hnone : last.log.diagnostics.toList.filter (·.isError) = [] := by
        rw [hreports, Relocation.move_filter fun _ => rfl, herrors]
        rfl
      show ((some source).isSome && (last.log.diagnostics.toList.filter (·.isError)).isEmpty) = true
      rw [hnone]
      rfl
  · intro result source body hparse hquiet hmodule honly
    cases hlexes' : Token.ofText ("x = " ++ text) file with
    | error error =>
      unfold parseSource at hparse
      rw [hlexes'] at hparse
      cases hparse
      cases hquiet
    | ok defining =>
      obtain ⟨tokens, hlexes, hdefines⟩ := Token.exists_defined hlexes'
      obtain ⟨stream, hstream, htokens, balanced⟩ := TokenStream.exists_of_ofText hlexes
      obtain ⟨other, source', final, -, htokens', balanced', hrun, hmodule', hreports⟩ :=
        exists_moduleSource_of_parseSource hlexes' hparse
      rw [← htokens, ← htokens'] at hdefines
      obtain ⟨relocation, hdefines⟩ := hdefines.exists_defines
      obtain rfl : source' = source := Option.some.inj (hmodule'.symm.trans hmodule)
      rw [hreports] at hquiet
      obtain ⟨value, last, hwhole, hempty, rfl⟩ := hdefines.whole_of_moduleSource balanced balanced'
        (hkind hlexes hstream htokens) hbudget hrun (Array.toList_eq_nil_iff.1 hquiet) honly
      refine ⟨value, houtlasts value (parseWhole_of_errorless hlexes hstream hwhole ?_), hsame _ value⟩
      rw [hempty]
      rfl

/-- A section behind a line break. -/
theorem exists_parseExpression_soleDefinition :
    ∃ value result source body, parseExpression "\n[+ 1] a" "f" = .ok value ∧
      parseSource ("x = " ++ "\n[+ 1] a") "f" = .ok result ∧ result.diagnostics = [] ∧
      result.module? = some source ∧ source.DefinesOnly body ∧
      value.outline.sameStructure body.outline = true := by
  have hlexes : (Token.ofText "\n[+ 1] a" "f").toOption.any (fun tokens =>
      (tokens.find? (·.kind != .newline)).map Token.kind != some .semicolon) = true := by
    decide +kernel
  have hvalue : (parseWhole (α := Expr) (produce (nestingBudget - 1) (.expression 0)) "\n[+ 1] a"
      "f").toOption.isSome = true := by decide +kernel
  have hquiet : (parseSource ("x = " ++ "\n[+ 1] a") "f").toOption.any (·.diagnostics.isEmpty) = true := by
    decide +kernel
  have hboth := @parseExpression_soleDefinition "\n[+ 1] a" "f" (by
    intro tokens htokens
    rw [htokens] at hlexes
    exact bne_iff_ne.1 hlexes)
  cases h : parseWhole (α := Expr) (produce (nestingBudget - 1) (.expression 0)) "\n[+ 1] a" "f" with
  | error error =>
    rw [h] at hvalue
    cases hvalue
  | ok value =>
    obtain ⟨-, result, source, body, hparse, -, hmodule, honly, -⟩ := hboth.1 value h
    rw [hparse] at hquiet
    have hempty : result.diagnostics = [] := List.isEmpty_iff.1 hquiet
    obtain ⟨value, hvalue, hsame⟩ := hboth.2 result source body hparse hempty hmodule honly
    exact ⟨value, result, source, body, hvalue, hparse, hempty, hmodule, honly, hsame⟩

end SableFrontend
