import SableFrontend.Proofs.Grammar.Level
import SableFrontend.Proofs.Parallel.Surroundings
import SableFrontend.Proofs.Tree.Annotation

/-!
The spellings of an annotated definition. The type of a definition may stand alone on the line in front of
it, with the name of the definition or without, or on its line if it has no parameters
(`AnnotatedDefinition.Spelled`). Each spelling is read as an annotation and a definition behind it
(`Spelled.rounds`), with the same reports as the value of the definition by itself.
-/

namespace SableFrontend

open TokenStream SableFrontend.Parser Setting

/-! ### Parts of definitions that stand somewhere -/

/-- What recurs lies on one level. -/
theorem Setting.Recurs.level_other {set : Setting} {other : TokenStream} {relocation : Relocation}
    {first start length : Nat} (h : set.Recurs other relocation first start length) :
    other.Level start (start + length) :=
  ⟨h.within_other, h.opened_add⟩

/-- What stands at the level of a stretch stands at the level of where it recurs. -/
theorem Setting.Recurs.shallow {set : Setting} {other : TokenStream} {relocation : Relocation}
    {first start length : Nat} (h : set.Recurs other relocation first start length)
    {isMember : TokenKind → Bool} (hshallow : set.stream.Shallow isMember first (first + length)) :
    other.Shallow isMember start (start + length) := by
  intro k hfirst hlast hsame hplain
  obtain ⟨offset, rfl⟩ := Nat.exists_eq_add_of_le hfirst
  have hlt : offset < length := Nat.lt_of_add_lt_add_left hlast
  obtain ⟨inner, hleft, hright⟩ := h.exists_opened (Nat.le_of_lt hlt)
  have hinner : inner = [] := List.append_left_eq_self.1 (hright.symm.trans hsame)
  rw [h.kind_eq hlt] at hplain ⊢
  refine hshallow (first + offset) (Nat.le_add_right ..) (Nat.add_lt_add_left hlt first) ?_ hplain
  rw [hleft, hinner]
  rfl

/-- Parameters do the same on both streams. -/
theorem Parallel.agrees_parameters {set : Setting} (P : Parallel set) (hdeep : set.allows .tooDeep)
    (budget : Nat) {state : ParserState} (hlt : state.position < set.stream.size)
    (hbase : P.base ≤ state.position) :
    P.Agrees never (parameters budget) (parameters budget) state := by
  have hinner : set.Obeys true (patternAt budget) := obeys_patternAt hdeep budget
  rw [parameters_eq]
  exact .collectWhile (fun _ hs => (obeys_startsPatternAtom _ hs.lt).test)
    (fun _ hs _ => obeys_patternAtom hinner _ hs.lt) (fun _ _ => agrees_startsPatternAtom)
    (fun s hs _ => @mirrors_patternAtom _ P _ false hinner (P.mirrors_patternAt hdeep budget) s
      hs.lt nofun) hlt hbase

section

variable {set : Setting} {relocation : Relocation} {start budget : Nat} {log : Log}

/-- A type that is accepted by itself is read wherever it stands, but in front of a colon. -/
theorem Accepted.reads_type (accepted : Accepted (typeAt budget .type))
    (h : accepted.StandsIn set.stream relocation start)
    (hcolon : set.stream.kind (start + accepted.length) ≠ .colon) (hlog : log.muted = 0) :
    set.Reads log (typeAt budget .type) start (relocation.move accepted.value)
      (start + accepted.length) :=
  accepted.reads_of_agrees h (obeys_typeAt Abort.Arises.tooDeep budget .type)
    (fun P _ hend => @Parallel.mirrors_typeAt _ P true Abort.Arises.tooDeep budget .type .initial
      accepted.source.size_pos (fun _ => rfl) (Or.inl (hend ▸ hcolon))) hlog

/-- Parameters that are accepted by themselves are read wherever they stand. -/
theorem Accepted.reads_parameters (accepted : Accepted (parameters budget))
    (h : accepted.StandsIn set.stream relocation start) (hlog : log.muted = 0) :
    set.Reads log (collectWhile startsPatternAtom (patternAtom (patternAt budget))) start
      (relocation.move accepted.value) (start + accepted.length) := by
  rw [← parameters_eq]
  exact accepted.reads_of_agrees h (obeys_parameters Abort.Arises.tooDeep budget)
    (fun P hbase _ => P.agrees_parameters Abort.Arises.tooDeep budget accepted.source.size_pos
      (Nat.le_of_eq hbase)) hlog

/-- Of no tokens no parameters are made. -/
theorem Accepted.value_eq_nil (accepted : Accepted (parameters budget)) (h : accepted.length = 0) :
    accepted.value = [] := by
  obtain ⟨history, hrun⟩ := accepted.exists_run (obeys_parameters Abort.Arises.tooDeep budget)
  have hend : accepted.source.kind 0 = .endOfFile := h ▸ accepted.kind_length
  have hanswers : accepted.setting.Answers
      (collectWhile startsPatternAtom (patternAtom (patternAt budget))) .initial
      fun answer _ => answer = [] := by
    refine .bind (.repeatWhile_done ?_ (.pure rfl))
    have hkind : (accepted.setting.stream.token ParserState.initial.position).kind = .endOfFile := hend
    refine (Parallel.startsPatternAtom_apply _).trans ?_
    rw [Token.isOperator, hkind]
    rfl
  rw [← parameters_eq] at hanswers
  exact hanswers.returns hrun

/-- At the level of parameters only patterns stand. -/
theorem Accepted.StandsIn.shallow {accepted : Accepted (parameters budget)} {stream : TokenStream}
    (h : accepted.StandsIn stream relocation start) :
    stream.Shallow TokenKind.standsInPattern start (start + accepted.length) := by
  refine h.recurs.shallow ?_
  obtain ⟨history, hrun⟩ :=
    accepted.exists_run (obeys_parameters Abort.Arises.tooDeep budget)
  have hshows : accepted.setting.Shows (parameters budget) .initial :=
    shows_parameters Abort.Arises.tooDeep budget accepted.source.size_pos
  rw [Nat.zero_add]
  exact Runs.returns hshows hrun

end

/-! ### Spellings of an annotated definition -/

/-- A name, a type and parameters that are accepted by themselves, and a value that is read by itself
without an error. -/
structure AnnotatedDefinition (budget : Nat) where
  name : String
  typeExpr : Accepted (typeAt budget .type)
  parameters : Accepted (parameters budget)
  body : Admitted (α := Expr) (produce budget (.expression 0))

namespace AnnotatedDefinition

variable {budget : Nat} (parts : AnnotatedDefinition budget) {stream : TokenStream}
  {start line stop : Nat}

/-- The name stands somewhere. -/
structure NamedAt (stream : TokenStream) (start : Nat) : Prop where
  kind_eq : stream.kind start = .identifier
  value_eq : (stream.token start).value = parts.name

/-- The type stands somewhere, behind its sign. -/
structure TypedAt (stream : TokenStream) (start stop : Nat) : Prop where
  sign : stream.kind start = .atSign
  stands : ∃ relocation, parts.typeExpr.StandsIn stream relocation (start + 1)
  stop_eq : stop = start + 1 + parts.typeExpr.length

/-- The value stands somewhere, behind its sign and in front of a token at which an item may end. -/
structure ValuedAt (stream : TokenStream) (start stop : Nat) : Prop where
  sign : stream.kind start = .assign
  stands : ∃ relocation, parts.body.StandsIn stream relocation (start + 1)
  stop_eq : stop = start + 1 + parts.body.length
  boundary : (stream.kind stop).isBoundary = true

/-- The definition stands somewhere, without the type. -/
structure DefinedAt (stream : TokenStream) (start stop : Nat) : Prop where
  named : parts.NamedAt stream start
  stands : ∃ relocation, parts.parameters.StandsIn stream relocation (start + 1)
  valued : parts.ValuedAt stream (start + 1 + parts.parameters.length) stop

/-- The definition stands somewhere with its type: on the line in front of it, with the name or without,
or on its line if it has no parameters. -/
inductive Spelled (stream : TokenStream) (start stop : Nat) : Prop
  | alone {line : Nat} (htype : parts.TypedAt stream start line)
      (hline : stream.kind line = .newline) (hdefinition : parts.DefinedAt stream (line + 1) stop)
  | named {line : Nat} (hname : parts.NamedAt stream start)
      (htype : parts.TypedAt stream (start + 1) line) (hline : stream.kind line = .newline)
      (hdefinition : parts.DefinedAt stream (line + 1) stop)
  | together {sign : Nat} (hnone : parts.parameters.length = 0) (hname : parts.NamedAt stream start)
      (htype : parts.TypedAt stream (start + 1) sign) (hvalue : parts.ValuedAt stream sign stop)

/-- The definition, at some place. -/
def definition (span : Span) : TermDef where
  name := parts.name
  clauses := [{ patterns := parts.parameters.value, body := parts.body.value, span := span }]
  span := span

/-- What any of the spellings is read as: something that becomes the annotation, and the definition. -/
inductive Reading : List Statement → Prop
  | of {head : Statement} {ascription : Ascription} {definition : TermDef} (span : Span)
      (hhead : head.Annotates ascription) (hname : ascription.name = parts.name)
      (htype : ascription.typeExpr.relocate .forget = parts.typeExpr.value.relocate .forget)
      (hdefinition : definition.relocate .forget = (parts.definition span).relocate .forget) :
      Reading [head, .ofDefinition definition]

variable {parts}

/-! ### Where the spellings stand -/

theorem NamedAt.level (h : parts.NamedAt stream start) : stream.Level start (start + 1) :=
  level_plain (succ_lt_size_of_kind h.kind_eq TokenKind.noConfusion) (by rw [h.kind_eq]; rfl)

theorem TypedAt.level (h : parts.TypedAt stream start stop) : stream.Level start stop := by
  obtain ⟨relocation, hstands⟩ := h.stands
  rw [h.stop_eq]
  exact (level_plain (succ_lt_size_of_kind h.sign TokenKind.noConfusion) (by rw [h.sign]; rfl)).trans
    hstands.recurs.level_other

theorem ValuedAt.level (h : parts.ValuedAt stream start stop) : stream.Level start stop := by
  obtain ⟨relocation, hstands⟩ := h.stands
  rw [h.stop_eq]
  exact (level_plain (succ_lt_size_of_kind h.sign TokenKind.noConfusion) (by rw [h.sign]; rfl)).trans
    hstands.recurs.level_other

theorem DefinedAt.level (h : parts.DefinedAt stream start stop) : stream.Level start stop := by
  obtain ⟨relocation, hstands⟩ := h.stands
  exact (h.named.level.trans hstands.recurs.level_other).trans h.valued.level

/-- A definition with its type lies on one level, in front of a token at which an item may end. -/
theorem Spelled.level (h : parts.Spelled stream start stop) :
    stream.Level start stop ∧ (stream.kind stop).isBoundary = true := by
  have hnext : ∀ {line}, stream.kind line = .newline → stream.Level line (line + 1) := fun hline =>
    level_plain (succ_lt_size_of_kind hline TokenKind.noConfusion) (by rw [hline]; rfl)
  cases h with
  | alone htype hline hdefinition =>
    exact ⟨(htype.level.trans (hnext hline)).trans hdefinition.level, hdefinition.valued.boundary⟩
  | named hname htype hline hdefinition =>
    exact ⟨((hname.level.trans htype.level).trans (hnext hline)).trans hdefinition.level,
      hdefinition.valued.boundary⟩
  | together _ hname htype hvalue =>
    exact ⟨(hname.level.trans htype.level).trans hvalue.level, hvalue.boundary⟩

/-- It begins with the name or with the sign of the type. -/
theorem Spelled.kind_eq (h : parts.Spelled stream start stop) :
    stream.kind start = .identifier ∨ stream.kind start = .atSign := by
  cases h with
  | alone htype _ _ => exact Or.inr htype.sign
  | named hname _ _ _ | together _ hname _ _ => exact Or.inl hname.kind_eq

end AnnotatedDefinition

/-! ### Reading the spellings -/

namespace AnnotatedDefinition

variable {set : Setting} {budget : Nat} {parts : AnnotatedDefinition budget} {log : Log}
  {start line stop : Nat}

/-- The type is read. -/
theorem TypedAt.reads (h : parts.TypedAt set.stream start stop)
    (hcolon : set.stream.kind stop ≠ .colon) (hlog : log.muted = 0) :
    ∃ typeExpr, typeExpr.relocate .forget = parts.typeExpr.value.relocate .forget ∧
      set.Reads log (typeAt budget .type) (start + 1) typeExpr stop := by
  obtain ⟨relocation, hstands⟩ := h.stands
  rw [h.stop_eq] at hcolon ⊢
  exact ⟨_, Relocation.move_move .., parts.typeExpr.reads_type hstands hcolon hlog⟩

/-- What is reported where the value stands: the same as of the value by itself, at other places. -/
def Reports (reports : List Diagnostic) : Prop :=
  Relocation.forget.move reports = Relocation.forget.move parts.body.reports

/-- The value is read. -/
theorem ValuedAt.leaves (h : parts.ValuedAt set.stream start stop) (hlog : log.muted = 0)
    {name : Token} (hname : name.value = parts.name) {patterns : List Pattern}
    (hpatterns : Relocation.forget.move patterns = Relocation.forget.move parts.parameters.value) :
    ∃ (definition : TermDef) (reports : List Diagnostic),
      definition.relocate .forget = (parts.definition name.span).relocate .forget ∧
      parts.Reports reports ∧
      set.Leaves log (definitionBody (.ofRules budget (produce budget)) name patterns) (start + 1)
        definition stop (reports.foldl Log.report log) := by
  obtain ⟨relocation, hstands⟩ := h.stands
  have hbody := parts.body.leaves_expression hstands hlog
  rw [← h.stop_eq] at hbody
  have hbegins : (set.stream.kind (start + 1) == .newline) = false := by
    have hfirst := hstands.kind_eq (parts.body.length_pos
      (obeys_produce Or.inr Abort.Arises.tooDeep budget (.expression 0)))
    have hseparator := parts.body.begins
    rw [Nat.add_zero] at hfirst
    rw [← hfirst] at hseparator
    exact beq_eq_false_iff_ne.2 fun heq => by
      rw [heq] at hseparator
      cases hseparator
  let span := name.span.join (set.stream.token (stop - 1)).span
  refine ⟨{
    name := name.value
    clauses := [{ patterns := patterns, body := relocation.move parts.body.value, span := span }]
    span := span }, relocation.move parts.body.reports, ?_, Relocation.move_move ..,
    Reads.skipWhile.leaves.bind ?_⟩
  · have hvalue : Relocation.forget.move (relocation.move parts.body.value) =
        Relocation.forget.move parts.body.value := Relocation.move_move ..
    have hlist : patterns.map (Pattern.relocate .forget) =
        parts.parameters.value.map (Pattern.relocate .forget) := hpatterns
    simp only [definition, TermDef.relocate, Clause.relocate, List.map_cons, List.map_nil, hname, hlist,
      Span.relocate_forget span name.span]
    exact congrArg (fun body : Expr => TermDef.mk parts.name [⟨_, body, _⟩] _) hvalue
  · rw [skipWhile_eq_self hbegins]
    exact hbody.bind (Reads.spanFrom.leaves.bind Reads.pure.leaves)

/-- What begins with a name is what the first sign behind its head shows. -/
theorem NamedAt.leaves_statement (h : parts.NamedAt set.stream start) {sign : TokenKind} {later : Log}
    (hstop : (set.stream.firstStop endsStatementHead 0 start).kind = sign)
    (hsign : sign = .assign ∨ sign = .atSign) {line : DefinitionLine}
    (hline : set.Leaves log (Parser.definition (.ofRules budget (produce budget))) start line stop
      later) :
    set.Leaves log (produce (budget + 1) .statement) start line.statements stop later := by
  refine Reads.current.leaves.bind ?_
  rw [show (set.stream.token start).kind = .identifier from h.kind_eq]
  have hfirst : set.Reads log (Parser.firstStop endsStatementHead) start
      (set.stream.firstStop endsStatementHead 0 start) start :=
    fun _ => Runs.firstStop ⟨rfl, rfl, rfl⟩
  refine hfirst.leaves.bind ?_
  rw [hstop]
  have hrest : set.Leaves log (do
      if (set.stream.token start).kind != .identifier then
        unexpected ["name"] ("before " ++ sign.describe)
      return (← Parser.definition (.ofRules budget (produce budget))).statements) start
      line.statements stop later := by
    rw [show (set.stream.token start).kind = .identifier from h.kind_eq]
    exact hline.bind Reads.pure.leaves
  rcases hsign with rfl | rfl
  · exact hrest
  · exact hrest

/-- The definition is read without the type. -/
theorem DefinedAt.leaves (h : parts.DefinedAt set.stream start stop) (hlog : log.muted = 0) :
    ∃ (definition : TermDef) (reports : List Diagnostic), definition.relocate .forget =
        (parts.definition (set.stream.token start).span).relocate .forget ∧ parts.Reports reports ∧
      set.Leaves log (produce (budget + 1) .statement) start [.ofDefinition definition] stop
        (reports.foldl Log.report log) := by
  obtain ⟨relocation, hstands⟩ := h.stands
  have hparameters := parts.parameters.reads_parameters hstands hlog
  obtain ⟨definition, reports, hdefinition, hreports, hbody⟩ := h.valued.leaves hlog h.named.value_eq
    (Relocation.move_move relocation .forget parts.parameters.value)
  have hsign := h.valued.sign
  have hsize := succ_lt_size_of_kind h.named.kind_eq TokenKind.noConfusion
  have hplain : (set.stream.kind start).isPlain = true := by rw [h.named.kind_eq]; rfl
  have hshallow := hstands.shallow
  let line : DefinitionLine := { ascription := none, definition := some definition }
  have hline : set.Leaves log (Parser.definition (.ofRules budget (produce budget))) start line stop
      (reports.foldl Log.report log) := by
    -- an annotation does not come next
    have hother : ¬(set.stream.kind (start + 1) == .atSign) = true := by
      intro hat
      rcases Nat.eq_zero_or_pos parts.parameters.length with hzero | hpos
      · rw [hzero] at hsign
        rw [show set.stream.kind (start + 1) = .assign from hsign] at hat
        cases hat
      · have hmember := hshallow (start + 1) (Nat.le_refl _) (Nat.lt_add_of_pos_right hpos) rfl
          (by rw [beq_iff_eq.1 hat]; rfl)
        rw [beq_iff_eq.1 hat] at hmember
        cases hmember
    refine (Reads.expect h.named.kind_eq hsize).leaves.bind (Reads.isAt.leaves.bind
      (.ite_neg hother ?_))
    refine hparameters.leaves.bind ((Reads.expect hsign (succ_lt_size_of_kind hsign
      TokenKind.noConfusion)).leaves.bind (hbody.bind Reads.pure.leaves))
  refine ⟨definition, reports, hdefinition, hreports, h.named.leaves_statement ?_ (Or.inl rfl) hline⟩
  -- neither the name nor the parameters show what the search stops at
  have hname : set.stream.Shallow TokenKind.standsInPattern start (start + 1) :=
    shallow_succ fun _ => by rw [h.named.kind_eq]; rfl
  rw [firstStop_of_shallow set.balanced ((level_plain hsize hplain).trans hstands.recurs.level_other)
    (hname.trans hshallow (level_plain hsize hplain).opened_eq)
    (fun kind hmember => by cases kind <;> first | rfl | cases hmember),
    firstStop_self hstands.recurs.lt (by rw [hsign]; rfl) (by rw [hsign]; rfl)]
  exact hsign

/-- The type by itself is read as an annotation that gets its name later. -/
theorem TypedAt.reads_alone (h : parts.TypedAt set.stream start stop)
    (hcolon : set.stream.kind stop ≠ .colon) (hlog : log.muted = 0) :
    ∃ typeExpr span, typeExpr.relocate .forget = parts.typeExpr.value.relocate .forget ∧
      set.Reads log (produce (budget + 1) .statement) start [.pending typeExpr span] stop := by
  obtain ⟨typeExpr, htype, hreads⟩ := h.reads hcolon hlog
  refine ⟨typeExpr, (set.stream.token start).span.join (set.stream.token (stop - 1)).span, htype,
    Reads.current.bind ?_⟩
  rw [show (set.stream.token start).kind = .atSign from h.sign]
  have hpending : set.Reads log (pendingAscription (.ofRules budget (produce budget))) start _ stop :=
    (Reads.advance (succ_lt_size_of_kind h.sign TokenKind.noConfusion)).bind
      (hreads.bind (Reads.spanFrom.bind .pure))
  exact hpending.bind .pure

/-- Behind a name in front of the type a search for the end of the head finds the sign of the type. -/
theorem NamedAt.firstStop_eq (h : parts.NamedAt set.stream start)
    (htype : parts.TypedAt set.stream (start + 1) stop) :
    (set.stream.firstStop endsStatementHead 0 start).kind = .atSign := by
  have hplain : (set.stream.kind start).isPlain = true := by rw [h.kind_eq]; rfl
  have hsize := succ_lt_size_of_kind h.kind_eq TokenKind.noConfusion
  have hname : set.stream.Shallow TokenKind.standsInPattern start (start + 1) :=
    shallow_succ fun _ => by rw [h.kind_eq]; rfl
  rw [firstStop_of_shallow set.balanced (level_plain hsize hplain) hname
    (fun kind hmember => by cases kind <;> first | rfl | cases hmember),
    firstStop_self hsize (by rw [htype.sign]; rfl) (by rw [htype.sign]; rfl)]
  exact htype.sign

/-- The name with the type is read as an annotation of that name. -/
theorem NamedAt.reads_named (h : parts.NamedAt set.stream start)
    (htype : parts.TypedAt set.stream (start + 1) stop) (hline : set.stream.kind stop = .newline)
    (hlog : log.muted = 0) :
    ∃ ascription : Ascription, ascription.name = parts.name ∧
      ascription.typeExpr.relocate .forget = parts.typeExpr.value.relocate .forget ∧
      set.Reads log (produce (budget + 1) .statement) start
        [.ofDeclaration (.ascription ascription)] stop := by
  obtain ⟨typeExpr, hsame, hreads⟩ :=
    htype.reads (by rw [hline]; exact TokenKind.noConfusion) hlog
  let ascription : Ascription := {
    name := (set.stream.token start).value, typeExpr := typeExpr, attachment := .nextDeclaration
    span := (set.stream.token start).span.join (set.stream.token (stop - 1)).span }
  let line : DefinitionLine := { ascription := some ascription, definition := none }
  have hannotated : set.Reads log (annotatedDefinition (.ofRules budget (produce budget))
      (set.stream.token start)) (start + 1) line stop := by
    refine (Reads.advance (succ_lt_size_of_kind htype.sign TokenKind.noConfusion)).bind
      (hreads.bind (Reads.spanFrom.bind (Reads.isAt.bind (.ite_neg ?_ .pure))))
    rw [hline]
    exact Bool.false_ne_true
  have hline : set.Reads log (Parser.definition (.ofRules budget (produce budget))) start line stop :=
    (Reads.expect h.kind_eq (succ_lt_size_of_kind h.kind_eq TokenKind.noConfusion)).bind
      (Reads.isAt.bind (.ite_pos (beq_iff_eq.2 htype.sign) hannotated))
  exact ⟨ascription, h.value_eq, hsame,
    h.leaves_statement (h.firstStop_eq htype) (Or.inr rfl) hline.leaves⟩

/-- A definition without parameters is read on one line with its type. -/
theorem NamedAt.leaves_together (h : parts.NamedAt set.stream start)
    (htype : parts.TypedAt set.stream (start + 1) line) (hvalue : parts.ValuedAt set.stream line stop)
    (hnone : parts.parameters.length = 0) (hlog : log.muted = 0) :
    ∃ (ascription : Ascription) (definition : TermDef) (reports : List Diagnostic),
      ascription.name = parts.name ∧
      ascription.typeExpr.relocate .forget = parts.typeExpr.value.relocate .forget ∧
      definition.relocate .forget =
        (parts.definition (set.stream.token start).span).relocate .forget ∧ parts.Reports reports ∧
      set.Leaves log (produce (budget + 1) .statement) start
        [.ofDeclaration (.ascription ascription), .ofDefinition definition] stop
        (reports.foldl Log.report log) := by
  obtain ⟨typeExpr, hsame, hreads⟩ :=
    htype.reads (by rw [hvalue.sign]; exact TokenKind.noConfusion) hlog
  have hempty : Relocation.forget.move ([] : List Pattern) =
      Relocation.forget.move parts.parameters.value := by rw [parts.parameters.value_eq_nil hnone]
  obtain ⟨definition, reports, hdefinition, hreports, hbody⟩ := hvalue.leaves hlog h.value_eq hempty
  let ascription : Ascription := {
    name := (set.stream.token start).value, typeExpr := typeExpr, attachment := .sameLine
    span := (set.stream.token start).span.join (set.stream.token (line - 1)).span }
  let whole : DefinitionLine := { ascription := some ascription, definition := some definition }
  have hannotated : set.Leaves log (annotatedDefinition (.ofRules budget (produce budget))
      (set.stream.token start)) (start + 1) whole stop (reports.foldl Log.report log) := by
    refine (Reads.advance (succ_lt_size_of_kind htype.sign TokenKind.noConfusion)).leaves.bind
      (hreads.leaves.bind (Reads.spanFrom.leaves.bind (Reads.isAt.leaves.bind
        (.ite_pos (beq_iff_eq.2 hvalue.sign) ?_))))
    exact (Reads.advance (succ_lt_size_of_kind hvalue.sign TokenKind.noConfusion)).leaves.bind
      (hbody.bind Reads.pure.leaves)
  have hline : set.Leaves log (Parser.definition (.ofRules budget (produce budget))) start whole stop
      (reports.foldl Log.report log) :=
    (Reads.expect h.kind_eq (succ_lt_size_of_kind h.kind_eq TokenKind.noConfusion)).leaves.bind
      (Reads.isAt.leaves.bind (.ite_pos (beq_iff_eq.2 htype.sign) hannotated))
  exact ⟨ascription, definition, reports, h.value_eq, hsame, hdefinition, hreports,
    h.leaves_statement (h.firstStop_eq htype) (Or.inr rfl) hline⟩

/-! ### Rounds over a spelling -/

/-- Each of the spellings is taken in one round or two. -/
theorem Spelled.rounds (h : parts.Spelled set.stream start stop) {item : Parser (List Statement)}
    {within : Enclosure} (what : String) (answers : List (List Statement)) {state : ParserState}
    (hitem : ∀ {log : Log} {place statements stop later},
      set.Leaves log (produce (budget + 1) .statement) place statements stop later →
        set.Leaves log item place statements stop later)
    (hcloser : within.closer.isPlain = false)
    (hstop : set.stream.kind stop = within.closer ∨
      (set.stream.kind stop).separates within.commas = true)
    (hposition : state.position = start) (hmuted : state.log.muted = 0) :
    ∃ (groups : List (List Statement)) (reports : List Diagnostic) (final : ParserState),
      parts.Reading groups.flatten ∧ parts.Reports reports ∧
      Rounds set.stream item within what answers state (groups.reverse ++ answers) final ∧
      final.log = reports.foldl Log.report state.log ∧
      final.position = set.stream.skipWhile (·.separates within.commas) stop := by
  subst hposition
  have hdefined : ∀ {middle : ParserState} (answers : List (List Statement)),
      parts.DefinedAt set.stream middle.position stop → middle.log.muted = 0 →
      ∃ definition reports final, definition.relocate .forget =
          (parts.definition (set.stream.token middle.position).span).relocate .forget ∧
        parts.Reports reports ∧
        Rounds set.stream item within what answers middle ([.ofDefinition definition] :: answers) final ∧
        final.log = reports.foldl Log.report middle.log ∧
        final.position = set.stream.skipWhile (·.separates within.commas) stop := by
    intro middle answers hdefinition hmuted
    obtain ⟨definition, reports, hsame, hreports, hleaves⟩ := hdefinition.leaves hmuted
    obtain ⟨final, hrounds⟩ := (hitem hleaves).exists_round what answers (by
        have hstop := hdefinition.valued.stop_eq
        omega) (by rw [hdefinition.named.kind_eq]; rfl) hcloser hstop
    exact ⟨definition, reports, final, hsame, hreports, hrounds⟩
  have hnext : ∀ {line}, set.stream.kind line = .newline →
      parts.DefinedAt set.stream (line + 1) stop →
      (set.stream.kind line).separates within.commas = true ∧
        set.stream.skipWhile (·.separates within.commas) line = line + 1 := by
    intro line hline hdefinition
    have hseparates : (set.stream.kind line).separates within.commas = true := by rw [hline]; rfl
    refine ⟨hseparates, ?_⟩
    rw [TokenStream.skipWhile, if_pos (Nat.lt_of_succ_lt (succ_lt_size_of_kind hline
      TokenKind.noConfusion)), if_pos hseparates, skipWhile_eq_self]
    rw [hdefinition.named.kind_eq]
    cases within.commas <;> rfl
  cases h with
  | @alone line htype hline hdefinition =>
    obtain ⟨hseparates, hskip⟩ := hnext hline hdefinition
    obtain ⟨typeExpr, span, hsame, hreads⟩ := htype.reads_alone
      (by rw [hline]; exact TokenKind.noConfusion) hmuted
    obtain ⟨middle, hfirst, hlog, hplace⟩ := (hitem hreads.leaves).exists_round what answers
      (by have hline := htype.stop_eq; omega) (by rw [htype.sign]; rfl) hcloser (Or.inr hseparates)
    rw [hskip] at hplace
    obtain ⟨definition, reports, final, hsame', hreports, hsecond, hlog', hplace'⟩ :=
      hdefined ([_] :: answers) (hplace ▸ hdefinition) (hlog ▸ hmuted)
    exact ⟨[[_], [_]], reports, final,
      .of _ (Statement.annotates_pending parts.name typeExpr span) rfl hsame hsame', hreports,
      hfirst.trans hsecond, hlog ▸ hlog', hplace'⟩
  | @named line hname htype hline hdefinition =>
    obtain ⟨hseparates, hskip⟩ := hnext hline hdefinition
    obtain ⟨ascription, heq, hsame, hreads⟩ := hname.reads_named htype hline hmuted
    obtain ⟨middle, hfirst, hlog, hplace⟩ := (hitem hreads).exists_round what answers
      (by have hline := htype.stop_eq; omega) (by rw [hname.kind_eq]; rfl) hcloser (Or.inr hseparates)
    rw [hskip] at hplace
    obtain ⟨definition, reports, final, hsame', hreports, hsecond, hlog', hplace'⟩ :=
      hdefined ([_] :: answers) (hplace ▸ hdefinition) (hlog ▸ hmuted)
    exact ⟨[[_], [_]], reports, final,
      .of _ (Statement.annotates_ascription ascription) heq hsame hsame', hreports,
      hfirst.trans hsecond, hlog ▸ hlog', hplace'⟩
  | @together sign hnone hname htype hvalue =>
    obtain ⟨ascription, definition, reports, heq, hsame, hsame', hreports, hleaves⟩ :=
      hname.leaves_together htype hvalue hnone hmuted
    obtain ⟨final, hrounds, hlog, hplace⟩ := (hitem hleaves).exists_round what answers (by
        have hsign := htype.stop_eq
        have hstop := hvalue.stop_eq
        omega) (by rw [hname.kind_eq]; rfl) hcloser hstop
    exact ⟨[[_, _]], reports, final, .of _ (Statement.annotates_ascription ascription) heq hsame hsame',
      hreports, hrounds, hlog, hplace⟩

end AnnotatedDefinition

end SableFrontend
