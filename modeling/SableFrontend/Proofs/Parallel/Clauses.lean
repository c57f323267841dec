import SableFrontend.Proofs.Parallel.Padding
import SableFrontend.Proofs.Parallel.Parentheses
import SableFrontend.Proofs.Sentences.Attempt
import SableFrontend.Proofs.Token.BracketLimit

/-!
Clauses as they are written: patterns that are read by themselves, each with a colon behind it, and an
expression in round brackets (`TokenStream.ClauseAt`). Whether a further pattern follows is found out by an
attempt; it succeeds at each of the patterns and is given up at the body, whatever stands in it. So the
clauses are read as they are written in every list of them. In a `case` nothing else matters; square brackets
alone must also show that they hold clauses: by the first colon, which has to be in the window, and not by
an operator in front of it (`atIndex_of_clause`).
-/

namespace SableFrontend

open TokenStream SableFrontend.Parser Setting

theorem BracketForm.of_startsLeftSection {first second : TokenKind} {rest : List TokenKind}
    (h : startsLeftSection (first :: second :: rest) = true) :
    isSectionOperand first = true ∧ second = .operator ∧ rest.head? = some (.closer .square) := by
  unfold startsLeftSection at h
  split at h
  · next heq =>
    obtain ⟨hfirst, heq⟩ := List.cons.inj heq
    obtain ⟨rfl, rfl⟩ := List.cons.inj heq
    exact ⟨hfirst ▸ h, rfl, rfl⟩
  · cases h

/-! ### Groups as expressions -/

/-- An expression that is read by itself is read between round brackets, where an item may end behind them. -/
theorem Accepted.reads_expression_of_grouped {budget minPower start : Nat} {set : Setting}
    {relocation : Relocation} {log : Log} (accepted : Accepted (α := Expr) (produce budget (.expression 0)))
    (h : accepted.source.Grouped set.stream relocation start)
    (hend : (set.stream.kind (start + accepted.source.size + 1)).isBoundary = true) (hlog : log.muted = 0) :
    set.Reads log (α := Expr) (produce (budget + 1) (.expression minPower)) start
      (relocation.move accepted.value) (start + accepted.source.size + 1) := by
  have hobeys := @obeys_produce accepted.setting Or.inr Abort.Arises.tooDeep budget (.expression 0)
  have hread := accepted.reads_expression h.stands hlog
  obtain ⟨unit, tuple, what, hround⟩ := exists_roundExpr_eq (.ofRules budget (produce budget))
  have hgroup := @Grouped.leaves _ set _ _ _ _ _ unit tuple what _ _ h accepted.balanced
    (accepted.length_pos hobeys) hread.leaves
  have hkind : set.stream.kind start = .opener .round := h.opener
  intro history
  refine runs_expression_of_atom (by rw [hkind]; nofun) (by rw [hkind]; nofun) (by rw [hkind]; nofun) ?_
  refine .bind (.current ?_)
  rw [show (set.stream.token start).kind = .opener .round from h.opener]
  show set.Runs (roundExpr (.ofRules budget (produce budget))) _ _ _
  rw [hround]
  refine (hgroup history).mono (fun answer final ⟨hanswer, hplace, hlog⟩ => ?_) fun _ _ h => h
  exact ⟨by rw [hplace]; exact hend, hanswer, hplace, hlog⟩

/-! ### Clauses in a stream -/

/-- The patterns and the body of a clause. -/
def Clause.parts (clause : Clause) : List Pattern × Expr := (clause.patterns, clause.body)

namespace TokenStream

variable {stream : TokenStream} {budget start stop close : Nat}

/-- A pattern that is accepted by itself stands in front of a colon, and another place is behind that. -/
def PatternColon (stream : TokenStream) (budget start stop : Nat) (pattern : Pattern) : Prop :=
  ∃ (accepted : Accepted (patternAt budget)) (relocation : Relocation),
    accepted.StandsIn stream relocation start ∧ stream.kind (start + accepted.length) = .colon ∧
      stop = start + accepted.length + 1 ∧ pattern = relocation.move accepted.value

/-- Patterns, at least one, with a colon behind each, stand in front of an expression in round brackets. -/
structure ClauseAt (stream : TokenStream) (budget start stop : Nat) (clause : List Pattern × Expr) :
    Prop where
  nonempty : clause.1 ≠ []
  stands : ∃ middle, Repeated (stream.PatternColon (budget + 1)) start middle clause.1 ∧
    ∃ (accepted : Accepted (α := Expr) (produce budget (.expression 0))) (relocation : Relocation),
      accepted.source.Grouped stream relocation middle ∧ stop = middle + accepted.source.size + 1 ∧
        clause.2 = relocation.move accepted.value

/-- Clauses, at least one, stand one behind the other with a separator between each two, up to a square
bracket. -/
inductive ClausesAt (stream : TokenStream) (budget : Nat) : Nat → List (List Pattern × Expr) → Nat → Prop
  | last {start close : Nat} {clause : List Pattern × Expr} (h : stream.ClauseAt budget start close clause)
      (hclose : stream.kind close = .closer .square) : ClausesAt stream budget start [clause] close
  | more {start stop close : Nat} {clause : List Pattern × Expr} {clauses : List (List Pattern × Expr)}
      (h : stream.ClauseAt budget start stop clause) (hseparator : (stream.kind stop).isSeparator = true)
      (hrest : ClausesAt stream budget (stop + 1) clauses close) :
      ClausesAt stream budget start (clause :: clauses) close

/-- A stream keeps to limits: no integer has too many digits, and less than so many delimiters lie around
each of its tokens. -/
structure Moderate (stream : TokenStream) (levels : Nat) : Prop where
  short : ∀ token ∈ stream.tokens, ∀ digits, Literal.ofToken token ≠ .error digits
  shallow : ∀ position, (stream.opened position).length < levels

namespace PatternColon

variable {pattern : Pattern}

theorem lt (h : stream.PatternColon budget start stop pattern) : start + 1 < stop := by
  obtain ⟨accepted, _, _, _, rfl, _⟩ := h
  exact Nat.succ_lt_succ (Nat.lt_add_of_pos_right
    (accepted.length_pos (obeys_patternAt Abort.Arises.tooDeep budget)))

/-- A pattern begins with a token that begins something. -/
theorem beginsNothing_eq (h : stream.PatternColon budget start stop pattern) :
    (stream.kind start).beginsNothing = false := by
  obtain ⟨accepted, relocation, hstands, -⟩ := h
  have hobeys := @obeys_patternAt accepted.setting Abort.Arises.tooDeep budget
  obtain ⟨history, hrun⟩ := accepted.exists_run hobeys
  refine Bool.eq_false_iff.2 fun hkind => ?_
  rw [← Nat.add_zero start, hstands.kind_eq (accepted.length_pos hobeys)] at hkind
  have hfails : accepted.setting.Fails (patternAt budget) .initial := fails_patternAt hkind budget
  exact hfails.ne_ok hrun

/-- The pattern is seen by an attempt, and it is read with its colon. -/
theorem consumes (balanced : stream.Balanced) (h : stream.PatternColon budget start stop pattern)
    (hnext : stream.kind stop ≠ .newline) {rules : (rule : ExprRule) → Parser rule.Answer} :
    stream.Consumes (patternThenColon (.ofRules budget rules)) start true start ∧
      stream.Consumes (clausePattern (.ofRules budget rules)) start pattern stop := by
  obtain ⟨accepted, relocation, hstands, hcolon, rfl, rfl⟩ := h
  have hreads : (Entry.expression.setting balanced).Reads .empty (patternAt budget) start
      (relocation.move accepted.value) (start + accepted.length) :=
    accepted.reads hstands (obeys_patternAt Abort.Arises.tooDeep budget)
      (fun P => P.mirrors_patternAt Abort.Arises.tooDeep budget) rfl
  have hpattern : stream.Consumes (patternAt budget) start (relocation.move accepted.value)
      (start + accepted.length) :=
    (steady_patternAt budget).consumes hreads rfl
  exact ⟨@Consumes.patternThenColon _ _ _ (.ofRules budget rules) _ hpattern hcolon,
    hpattern.bind (.bind (.expect hcolon TokenKind.noConfusion)
      (.bind (.skipWhile (beq_eq_false_iff_ne.2 hnext)) .pure))⟩

/-- At the level of a pattern no sign ends a clause. -/
theorem shallow (h : stream.PatternColon budget start stop pattern) :
    stream.Level start (stop - 1) ∧ stream.Shallow TokenKind.standsInPattern start (stop - 1) ∧
      stream.kind (stop - 1) = .colon := by
  obtain ⟨accepted, relocation, hstands, hcolon, rfl, -⟩ := h
  obtain ⟨history, hrun⟩ := accepted.exists_run (obeys_patternAt Abort.Arises.tooDeep budget)
  have hshows : accepted.setting.Shows (patternAt budget) .initial :=
    shows_patternAt Abort.Arises.tooDeep budget accepted.source.size_pos
  have hshallow := Runs.returns hshows hrun
  rw [Nat.add_sub_cancel]
  exact ⟨hstands.recurs.level_other, hstands.recurs.shallow (by rwa [Nat.zero_add]), hcolon⟩

end PatternColon

namespace ClauseAt

variable {clause : List Pattern × Expr}

/-- A clause begins with a pattern. -/
theorem exists_pattern (h : stream.ClauseAt budget start stop clause) :
    ∃ middle pattern, stream.PatternColon (budget + 1) start middle pattern := by
  obtain ⟨patterns, body⟩ := clause
  obtain ⟨hsome, _, hpatterns, -⟩ := h
  cases hpatterns with
  | none => exact absurd rfl hsome
  | more hfirst => exact ⟨_, _, hfirst⟩

theorem beginsNothing_eq (h : stream.ClauseAt budget start stop clause) :
    (stream.kind start).beginsNothing = false := by
  obtain ⟨_, _, hfirst⟩ := h.exists_pattern
  exact hfirst.beginsNothing_eq

theorem lt (h : stream.ClauseAt budget start stop clause) : start < stop ∧ stop < stream.size := by
  obtain ⟨-, middle, hpatterns, accepted, relocation, hgrouped, rfl, -⟩ := h
  have hle := hpatterns.le fun h => Nat.lt_of_succ_lt h.lt
  have hlt := hgrouped.lt
  omega

/-- A clause is read as it is written, where an item may end behind it. -/
theorem exists_reads (balanced : stream.Balanced) (h : stream.ClauseAt budget start stop clause)
    (hmoderate : stream.Moderate (budget + 1)) (hend : (stream.kind stop).isBoundary = true) :
    ∃ read : Clause, read.parts = clause ∧ ∀ log : Log, log.muted = 0 →
      (Entry.expression.setting balanced).Reads log
        (Parser.clause (.ofRules (budget + 1) (produce (budget + 1)))) start read stop := by
  obtain ⟨patterns, body⟩ := clause
  obtain ⟨hsome, middle, hpatterns, accepted, relocation, hgrouped, rfl, hbody⟩ := h
  have hopener : stream.kind middle = .opener .round := hgrouped.opener
  obtain ⟨-, hbordered⟩ := @Repeated.bordered _ _ _ _ _ (fun place => stream.kind place ≠ .newline) hpatterns
    (fun hpattern heq => by
      have hbegins := hpattern.beginsNothing_eq
      rw [heq] at hbegins
      cases hbegins) (by rw [hopener]; exact TokenKind.noConfusion)
  -- the attempt at the body is given up
  have hdone : stream.Consumes (patternThenColon (.ofRules (budget + 1) (produce (budget + 1)))) middle false
      middle := by
    have hpos := accepted.source.size_pos
    have hlast : middle + 1 + (accepted.source.size - 1) = middle + accepted.source.size := by omega
    have hrecurs : accepted.setting.Recurs stream relocation 0 (middle + 1) (accepted.source.size - 1) :=
      hgrouped.recurs
    have hlevel : stream.Level (middle + 1) (middle + accepted.source.size) := hlast ▸ hrecurs.level_other
    refine consumes_patternThenColon_of_group balanced hmoderate.short
      (fun k => Nat.lt_of_lt_of_le (hmoderate.shallow k) (Nat.le_add_left ..)) hopener hlevel hgrouped.closer
      fun hcolon => ?_
    rw [hcolon] at hend
    cases hend
  cases hbordered with
  | none => exact absurd rfl hsome
  | more hfirst hrest =>
    obtain ⟨hpattern, hnext⟩ := hfirst
    have hmore := hrest.consumes (fun h => Nat.lt_of_succ_lt h.1.lt) (fun h => h.1.consumes balanced h.2)
      (Nat.lt_of_succ_lt (succ_lt_size_of_kind hopener TokenKind.noConfusion)) hdone
    let span := (stream.token start).span.join (stream.token (middle + accepted.source.size + 1 - 1)).span
    refine ⟨⟨_, relocation.move accepted.value, span⟩, Prod.ext rfl hbody.symm, fun log hlog => ?_⟩
    exact Reads.current.bind ((hpattern.consumes balanced hnext).2.reads.bind (hmore.reads.bind
      ((accepted.reads_expression_of_grouped hgrouped hend hlog).bind (Reads.spanFrom.bind .pure))))

/-- The first sign in a clause is the colon of its first pattern. -/
theorem firstStop_eq (balanced : stream.Balanced) (h : stream.ClauseAt budget start stop clause) :
    (stream.firstStop (fun kind => kind == .pipe || kind == .colon) 0 start).kind = .colon := by
  obtain ⟨middle, pattern, hpattern⟩ := h.exists_pattern
  obtain ⟨hlevel, hshallow, hcolon⟩ := hpattern.shallow
  have hstops : ∀ kind : TokenKind, kind.standsInPattern = true →
      ((kind == .pipe || kind == .colon) || kind.isSeparator) = false := fun kind hkind => by
    cases kind <;> first | rfl | cases hkind
  rw [firstStop_of_shallow balanced hlevel hshallow hstops,
    firstStop_self hlevel.within.lt (by rw [hcolon]; rfl) (by rw [hcolon]; rfl)]
  exact hcolon

end ClauseAt

namespace ClausesAt

variable {clauses : List (List Pattern × Expr)}

theorem beginsNothing_eq (h : stream.ClausesAt budget start clauses close) :
    (stream.kind start).beginsNothing = false := by
  cases h with
  | last h => exact h.beginsNothing_eq
  | more h => exact h.beginsNothing_eq

theorem exists_clause (h : stream.ClausesAt budget start clauses close) :
    ∃ stop clause, stream.ClauseAt budget start stop clause := by
  cases h with
  | last h => exact ⟨_, _, h⟩
  | more h => exact ⟨_, _, h⟩

theorem kind_close (h : stream.ClausesAt budget start clauses close) :
    stream.kind close = .closer .square := by
  induction h with
  | last _ hclose => exact hclose
  | more _ _ _ ih => exact ih

/-- Clauses that are written are read one behind the other, by every parser that reads each of them in its own
way. -/
theorem exists_readsItems (balanced : stream.Balanced) (h : stream.ClausesAt budget start clauses close)
    (hmoderate : stream.Moderate (budget + 1)) {log : Log} (hlog : log.muted = 0) {within : Enclosure}
    (hcloser : within.closer = .closer .square) (hcommas : within.commas = false) :
    ∃ read : List Clause, read.map Clause.parts = clauses ∧ ∀ {α : Type} {item : Parser α} {wrap : Clause → α},
      (∀ {start stop clause read}, stream.ClauseAt budget start stop clause →
        (Entry.expression.setting balanced).Reads log
          (Parser.clause (.ofRules (budget + 1) (produce (budget + 1)))) start read stop →
        (Entry.expression.setting balanced).Reads log item start (wrap read) stop) →
      (Entry.expression.setting balanced).ReadsItems log item within start (read.map wrap) close := by
  have hbegins : ∀ {start stop clause}, stream.ClauseAt budget start stop clause →
      stream.kind start ≠ within.closer ∧ stream.kind start ≠ .endOfFile := fun h => by
    have hbegins := h.beginsNothing_eq
    constructor <;> intro heq <;> rw [heq] at hbegins
    · rw [hcloser] at hbegins
      cases hbegins
    · cases hbegins
  induction h with
  | @last start close clause h hclose =>
    obtain ⟨read, hread, hreads⟩ := h.exists_reads balanced hmoderate (by rw [hclose]; rfl)
    refine ⟨[read], by rw [List.map_singleton, hread], fun hitem => .more (hbegins h).1 (hbegins h).2 h.lt.1
      h.lt.2 (hitem h (hreads log hlog)) (Or.inl (hclose.trans hcloser.symm)) ?_⟩
    have hseparates : (stream.kind close).separates within.commas = false := by
      rw [hclose, hcommas]
      rfl
    rw [show (Entry.expression.setting balanced).stream.skipWhile (·.separates within.commas) close = close from
      skipWhile_eq_self hseparates]
    exact .done (hclose.trans hcloser.symm)
  | @more start stop close clause clauses h hseparator hrest ih =>
    obtain ⟨read, hread, hreads⟩ := h.exists_reads balanced hmoderate
      (by rw [TokenKind.isBoundary, hseparator]; rfl)
    obtain ⟨rest, hparts, hitems⟩ := ih
    have hseparates : (stream.kind stop).separates within.commas = true := by
      rw [TokenKind.separates, hseparator]
      rfl
    have hnext : (stream.kind (stop + 1)).separates within.commas = false := by
      refine Bool.eq_false_iff.2 fun hat => ?_
      rw [hcommas] at hat
      exact Bool.false_ne_true (hrest.beginsNothing_eq.symm.trans (TokenKind.beginsNothing_of_separates hat))
    refine ⟨read :: rest, by rw [List.map_cons, hread, hparts], fun hitem => .more (hbegins h).1 (hbegins h).2
      h.lt.1 h.lt.2 (hitem h (hreads log hlog)) (Or.inr hseparates) ?_⟩
    rw [show (Entry.expression.setting balanced).stream.skipWhile (·.separates within.commas) stop = stop + 1 by
      show stream.skipWhile _ stop = stop + 1
      rw [TokenStream.skipWhile, if_pos h.lt.2, if_pos hseparates, skipWhile_eq_self hnext]]
    exact hitems hitem

/-- Clauses that are written are read, where there are only clauses and where there may be operations of a
handler as well. -/
theorem exists_reads (balanced : stream.Balanced) (h : stream.ClausesAt budget start clauses close)
    (hmoderate : stream.Moderate (budget + 1)) {log : Log} (hlog : log.muted = 0) (what : String) :
    ∃ read : List Clause, read.map Clause.parts = clauses ∧
      (Entry.expression.setting balanced).Reads log
        (items (Parser.clause (.ofRules (budget + 1) (produce (budget + 1)))) (.closer .square) false what)
        start read close ∧
      (Entry.expression.setting balanced).Reads log
        (items (lambdaClause (.ofRules (budget + 1) (produce (budget + 1)))) (.closer .square) false what)
        start (read.map Sum.inl) close := by
  have hsize : close < stream.size :=
    Nat.lt_of_succ_lt (succ_lt_size_of_kind h.kind_close TokenKind.noConfusion)
  have hskip : stream.skipWhile (·.separates false) start = start := by
    refine skipWhile_eq_self (Bool.eq_false_iff.2 fun hat => ?_)
    exact Bool.false_ne_true (h.beginsNothing_eq.symm.trans (TokenKind.beginsNothing_of_separates hat))
  obtain ⟨read, hparts, hitems⟩ := @ClausesAt.exists_readsItems _ _ _ _ _ balanced h hmoderate _ hlog
    (stream.enclosureAt start (.closer .square) false) rfl rfl
  refine ⟨read, hparts, .items hsize ?_, .items hsize ?_⟩ <;>
    rw [show (Entry.expression.setting balanced).stream.skipWhile (·.separates false) start = start from hskip]
  · rw [← List.map_id read]
    exact hitems fun _ hread => hread
  · refine hitems fun hclause hread => ?_
    have hstop : ∀ {start}, (Entry.expression.setting balanced).Reads log
        (Parser.firstStop fun kind => kind == .pipe || kind == .colon) start
        (stream.firstStop (fun kind => kind == .pipe || kind == .colon) 0 start) start :=
      fun _ => Runs.firstStop ⟨rfl, rfl, rfl⟩
    refine hstop.bind (.ite_neg (fun heq => ?_) hread.map)
    have hcolon := hclause.firstStop_eq balanced
    rw [beq_iff_eq.1 heq] at hcolon
    cases hcolon

end ClausesAt

/-! ### The form -/

/-- The kinds of the tokens from a place on, up to another one. -/
def kindsUpTo (stream : TokenStream) (limit position : Nat) : List TokenKind :=
  ((stream.tokens.toList.drop position).map Token.kind).take (limit - position)

theorem drop_kinds_eq_cons {position : Nat} (hlt : position < stream.size) :
    (stream.tokens.toList.drop position).map Token.kind =
      stream.kind position :: (stream.tokens.toList.drop (position + 1)).map Token.kind := by
  have hlength : position < stream.tokens.toList.length := by
    rw [Array.length_toList]
    exact hlt
  obtain ⟨hsize, htoken⟩ := Array.getElem?_eq_some_iff.1 (getElem?_tokens hlt)
  rw [List.drop_eq_getElem_cons hlength, List.map_cons, Array.getElem_toList, htoken]
  rfl

theorem kindsUpTo_eq_cons {limit position : Nat} (hlt : position < stream.size) (hlimit : position < limit) :
    stream.kindsUpTo limit position = stream.kind position :: stream.kindsUpTo limit (position + 1) := by
  rw [kindsUpTo, kindsUpTo, drop_kinds_eq_cons hlt, show limit - position = limit - (position + 1) + 1 by omega,
    List.take_succ_cons]

/-- A scan over a pattern finds the colon behind it, if it gets that far. -/
theorem settle_of_shallow (balanced : stream.Balanced) {first colon limit : Nat}
    (hlevel : stream.Level first colon) (hshallow : stream.Shallow TokenKind.standsInPattern first colon)
    (hcolon : stream.kind colon = .colon) (hlimit : colon < limit) :
    BracketForm.settle 0 (stream.kindsUpTo limit first) = .lambda := by
  have hcons : ∀ {k}, k ≤ colon → stream.kindsUpTo limit k = stream.kind k :: stream.kindsUpTo limit (k + 1) :=
    fun hle => kindsUpTo_eq_cons (Nat.lt_of_le_of_lt hle hlevel.within.lt) (Nat.lt_of_le_of_lt hle hlimit)
  refine @Level.scan _ _ _ _ balanced hlevel hshallow
    (fun k depth => BracketForm.settle depth (stream.kindsUpTo limit k) = .lambda) ?_ ?_ ?_ ?_
  · rw [hcons (Nat.le_refl _), hcolon]
    rfl
  · intro k depth bracket hlt hkind hrest
    rw [hcons (Nat.le_of_lt hlt), hkind]
    exact hrest
  · intro k depth bracket hlt hkind hrest
    rw [hcons (Nat.le_of_lt hlt), hkind]
    exact hrest
  · intro k depth hlt hplain hmember hrest
    rw [hcons (Nat.le_of_lt hlt), BracketForm.settle_cons_of_plain]
    · split
      · next hzero =>
        have hnone : BracketForm.decision? (stream.kind k) = none := by
          have hstands := hmember hzero
          cases hkind : stream.kind k <;> rw [hkind] at hstands <;> first | rfl | cases hstands
        rw [hnone]
        exact hrest
      · exact hrest
    all_goals cases hkind : stream.kind k <;> rw [hkind] at hplain <;>
      first | rfl | exact TokenKind.noConfusion | cases hplain

/-- Square brackets show that they hold clauses if no operator begins the first one and a colon on their level
is in the window. -/
theorem ClauseAt.atIndex_eq (balanced : stream.Balanced) {clause : List Pattern × Expr}
    (h : stream.ClauseAt budget (start + 1) stop clause) (hopener : stream.kind start = .opener .square)
    (hfront : stream.formBefore? start = none) (hoperator : stream.kind (start + 1) ≠ .operator)
    {colon : Nat} (hcolon : stream.kind colon = .colon) (hlevel : stream.Level (start + 1) colon)
    (hwindow : colon ≤ start + BracketForm.window) :
    BracketForm.atIndex stream.tokens (start : Int) = .ok .lambda := by
  obtain ⟨middle, pattern, hpattern⟩ := h.exists_pattern
  have hbegins := hpattern.beginsNothing_eq
  have hmore := hpattern.lt
  obtain ⟨hlevel', hshallow, hcolon'⟩ := hpattern.shallow
  generalize hsign : middle - 1 = sign at hlevel' hshallow hcolon'
  -- the sign of the first pattern is the first colon on the level of the brackets
  have hle : sign ≤ colon := Nat.le_of_not_lt fun hlt => by
    have hstands := hshallow colon hlevel.within.le hlt hlevel.opened_eq (by rw [hcolon]; rfl)
    rw [hcolon] at hstands
    cases hstands
  have hlt : start + 1 < sign := by omega
  have hsize : ∀ {k}, k ≤ sign → k < stream.size := fun hk => Nat.lt_of_le_of_lt hk hlevel'.within.lt
  -- the first token begins a pattern, and the three first ones make no left section
  have hstands := hshallow (start + 1) (Nat.le_refl _) hlt rfl
  have hoperand : BracketForm.startsLeftSection (stream.kind (start + 1) :: stream.kind (start + 1 + 1) ::
      (stream.tokens.toList.drop (start + 1 + 1 + 1)).map Token.kind) = false := by
    refine Bool.eq_false_iff.2 fun hleft => ?_
    obtain ⟨hoperand, hsecond, hthird⟩ := BracketForm.of_startsLeftSection hleft
    have hnext : start + 1 + 1 < sign := Nat.lt_of_le_of_ne hlt fun heq => by
      rw [heq, hcolon'] at hsecond
      cases hsecond
    rw [drop_kinds_eq_cons (hsize hnext), List.head?_cons, Option.some.injEq] at hthird
    have hopened : stream.opened (start + 1 + 1 + 1) = stream.opened (start + 1) := by
      rw [opened_succ_plain (hsize hlt) (by rw [hsecond]; rfl),
        opened_succ_plain (hsize (Nat.le_of_lt hlt)) ?_]
      cases hkind : stream.kind (start + 1) <;> rw [hkind] at hoperand <;> first | rfl | cases hoperand
    rcases Nat.eq_or_lt_of_le hnext with heq | hless
    · rw [heq, hcolon'] at hthird
      cases hthird
    · exact hlevel'.within.ne_closer balanced (by omega) hless hopened .square hthird
  have hnone : BracketForm.ofFirst? (stream.kind (start + 1))
      (stream.kind (start + 1 + 1) :: (stream.tokens.toList.drop (start + 1 + 1 + 1)).map Token.kind) = none := by
    rw [BracketForm.ofFirst?, hoperand]
    cases hkind : stream.kind (start + 1) <;> rw [hkind] at hstands hbegins hoperator <;>
      first | rfl | exact absurd rfl hoperator | exact Bool.noConfusion hbegins | exact Bool.noConfusion (hstands rfl)
  have hinside : sign < start + 1 + BracketForm.window := by omega
  have hscan := settle_of_shallow balanced hlevel' hshallow hcolon' hinside
  have hlimit : start + 1 + BracketForm.window - (start + 1) = BracketForm.window := Nat.add_sub_cancel_left ..
  rw [kindsUpTo, hlimit, drop_kinds_eq_cons (hsize (Nat.le_of_lt hlt)), drop_kinds_eq_cons (hsize hlt)] at hscan
  rw [BracketForm.atIndex_eq (Nat.lt_of_succ_lt (hsize (Nat.le_of_lt hlt))) hopener, hfront, Option.getD_none,
    BracketForm.ofContent_take_add_two, drop_kinds_eq_cons (hsize (Nat.le_of_lt hlt)),
    drop_kinds_eq_cons (hsize hlt), show BracketForm.window = 63 + 1 from rfl,
    BracketForm.ofContent_cons_of_not_separator, hnone]
  · exact congrArg Except.ok hscan
  · intro hseparator
    rw [TokenKind.beginsNothing, TokenKind.isBoundary, hseparator] at hbegins
    cases hbegins

end TokenStream

/-! ### Clause sets -/

section

variable {stream : TokenStream} {budget start close : Nat} {clauses : List (List Pattern × Expr)} {log : Log}

/-- Clauses in square brackets that show it are read as a lambda. -/
theorem TokenStream.ClausesAt.reads_lambda (balanced : stream.Balanced)
    (h : stream.ClausesAt budget (start + 1) clauses close) (hmoderate : stream.Moderate (budget + 1))
    (hform : BracketForm.atIndex stream.tokens (start : Int) = .ok .lambda)
    (hend : (stream.kind (close + 1)).isBoundary = true) (minPower : Nat) (hlog : log.muted = 0) :
    ∃ read : List Clause, read.map Clause.parts = clauses ∧
      (Entry.expression.setting balanced).Reads (α := Expr) log (produce (budget + 2) (.expression minPower)) start
        (.lambda read ((stream.token start).span.join (stream.token close).span)) (close + 1) := by
  obtain ⟨-, hopener⟩ := BracketForm.kind_of_atIndex hform
  have hopens := succ_lt_size_of_kind hopener TokenKind.noConfusion
  have hcloses := succ_lt_size_of_kind h.kind_close TokenKind.noConfusion
  obtain ⟨read, hparts, -, hitems⟩ := h.exists_reads balanced hmoderate hlog "clause"
  have hoperation : ¬(read.map (Sum.inl (β := HandlerClause))).any Sum.isRight = true := by
    rw [List.any_map, List.any_eq_true]
    rintro ⟨_, -, hright⟩
    cases hright
  have hclauses : (read.map (Sum.inl (β := HandlerClause))).filterMap Sum.getLeft? = read := by
    rw [List.filterMap_map]
    exact List.filterMap_some
  have hset : (Entry.expression.setting balanced).Reads log
      (clauseSet (.ofRules (budget + 1) (produce (budget + 1)))) start
      (.lambda read ((stream.token start).span.join (stream.token close).span)) (close + 1) := by
    refine (Reads.expect hopener hopens).bind (hitems.bind ((Reads.expect h.kind_close hcloses).bind
      (Reads.spanFrom.bind (.ite_neg hoperation ?_))))
    rw [hclauses]
    exact .pure
  refine ⟨read, hparts, fun history => runs_expression_of_squareExpr hopener ?_⟩
  unfold Setting.Runs
  rw [show squareExpr _ (Entry.expression.setting balanced).stream _ = _ from
    @squareExpr_apply { position := start, log := log, history := history } stream _ hform _]
  exact (hset history).mono (fun _ _ hread => ⟨by rw [hread.2.1]; exact hend, hread⟩) fun _ _ h => h

/-- Clauses with one pattern each are read behind what they are matched against. -/
theorem TokenStream.ClausesAt.reads_cases (balanced : stream.Balanced)
    (h : stream.ClausesAt budget (start + 1) clauses close) (hmoderate : stream.Moderate (budget + 1))
    {first : Nat} {relocation : Relocation}
    (scrutinee : Accepted (α := Expr) (produce (budget + 1) (.expression 0)))
    (hcase : stream.kind first = .keyword .caseWord)
    (hstands : scrutinee.StandsIn stream relocation (first + 1))
    (hcolon : stream.kind (first + 1 + scrutinee.length) = .colon)
    (hstart : first + 1 + scrutinee.length + 1 = start) (hopener : stream.kind start = .opener .square)
    (hone : ∀ clause ∈ clauses, clause.1.length = 1)
    (hend : (stream.kind (close + 1)).isBoundary = true) (minPower : Nat) (hlog : log.muted = 0) :
    ∃ read : List Clause, read.map Clause.parts = clauses ∧
      (Entry.expression.setting balanced).Reads (α := Expr) log (produce (budget + 2) (.expression minPower)) first
        (.cases [relocation.move scrutinee.value] read
          ((stream.token first).span.join (stream.token close).span)) (close + 1) := by
  let set := Entry.expression.setting balanced
  have hsize : ∀ {position kind}, stream.kind position = kind → kind ≠ .endOfFile → position + 1 < set.stream.size :=
    fun hkind hne => succ_lt_size_of_kind hkind hne
  obtain ⟨read, hparts, hitems, -⟩ := h.exists_reads balanced hmoderate hlog "case clause"
  have hvalue := @Accepted.reads_expression set _ _ _ _ scrutinee hstands hlog
  have hscrutinee : set.Reads log (Parser.scrutinee (.ofRules (budget + 1) (produce (budget + 1)))) (first + 1)
      (relocation.move scrutinee.value) start := by
    refine hvalue.bind ((Reads.expect hcolon (hsize hcolon TokenKind.noConfusion)).bind
      (Reads.skipWhile.bind ?_))
    rw [hstart, skipWhile_eq_self (by rw [show set.stream.kind start = _ from hopener]; rfl)]
    exact .pure
  have hnone : set.Reads log (collectWhile (do return !(← isAt (.opener .square)))
      (Parser.scrutinee (.ofRules (budget + 1) (produce (budget + 1))))) start [] start := by
    refine fun history => .bind (.repeatWhile_done ?_ (.pure ⟨rfl, rfl, rfl⟩))
    show (Except.ok !(stream.kind start == .opener .square), _) = _
    rw [hopener]
    rfl
  have harity : set.Reads log (read.forM (checkArity 1)) (close + 1) ⟨⟩ (close + 1) := by
    have hall : ∀ clause ∈ read, clause.patterns.length = 1 := fun clause hmem =>
      hone clause.parts (hparts ▸ List.mem_map_of_mem hmem)
    clear hparts hitems
    induction read with
    | nil => exact .pure
    | cons clause rest ih =>
      obtain ⟨hfirst, hrest⟩ := List.forall_mem_cons.1 hall
      exact Reads.bind (.ite_pos hfirst .pure) (ih hrest)
  have hcases : set.Reads log (caseExpr (.ofRules (budget + 1) (produce (budget + 1)))) first
      (.cases [relocation.move scrutinee.value] read
        ((stream.token first).span.join (stream.token close).span)) (close + 1) :=
    (Reads.expect hcase (hsize hcase TokenKind.noConfusion)).bind (hscrutinee.bind (hnone.bind
      ((Reads.advance (hsize hopener TokenKind.noConfusion)).bind (hitems.bind
        ((Reads.expect h.kind_close (hsize h.kind_close TokenKind.noConfusion)).bind
          (harity.bind (Reads.spanFrom.bind .pure)))))))
  have hkind : (stream.token first).kind = .keyword .caseWord := hcase
  have hoperand : set.Reads log (operand (.ofRules (budget + 1) (produce (budget + 1)))) first
      (.cases [relocation.move scrutinee.value] read
        ((stream.token first).span.join (stream.token close).span)) (close + 1) := by
    refine Reads.current.bind (.ite_neg ?_ (Reads.current.bind (.ite_neg ?_ (.ite_pos ?_ hcases)))) <;>
      rw [show (set.stream.token first).kind = _ from hkind]
    · exact Bool.false_ne_true
    · exact Bool.false_ne_true
    · rfl
  have hoperator : (stream.kind (close + 1) == .operator) = false :=
    beq_eq_false_iff_ne.2 fun heq => by
      rw [heq] at hend
      cases hend
  have hloop : ∀ climb : Climb, set.Reads log (repeatWhile (startsOperator minPower)
      (Parser.climb (.ofRules (budget + 1) (produce (budget + 1)))) climb) (close + 1) climb (close + 1) := by
    refine fun climb history => .repeatWhile_done ?_ ⟨rfl, rfl, rfl⟩
    show (Except.ok (stream.kind (close + 1) == .operator && _), _) = _
    rw [hoperator]
    rfl
  exact ⟨read, hparts, hoperand.bind ((hloop _).bind .pure)⟩

end

/-! ### Texts -/

/-- A parser reads a text as a whole as an answer, and nothing is reported. -/
def Parser.ReadsText {α : Type} (parser : Parser α) (text file : String) (value : α) : Prop :=
  parseWhole parser text file = .ok value ∧
    ∃ tokens final, Token.ofText text file = .ok tokens ∧
      runParser (whole parser) tokens = (.ok value, final) ∧ final.log = .empty

/-- What is read up to the end of a text without a word is read of the text as a whole. -/
theorem Setting.Reads.readsText {α : Type} {text file : String} {stream : TokenStream}
    {balanced : stream.Balanced} {parser : Parser α} {stop : Nat} {value : α}
    (hstream : TokenStream.ofText? text file = some ⟨stream, balanced⟩)
    (hread : (Entry.expression.setting balanced).Reads .empty parser 0 value stop)
    (hfirst : (stream.kind 0).separates false = false) (hstop : stream.kind stop = .endOfFile) :
    parser.ReadsText text file value := by
  obtain ⟨hlexes, hstream⟩ := TokenStream.ofTokens?_of_ofText? hstream
  obtain ⟨final, hrun, hlog⟩ := Leaves.whole hread.leaves hfirst hstop
  refine ⟨parseWhole_of_errorless hlexes hstream hrun (by rw [hlog]; rfl), stream.tokens, final, hlexes, ?_, hlog⟩
  rw [runParser, hstream]
  exact hrun

/-- A text of clauses in square brackets is read as a lambda of just these clauses, if no operator begins the
first one and its first colon is in the window. Behind `case` and an expression, clauses with one pattern each
are read as just these clauses, whatever they begin with. -/
theorem readsText_clauses {text file : String} {stream : TokenStream} {balanced : stream.Balanced}
    (hstream : TokenStream.ofText? text file = some ⟨stream, balanced⟩)
    (hmoderate : stream.Moderate (nestingBudget - 1)) {start close : Nat}
    {clauses : List (List Pattern × Expr)} (hopener : stream.kind start = .opener .square)
    (h : stream.ClausesAt (nestingBudget - 2) (start + 1) clauses close)
    (hend : stream.kind (close + 1) = .endOfFile) :
    (start = 0 → stream.kind 1 ≠ .operator →
      (∃ colon ≤ BracketForm.window, stream.kind colon = .colon ∧ stream.Level 1 colon) →
      ∃ (read : List Clause) (span : Span), read.map Clause.parts = clauses ∧
        ReadsText (α := Expr) (produce nestingBudget (.expression 0)) text file (.lambda read span)) ∧
    ∀ (scrutinee : Accepted (α := Expr) (produce (nestingBudget - 1) (.expression 0))) (relocation : Relocation),
      stream.kind 0 = .keyword .caseWord → scrutinee.StandsIn stream relocation 1 →
      stream.kind (1 + scrutinee.length) = .colon → 1 + scrutinee.length + 1 = start →
      (∀ clause ∈ clauses, clause.1.length = 1) →
      ∃ (read : List Clause) (span : Span), read.map Clause.parts = clauses ∧
        ReadsText (α := Expr) (produce nestingBudget (.expression 0)) text file
          (.cases [relocation.move scrutinee.value] read span) := by
  have hboundary : (stream.kind (close + 1)).isBoundary = true := by rw [hend]; rfl
  refine ⟨?_, fun scrutinee relocation hcase hstands hcolon hstart hone => ?_⟩
  · rintro rfl hoperator ⟨colon, hwindow, hcolon, hlevel⟩
    obtain ⟨_, _, hclause⟩ := h.exists_clause
    have hform := hclause.atIndex_eq balanced hopener rfl hoperator hcolon hlevel (by omega)
    obtain ⟨read, hparts, hread⟩ :=
      @ClausesAt.reads_lambda _ _ _ _ _ .empty balanced h hmoderate hform hboundary 0 rfl
    exact ⟨read, _, hparts, hread.readsText hstream (by rw [hopener]; rfl) hend⟩
  · obtain ⟨read, hparts, hread⟩ := @ClausesAt.reads_cases _ _ _ _ _ .empty balanced h hmoderate 0 _ scrutinee hcase
      (by rwa [Nat.zero_add]) (by rwa [Nat.zero_add]) (by rwa [Nat.zero_add]) hopener hone hboundary 0 rfl
    exact ⟨read, _, hparts, hread.readsText hstream (by rw [hcase]; rfl) hend⟩

/-! ### Finding clauses -/

namespace TokenStream

/-- How far to the right of the start of its line a token stands. -/
def columnsAt (stream : TokenStream) (position : Nat) : Relocation :=
  let offset := (stream.token position).span.start.toNat
  .further 0 offset offset

/-- The patterns of these texts, with a colon behind each, if they stand in a stream. -/
def patternsAt? (stream : TokenStream) (budget start : Nat) : List String →
    Option { found : List Pattern × Nat // Repeated (stream.PatternColon budget) start found.2 found.1 }
  | [] => some ⟨([], start), .none start⟩
  | text :: texts => do
    let accepted ← Accepted.ofText? (patternAt budget) text
    let relocation := stream.columnsAt start
    if h : accepted.StandsIn stream relocation start ∧ stream.kind (start + accepted.length) = .colon then
      let ⟨found, hrest⟩ ← stream.patternsAt? budget (start + accepted.length + 1) texts
      return ⟨(relocation.move accepted.value :: found.1, found.2),
        .more ⟨accepted, relocation, h.1, h.2, rfl, rfl⟩ hrest⟩
    else none

/-- The expression of a text, if it stands in a stream. -/
def expressionAt? (stream : TokenStream) (budget start : Nat) (text : String) :
    Option { accepted : Accepted (α := Expr) (produce budget (.expression 0)) //
      accepted.StandsIn stream (stream.columnsAt start) start } := do
  let accepted ← Accepted.ofText? (α := Expr) (produce budget (.expression 0)) text
  match @Accepted.decidableStandsIn Expr _ accepted stream (stream.columnsAt start) start with
  | isTrue h => return ⟨accepted, h⟩
  | isFalse _ => none

/-- The clause of these texts, if it stands in a stream. -/
def clauseAt? (stream : TokenStream) (budget start : Nat) (texts : List String × String) :
    Option { found : (List Pattern × Expr) × Nat // stream.ClauseAt budget start found.2 found.1 } := do
  let ⟨patterns, hpatterns⟩ ← stream.patternsAt? (budget + 1) start texts.1
  let accepted ← Accepted.ofText? (α := Expr) (produce budget (.expression 0)) texts.2
  let relocation := stream.columnsAt (patterns.2 + 1)
  if h : patterns.1 ≠ [] ∧ accepted.source.Grouped stream relocation patterns.2 then
    return ⟨((patterns.1, relocation.move accepted.value), patterns.2 + accepted.source.size + 1),
      h.1, patterns.2, hpatterns, accepted, relocation, h.2, rfl, rfl⟩
  else none

/-- The clauses of these texts, if they stand in a stream. -/
def clausesAt? (stream : TokenStream) (budget start : Nat) : List (List String × String) →
    Option { found : List (List Pattern × Expr) × Nat // stream.ClausesAt budget start found.1 found.2 }
  | [] => none
  | texts :: rest => do
    let ⟨clause, hclause⟩ ← stream.clauseAt? budget start texts
    if hclose : stream.kind clause.2 = .closer .square then
      return ⟨([clause.1], clause.2), .last hclause hclose⟩
    else if hseparator : (stream.kind clause.2).isSeparator = true then
      let ⟨found, hrest⟩ ← stream.clausesAt? budget (clause.2 + 1) rest
      return ⟨(clause.1 :: found.1, found.2), .more hclause hseparator hrest⟩
    else none

/-- A short stream without integers of too many digits keeps to limits. -/
theorem moderate_of_size_lt {stream : TokenStream} {levels : Nat} (hsize : stream.size < levels)
    (hshort : stream.tokens.all fun token => (Literal.ofToken token).isOk) : stream.Moderate levels := by
  refine ⟨fun token hmem digits herror => ?_, fun position =>
    Nat.lt_of_le_of_lt (stream.length_opened_le position) hsize⟩
  have hok := Array.all_eq_true'.1 hshort token hmem
  rw [herror] at hok
  cases hok

end TokenStream

/-- A lambda of two clauses, of which the second begins with a number below zero, and a `case` of which all do. -/
theorem exists_readsText_clauses :
    (∃ (read : List Clause) (span : Span), (read.map Clause.parts).map (fun parts => parts.1.length) = [2, 1] ∧
      ReadsText (α := Expr) (produce nestingBudget (.expression 0)) "[x: {y | -1}: (b + x); -2: (c)]" ""
        (.lambda read span)) ∧
    ∃ (value : Expr) (read : List Clause) (span : Span),
      (read.map Clause.parts).map (fun parts => parts.1.length) = [1, 1] ∧
      ReadsText (α := Expr) (produce nestingBudget (.expression 0)) "case s: [-1: (a); x: (b)]" ""
        (.cases [value] read span) := by
  constructor
  · have htest : (TokenStream.ofText? "[x: {y | -1}: (b + x); -2: (c)]" "").any (fun stream =>
        (stream.1.clausesAt? (nestingBudget - 2) 1 [(["x", "{y | -1}"], "b + x"), (["-2"], "c")]).any fun found =>
          decide (found.1.1.map (fun parts => parts.1.length) = [2, 1] ∧ stream.1.kind 0 = .opener .square ∧
            stream.1.kind (found.1.2 + 1) = .endOfFile ∧ stream.1.kind 1 = .identifier ∧ stream.1.kind 2 = .colon ∧
            stream.1.size < nestingBudget - 1) &&
          stream.1.tokens.all fun token => (Literal.ofToken token).isOk) = true := by
      decide +kernel
    simp only [Option.any_eq_true, Bool.and_eq_true, decide_eq_true_eq] at htest
    obtain ⟨⟨stream, balanced⟩, hstream, ⟨found, hclauses⟩, -, ⟨hlengths, hopener, hend, hname, hcolon, hsize⟩,
      hshort⟩ := htest
    obtain ⟨read, span, hparts, hread⟩ := (readsText_clauses hstream (moderate_of_size_lt hsize hshort) hopener
      hclauses hend).1 rfl (by rw [hname]; nofun) ⟨2, by decide, hcolon,
        level_plain (succ_lt_size_of_kind hname TokenKind.noConfusion) (by rw [hname]; rfl)⟩
    exact ⟨read, span, hparts ▸ hlengths, hread⟩
  · have htest : (TokenStream.ofText? "case s: [-1: (a); x: (b)]" "").any (fun stream =>
        (stream.1.expressionAt? (nestingBudget - 1) 1 "s").any fun scrutinee =>
        (stream.1.clausesAt? (nestingBudget - 2) 4 [(["-1"], "a"), (["x"], "b")]).any fun found =>
          decide (found.1.1.map (fun parts => parts.1.length) = [1, 1] ∧ stream.1.kind 3 = .opener .square ∧
            stream.1.kind (found.1.2 + 1) = .endOfFile ∧ stream.1.kind 0 = .keyword .caseWord ∧
            scrutinee.1.length = 1 ∧ stream.1.kind 2 = .colon ∧ stream.1.size < nestingBudget - 1) &&
          stream.1.tokens.all fun token => (Literal.ofToken token).isOk) = true := by
      decide +kernel
    simp only [Option.any_eq_true, Bool.and_eq_true, decide_eq_true_eq] at htest
    obtain ⟨⟨stream, balanced⟩, hstream, ⟨scrutinee, hstands⟩, -, ⟨found, hclauses⟩, -, ⟨hlengths, hopener, hend,
      hcase, hlength, hcolon, hsize⟩, hshort⟩ := htest
    have hone : ∀ clause ∈ found.1, clause.1.length = 1 := fun clause hmem => by
      have hmem' : clause.1.length ∈ found.1.map fun parts : List Pattern × Expr => parts.1.length :=
        List.mem_map_of_mem hmem
      rw [hlengths] at hmem'
      simpa using hmem'
    obtain ⟨read, span, hparts, hread⟩ := (readsText_clauses hstream (moderate_of_size_lt hsize hshort) hopener
      hclauses hend).2 scrutinee _ hcase hstands (by rw [hlength]; exact hcolon) (by rw [hlength]) hone
    exact ⟨_, read, span, hparts ▸ hlengths, hread⟩

/-- A clause that begins with a number below zero stands in square brackets that are no lambda: the minus sign
is taken for the operator of a section. -/
theorem exists_unread_clause :
    ∃ stream : { stream : TokenStream // stream.Balanced },
      TokenStream.ofText? "[-1: (b)]" "" = some stream ∧ stream.1.Moderate (nestingBudget - 1) ∧
      stream.1.kind 0 = .opener .square ∧
      (∃ clauses close, stream.1.ClausesAt (nestingBudget - 2) 1 clauses close ∧
        stream.1.kind (close + 1) = .endOfFile) ∧
      (∃ colon ≤ BracketForm.window, stream.1.kind colon = .colon ∧ stream.1.Level 1 colon) ∧
      ∀ value : Expr, ¬ReadsText (α := Expr) (produce nestingBudget (.expression 0)) "[-1: (b)]" "" value := by
  have htest : (TokenStream.ofText? "[-1: (b)]" "").any (fun stream =>
      (stream.1.clausesAt? (nestingBudget - 2) 1 [(["-1"], "b")]).any fun found =>
        decide (stream.1.kind 0 = .opener .square ∧ stream.1.kind (found.1.2 + 1) = .endOfFile ∧
          stream.1.kind 3 = .colon ∧ (stream.1.kind 1).isPlain = true ∧ (stream.1.kind 2).isPlain = true ∧
          stream.1.size < nestingBudget - 1 ∧ 3 < stream.1.size) &&
        stream.1.tokens.all fun token => (Literal.ofToken token).isOk) = true := by
    decide +kernel
  have hrejected : (parseExpression "[-1: (b)]" "").isOk = false := by decide +kernel
  simp only [Option.any_eq_true, Bool.and_eq_true, decide_eq_true_eq] at htest
  obtain ⟨⟨stream, balanced⟩, hstream, ⟨found, hclauses⟩, -, ⟨hopener, hend, hcolon, hplain, hplain', hsize, hlt⟩,
    hshort⟩ := htest
  refine ⟨⟨stream, balanced⟩, hstream, moderate_of_size_lt hsize hshort, hopener,
    ⟨found.1, found.2, hclauses, hend⟩,
    ⟨3, by decide, hcolon, (level_plain (by omega) hplain).trans (level_plain hlt hplain')⟩,
    fun value hread => ?_⟩
  rw [show parseExpression "[-1: (b)]" "" = .ok value from hread.1] at hrejected
  cases hrejected

end SableFrontend
