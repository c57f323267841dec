import SableFrontend.Proofs.Grammar.Entry
import SableFrontend.Proofs.Grammar.Reading
import SableFrontend.Proofs.Parallel.Suffix
import SableFrontend.Proofs.Tree.Grouping

/-!
Blocks made of statements. A statement that can be read by itself, in front of a semicolon, is read
in the same way on a line of a block (`LoneStatement.reads`), with one exception: a conditional
without its last branch looks at the next line, and if that reads like a condition with a branch, it
is taken for one. So lines are put together to a block as long as no such conditional is followed by
such a line (`expression_of_lines`).
-/

namespace SableFrontend

open TokenStream SableFrontend.Parser Setting

/-! ### Where no statement begins -/

/-- Whether a token of a kind begins no statement: an item may end there, or the last branch of a
conditional begins there. -/
def TokenKind.beginsNothing (kind : TokenKind) : Bool :=
  kind.isBoundary || kind == .keyword .elseWord

theorem TokenKind.eq_of_beginsNothing {kind : TokenKind} (h : kind.beginsNothing = true) :
    kind = .newline ∨ kind = .semicolon ∨ (∃ bracket, kind = .closer bracket) ∨
      kind = .endOfFile ∨ kind = .keyword .elseWord := by
  rcases Bool.or_eq_true_iff.1 h with hboundary | helse
  · rcases TokenKind.eq_of_isBoundary hboundary with rfl | rfl | hcloser | rfl
    · exact Or.inl rfl
    · exact Or.inr (Or.inl rfl)
    · exact Or.inr (Or.inr (Or.inl hcloser))
    · exact Or.inr (Or.inr (Or.inr (Or.inl rfl)))
  · exact Or.inr (Or.inr (Or.inr (Or.inr (beq_iff_eq.1 helse))))

theorem TokenKind.beginsNothing_of_separates {kind : TokenKind} (h : kind.separates false = true) :
    kind.beginsNothing = true := by
  cases kind <;> first | rfl | cases h

namespace Setting

variable {set : Setting} {state : ParserState} {α : Type}

/-- A parser gives no answer. -/
def Fails (set : Setting) (parser : Parser α) (state : ParserState) : Prop :=
  set.Runs parser state (fun _ _ => False) fun _ _ => True

theorem Fails.bind {β : Type} {parser : Parser α} {next : α → Parser β}
    (h : set.Fails parser state) : set.Fails (parser >>= next) state :=
  Runs.bind (h.mono (fun _ _ => False.elim) fun _ _ _ => trivial)

theorem Fails.ne_ok {parser : Parser α} (h : set.Fails parser state) {answer : α}
    {final : ParserState} : parser set.stream state ≠ (.ok answer, final) :=
  fun hrun => Runs.returns h hrun

theorem fails_unexpected {expected : List String} {context : String} :
    set.Fails (unexpected expected context : Parser α) state :=
  trivial

section

variable (h : (set.stream.kind state.position).beginsNothing = true)
include h

theorem fails_patternAt (budget : Nat) : set.Fails (patternAt budget) state := by
  cases budget with
  | zero => trivial
  | succ budget =>
    refine Runs.bind (.current (.bind (.bind (.peek (.bind (.current (.pure ?_)))))))
    have hatom : set.Fails (patternAtom (patternAt budget)) state := by
      refine Runs.bind (.current ?_)
      have hminus : (set.stream.token state.position).isOperator "-" = false := by
        rw [Token.isOperator]
        rcases TokenKind.eq_of_beginsNothing h with hkind | hkind | ⟨_, hkind⟩ | hkind | hkind <;>
          rw [TokenStream.kind] at hkind <;> rw [hkind] <;> rfl
      rcases TokenKind.eq_of_beginsNothing h with hkind | hkind | ⟨_, hkind⟩ | hkind | hkind <;>
        rw [TokenStream.kind] at hkind <;> rw [hkind] <;>
        exact .ite (fun hat => absurd (hminus.symm.trans hat) Bool.false_ne_true)
          fun _ => fails_unexpected
    refine .ite (fun hat => ?_) fun _ => hatom
    have hconstructor := (Bool.and_eq_true_iff.1 hat).1
    rw [beq_iff_eq] at hconstructor
    rw [TokenStream.kind, hconstructor] at h
    cases h

theorem fails_expression (budget minPower : Nat) :
    set.Fails (α := Expr) (produce budget (.expression minPower)) state := by
  cases budget with
  | zero => trivial
  | succ budget =>
    have hne : ∀ {kind : TokenKind}, kind.beginsNothing = false →
        set.stream.kind state.position ≠ kind := fun hother heq => by
      rw [heq, hother] at h
      cases h
    refine runs_expression_of_atom (hne rfl) (hne rfl) (hne rfl) (.bind (.current ?_))
    rcases TokenKind.eq_of_beginsNothing h with hkind | hkind | ⟨_, hkind⟩ | hkind | hkind <;>
      rw [TokenStream.kind] at hkind <;> rw [hkind] <;> refine .bind (.current ?_) <;>
      rw [hkind] <;> trivial

theorem fails_statement (budget : Nat) :
    set.Fails (produce budget .statement) state := by
  cases budget with
  | zero => trivial
  | succ budget =>
    have hplain : set.Fails (plainStatement (.ofRules budget (produce budget))
        (set.stream.token state.position)) state := by
      refine Runs.bind (.firstStop ?_)
      have hname : ((set.stream.token state.position).kind != .identifier) = true := by
        rw [bne_iff_ne]
        rintro heq
        rw [TokenStream.kind, heq] at h
        cases h
      split
      · exact (fails_patternAt h budget).bind
      · exact .ite (fun _ => fails_unexpected.bind) fun hnot => absurd hname hnot
      · exact .ite (fun _ => fails_unexpected.bind) fun hnot => absurd hname hnot
      · exact (fails_expression h budget 0).bind
    refine Runs.bind (.current ?_)
    rcases TokenKind.eq_of_beginsNothing h with hkind | hkind | ⟨_, hkind⟩ | hkind | hkind <;>
      rw [TokenStream.kind] at hkind <;> rw [hkind] <;> exact hplain

end

end Setting

/-! ### Statements by themselves and on a line -/

/-- A statement by itself: a stream in which it is read from the start up to a semicolon, with nothing
reported. -/
structure LoneStatement (budget : Nat) where
  source : TokenStream
  balanced : source.Balanced
  length : Nat
  answer : List Statement
  semicolon : source.kind length = .semicolon
  history : List ParserEvent
  run : produce budget .statement source .initial =
    (.ok answer, { position := length, log := .empty, history := history })

/-- A statement that stands in a stream, with its tokens at other places. -/
structure Line (stream : TokenStream) (budget : Nat) extends LoneStatement budget where
  start : Nat
  relocation : Relocation
  lt : start + length < stream.size
  token_eq : ∀ k < length, stream.token (start + k) = (source.token k).relocate relocation
  touches_eq : ∀ k, k + 1 < length →
    (stream.token (start + k)).touches (stream.token (start + (k + 1))) =
      (source.token k).touches (source.token (k + 1))

namespace Line

variable {stream : TokenStream} {budget : Nat} (line : Line stream budget)

/-- Where the line ends. -/
def stop : Nat := line.start + line.length

/-- The statements of the line, at their places. -/
def statements : List Statement := line.relocation.move line.answer

theorem stop_lt : line.stop < stream.size := line.lt

/-- The setting of the statement by itself. -/
def lone : Setting := Entry.expression.setting line.balanced

theorem length_lt : line.length < line.source.size := by
  refine Nat.lt_of_not_le fun hle => ?_
  have hkind := line.semicolon
  rw [kind_of_size_le hle] at hkind
  cases hkind

theorem kind_eq {k : Nat} (hlt : k < line.length) :
    stream.kind (line.start + k) = line.source.kind k := by
  rw [TokenStream.kind, line.token_eq k hlt]
  rfl

/-- Reading the statement by itself keeps to the rules. -/
theorem reached : line.lone.Reached .initial true []
    { position := line.length, log := .empty, history := line.history } := by
  have hobeys : ∀ rule, line.lone.Obeys true (produce budget rule) :=
    obeys_produce Or.inr Abort.Arises.tooDeep budget
  exact (hobeys .statement .initial line.source.size_pos).returns line.run

theorem length_pos : 0 < line.length := line.reached.progress rfl

/-- The line begins with a token at which a statement begins. -/
theorem beginsNothing_eq : (stream.kind line.start).beginsNothing = false := by
  refine Bool.eq_false_iff.2 fun hkind => ?_
  have hfirst : (line.lone.stream.kind ParserState.initial.position).beginsNothing = true :=
    (congrArg _ (line.kind_eq line.length_pos)).symm.trans hkind
  have hfails : line.lone.Fails (produce budget .statement) .initial :=
    fails_statement hfirst budget
  exact hfails.ne_ok line.run

/-- Around each token of the line lie those of the delimiters that lie around it in the statement by
itself, and those around the line. -/
theorem opened_eq {k : Nat} (hle : k ≤ line.length) :
    stream.opened (line.start + k) =
      line.source.opened k ++ stream.opened line.start := by
  induction k with
  | zero => rw [opened_zero]; rfl
  | succ k ih =>
    have hlt : k < line.source.size := Nat.lt_trans hle line.length_lt
    have hlt' : line.start + k < stream.size :=
      Nat.lt_trans (Nat.add_lt_add_left hle line.start) line.lt
    rw [← Nat.add_assoc, opened_succ hlt', opened_succ hlt, line.kind_eq hle,
      ih (Nat.le_of_succ_le hle)]
    cases hkind : line.source.kind k with
    | closer bracket =>
      obtain ⟨outer, houter⟩ := line.balanced.closer_fits hlt hkind
      rw [houter]
      rfl
    | _ => rfl

/-- The statement by itself, up to the semicolon, and the line. -/
def parallel (balanced : stream.Balanced) (hfront : stream.formBefore? line.start = none)
    (hend : (stream.kind line.stop).isBoundary = true) (reported : List Diagnostic) :
    Parallel line.lone where
  other := stream
  relocation := line.relocation
  base := 0
  otherBase := line.start
  reach := line.length
  lift := (stream.opened line.start).length
  exact := false
  final := false
  reported := []
  otherReported := reported
  within := by
    rw [Nat.zero_add]
    exact line.reached.within
  opened_eq := by
    rw [Nat.zero_add]
    exact line.reached.opened_eq
  other_lt := line.lt
  token_add_eq k hk := by
    rw [Nat.zero_add]
    exact line.token_eq k hk
  touches_add_eq k hk := by
    rw [Nat.zero_add, Nat.zero_add]
    exact line.touches_eq k hk
  depth_add_eq k hk := by
    have hlt := Nat.lt_of_le_of_lt (Nat.add_le_add_left hk line.start) line.lt
    rw [Nat.zero_add, balanced.depth_eq hlt, line.opened_eq hk, List.length_append]
    exact congrArg (· + _) (line.balanced.depth_eq (Nat.lt_of_le_of_lt hk line.length_lt)).symm
  formBefore_eq _ := hfront
  boundary := by
    rw [Nat.zero_add]
    show (line.source.kind line.length).isBoundary = true
    rw [line.semicolon]
    rfl
  other_limit := TokenKind.isLimit_of_isBoundary hend
  last_eq := Bool.noConfusion
  last_ne_newline _ := by
    rw [Nat.zero_add]
    show line.source.kind line.length ≠ .newline
    rw [line.semicolon]
    exact TokenKind.noConfusion
  ends := Bool.noConfusion

/-- A statement is read on a line as it is read by itself, unless it is a conditional without its last
branch and more of a conditional seems to follow. -/
theorem reads (balanced : stream.Balanced) (hfront : stream.formBefore? line.start = none)
    (hend : (stream.kind line.stop).isBoundary = true)
    (hfollows : line.answer.any Statement.lacksElse = true →
      stream.continuesIf line.stop = false ∧ stream.elseFollows line.stop = false)
    {log : Log} (hlog : log.muted = 0) :
    (Entry.expression.setting balanced).Reads (α := List Statement) log (produce budget .statement)
      line.start line.statements line.stop := by
  intro history
  let P := line.parallel balanced hfront hend log.diagnostics.toList
  have hclosed : P.Closed := hend
  have hagrees : P.Agrees (α := List Statement) (fun answer final =>
      answer.any Statement.lacksElse = true ∧ P.Uncertain final.position)
      (produce budget .statement) (produce budget .statement) .initial :=
    @Parallel.agrees_produce_statement line.lone P .initial Or.inr Abort.Arises.tooDeep budget
      (fun _ => rfl) hclosed.guarded line.source.size_pos
  have hmirrored := hagrees.mirrored
  have hrun : produce budget .statement line.lone.stream .initial = _ := line.run
  rw [hrun] at hmirrored
  have hrelated : P.Related .initial
      { position := line.start, log := log, history := history } :=
    ⟨Nat.le_refl _, Nat.zero_le _, rfl, ⟨[], rfl, (List.append_nil _).symm⟩, hlog⟩
  have hseen : P.Seen (fun answer final => answer.any Statement.lacksElse = true ∧
      P.Uncertain final.position) (.ok line.answer,
        { position := line.length, log := .empty, history := line.history }) := by
    refine ⟨?_, fun ⟨hlacks, huncertain⟩ =>
      (huncertain.resolve_right fun hopen => hopen.1 hclosed.guarded).2 ⟨(Nat.zero_add _).symm, ?_⟩⟩
    · rintro (hpast | ⟨-, -, diagnostic, hmem, -⟩)
      · exact absurd hpast (Nat.not_lt.2 (Nat.le_of_eq (Nat.zero_add _).symm))
      · cases List.mem_of_mem_drop hmem
    · obtain ⟨hcontinues, helse⟩ := hfollows hlacks
      have hstop : line.source.kind P.stop = .semicolon := by
        rw [show P.stop = line.length from Nat.zero_add _, line.semicolon]
      refine ⟨?_, ?_, ?_, ?_⟩
      · show line.source.continuesIf P.stop = false
        rw [continuesIf, hstop]
        rfl
      · show line.source.elseFollows P.stop = false
        rw [elseFollows, hstop]
        rfl
      · rw [Parallel.place_stop]
        exact hcontinues
      · rw [Parallel.place_stop]
        exact helse
  obtain ⟨final, hfinal, hrelated⟩ := hmirrored _ hrelated hseen
  unfold Runs
  rw [show produce budget .statement (Entry.expression.setting balanced).stream
    { position := line.start, log := log, history := history } = _ from hfinal]
  refine ⟨rfl, hrelated.position_eq, ?_⟩
  obtain ⟨reports, hleft, hright⟩ := hrelated.reports
  obtain rfl : reports = [] := (List.append_eq_nil_iff.1 hleft.symm).2
  have hmuted : final.log.muted = log.muted := hrelated.muted_eq.trans hlog.symm
  have hdiagnostics : final.log.diagnostics = log.diagnostics :=
    Array.toList_inj.1 (hright.trans (List.append_nil _))
  show Log.mk final.log.diagnostics final.log.muted = log
  rw [hdiagnostics, hmuted]

end Line

/-! ### Blocks -/

/-- Lines one behind the other, with a line break between each two, up to a square bracket. -/
structure BlockLines (stream : TokenStream) {budget : Nat} (first close : Nat)
    (lines : List (Line stream budget)) : Prop where
  chain : lines.IsChain fun line next =>
    stream.kind line.stop = .newline ∧ next.start = line.stop + 1
  start_eq : lines.head?.map (·.start) = some first
  stop_eq : lines.getLast?.map (·.stop) = some close
  closer : stream.kind close = .closer .square
  lt : close + 1 < stream.size

namespace BlockLines

variable {stream : TokenStream} {budget first close : Nat} {lines : List (Line stream budget)}

/-- Behind a line break another line begins, which is not the last branch of a conditional. -/
theorem skipWhile_eq {isMember : TokenKind → Bool}
    (hmember : ∀ kind, isMember kind = true → kind.beginsNothing = true)
    (line next : Line stream budget) (hkind : isMember (stream.kind line.stop) = true)
    (hnext : next.start = line.stop + 1) :
    stream.skipWhile isMember line.stop = next.start := by
  have hstop : isMember (stream.kind next.start) = false := by
    refine Bool.eq_false_iff.2 fun hat => ?_
    have hbegins := hmember _ hat
    rw [next.beginsNothing_eq] at hbegins
    cases hbegins
  rw [TokenStream.skipWhile, if_pos line.stop_lt, if_pos hkind, ← hnext,
    TokenStream.skipWhile_eq_self hstop]

/-- The lines of a block are read one behind the other. -/
theorem readsItems (balanced : stream.Balanced) {within : Enclosure}
    (hcloser : within.closer = .closer .square) (hcommas : within.commas = false)
    (h : BlockLines stream first close lines) (hfront : stream.formBefore? first = none)
    (hsettled : ∀ line ∈ lines, line.answer.any Statement.lacksElse = true →
      stream.continuesIf line.stop = false)
    {log : Log} (hlog : log.muted = 0) :
    (Entry.expression.setting balanced).ReadsItems (α := List Statement) log
      (produce budget .statement) within first (lines.map Line.statements) close := by
  induction lines generalizing first with
  | nil => cases h.start_eq
  | cons line rest ih =>
    obtain rfl : line.start = first := Option.some.inj h.start_eq
    have hbegins := line.beginsNothing_eq
    have hne : ∀ {kind : TokenKind}, kind.beginsNothing = true → stream.kind line.start ≠ kind :=
      fun hkind heq => by
        rw [heq, hkind] at hbegins
        cases hbegins
    have hmore : line.start < line.stop := Nat.lt_add_of_pos_right line.length_pos
    cases rest with
    | nil =>
      obtain rfl : line.stop = close := Option.some.inj h.stop_eq
      have hclose := h.closer
      refine .more (hcloser ▸ hne rfl) (hne rfl) hmore line.stop_lt (line.reads balanced hfront ?_
        (fun hlacks => ⟨hsettled line List.mem_cons_self hlacks, ?_⟩) hlog)
        (Or.inl (hclose.trans hcloser.symm)) ?_
      · rw [hclose]
        rfl
      · rw [elseFollows, hclose]
        rfl
      · rw [TokenStream.skipWhile_eq_self (by
          show (stream.kind line.stop).separates within.commas = false
          rw [hclose, hcommas]
          rfl)]
        exact .done (hclose.trans hcloser.symm)
    | cons next rest =>
      obtain ⟨⟨hnewline, hnext⟩, hchain⟩ := List.isChain_cons_cons.1 h.chain
      have hskip : stream.skipWhile (·.separates within.commas) line.stop = next.start := by
        refine skipWhile_eq (fun kind hkind => ?_) line next ?_ hnext
        · rw [hcommas] at hkind
          exact TokenKind.beginsNothing_of_separates hkind
        · rw [hnewline]
          rfl
      refine .more (hcloser ▸ hne rfl) (hne rfl) hmore line.stop_lt (line.reads balanced hfront ?_
        (fun hlacks => ⟨hsettled line List.mem_cons_self hlacks, ?_⟩) hlog) (Or.inr ?_) ?_
      · rw [hnewline]
        rfl
      · have hskip := @skipWhile_eq stream budget (· == .newline) (fun kind hkind => by
          rw [beq_iff_eq.1 hkind]
          rfl) line next (beq_iff_eq.2 hnewline) hnext
        rw [elseFollows, hskip, hnewline, Bool.or_eq_false_iff]
        refine ⟨rfl, Bool.eq_false_iff.2 fun hat => ?_⟩
        have helse := beq_iff_eq.1 (Bool.and_eq_true_iff.1 hat).2
        have hbegins := next.beginsNothing_eq
        rw [helse] at hbegins
        cases hbegins
      · show (stream.kind line.stop).separates within.commas = true
        rw [hnewline]
        rfl
      · rw [show (Entry.expression.setting balanced).stream = stream from rfl, hskip]
        refine ih ⟨hchain, rfl, h.stop_eq, h.closer, h.lt⟩ ?_
          fun line hmem => hsettled line (List.mem_cons_of_mem _ hmem)
        refine formBefore?_eq_none ?_ ?_ <;> rw [hnext, Nat.add_sub_cancel, hnewline] <;>
          exact TokenKind.noConfusion

/-- The first line is one. -/
theorem exists_first (h : BlockLines stream first close lines) :
    ∃ line : Line stream budget, line.start = first := by
  cases lines with
  | nil => cases h.start_eq
  | cons line rest => exact ⟨line, Option.some.inj h.start_eq⟩

end BlockLines

/-- The last statement of a block stays the last one, if it is an expression. -/
theorem Statement.exists_group_concat (statements : List Statement) (value : Expr) (span : Span) :
    ∃ before, (group (statements ++ [.item (.expression value span)])).1 =
      before ++ [.expression value span] := by
  have hmerge : mergeDefinitions definition? ofDefinition
      (statements ++ [.item (.expression value span)]) =
      mergeDefinitions definition? ofDefinition statements ++ [.item (.expression value span)] := by
    rw [mergeDefinitions, mergeDefinitions, List.foldl_append, ← List.reverse_cons]
    refine congrArg List.reverse ?_
    show mergeStep _ _ _ _ = _
    unfold mergeStep
    split
    · next heq => rw [heq]
    · next last rest heq =>
      split
      · next hdefinition => cases hdefinition
      · rw [heq]
  have hsettle : ∀ statements : List Statement, ∃ before,
      (settleAll (statements ++ [.item (.expression value span)])).1 =
        before ++ [.expression value span] := by
    intro statements
    induction statements with
    | nil => exact ⟨[], rfl⟩
    | cons statement rest ih =>
      obtain ⟨before, hbefore⟩ := ih
      let target := (rest ++ [item (.expression value span)]).head?.bind annotatedName?
      refine ⟨(statement.settle target).1.toList ++ before, ?_⟩
      rw [List.cons_append, settleAll_cons, List.append_assoc, ← hbefore]
  rw [group, hmerge]
  exact hsettle _

/-- What a block is, of which the statements are read one behind the other and grouped to some of which
the last one is an expression that has a value. -/
theorem Setting.runs_block_of_split {set : Setting} {inner : Nested} {log : Log} {first close : Nat}
    {groups : List (List Statement)} {before : List Item} {value : Expr}
    (hopener : set.stream.kind first = .opener .square) (hlt : first + 1 < set.stream.size)
    (hcloser : set.stream.kind close = .closer .square) (hclose : close + 1 < set.stream.size)
    (hitems : set.Reads log (items inner.statement (.closer .square) false "statement") (first + 1)
      groups close)
    (hsplit : splitResult? (Statement.group groups.flatten).1 = some (before, value))
    (hvalue : value.lacksElse = false) (history : List ParserEvent) :
    set.Runs (block inner) { position := first, log := log, history := history }
      (fun answer final => answer = .block before value
          ((set.stream.token first).span.join (set.stream.token close).span) ∧
        final.position = close + 1 ∧
        final.log = (Statement.group groups.flatten).2.foldl Log.report log)
      fun _ _ => False := by
  refine (Reads.expect hopener hlt).runs_bind (fun history => .bind (.get ?_)) history
  refine hitems.runs_bind (fun history => ?_) history
  refine (Reads.expect hcloser hclose).runs_bind (fun history => ?_) history
  rw [show Statement.group groups.flatten =
    ((Statement.group groups.flatten).1, (Statement.group groups.flatten).2) from rfl]
  refine .bind (.reportAll ?_)
  rw [hsplit]
  dsimp only
  split
  · cases hvalue
  · exact .bind (.bind (.previous (.pure (.pure ⟨rfl, rfl, rfl⟩))))

/-- What a block is, of which the statements are read one behind the other and the last one is an
expression that has a value. -/
theorem Setting.runs_block {set : Setting} {inner : Nested} {log : Log} {first close : Nat}
    {groups : List (List Statement)} {value : Expr} {span : Span}
    (hopener : set.stream.kind first = .opener .square) (hlt : first + 1 < set.stream.size)
    (hcloser : set.stream.kind close = .closer .square) (hclose : close + 1 < set.stream.size)
    (hitems : set.Reads log (items inner.statement (.closer .square) false "statement") (first + 1)
      groups close)
    (hlast : groups.flatten.getLast? = some (.item (.expression value span)))
    (hvalue : value.lacksElse = false) (history : List ParserEvent) :
    ∃ before, (Statement.group groups.flatten).1 = before ++ [.expression value span] ∧
      set.Runs (block inner) { position := first, log := log, history := history }
        (fun answer final => answer = .block before value
            ((set.stream.token first).span.join (set.stream.token close).span) ∧
          final.position = close + 1 ∧
          final.log = (Statement.group groups.flatten).2.foldl Log.report log)
        fun _ _ => False := by
  obtain ⟨before, hbefore⟩ : ∃ before,
      (Statement.group groups.flatten).1 = before ++ [.expression value span] := by
    rw [← List.dropLast_append_getLast? _ hlast]
    exact Statement.exists_group_concat ..
  refine ⟨before, hbefore, runs_block_of_split hopener hlt hcloser hclose hitems ?_ hvalue history⟩
  rw [hbefore, splitResult?, List.getLast?_concat]
  exact congrArg (fun list => some (list, value)) List.dropLast_concat

/-- A block as an expression. -/
theorem Setting.runs_expression_of_block {set : Setting} {budget minPower first : Nat} {log : Log}
    {returns : Expr → ParserState → Prop} {stops : Abort → ParserState → Prop}
    (hform : BracketForm.atIndex set.stream.tokens (first : Int) = .ok .block)
    {history : List ParserEvent}
    (h : set.Runs (block (.ofRules budget (produce budget)))
      { position := first, log := log, history := history }
      (fun answer final => (set.stream.kind final.position).isBoundary = true ∧
        returns answer final) stops) :
    set.Runs (α := Expr) (produce (budget + 1) (.expression minPower))
      { position := first, log := log, history := history } returns stops := by
  obtain ⟨-, hopener⟩ := BracketForm.kind_of_atIndex hform
  have hne : ∀ {kind : TokenKind}, .opener .square ≠ kind → set.stream.kind first ≠ kind :=
    fun hother heq => hother (hopener.symm.trans heq)
  refine runs_expression_of_atom (hne TokenKind.noConfusion) (hne TokenKind.noConfusion)
    (hne TokenKind.noConfusion) (.bind (.current ?_))
  rw [show (set.stream.token first).kind = .opener .square from hopener]
  refine .bind (.read (.bind (.get ?_)))
  rw [show BracketForm.atIndex set.stream.tokens (first : Int) = .ok .block from hform]
  exact h

namespace BlockLines

variable {stream : TokenStream} {budget first close : Nat} {lines : List (Line stream budget)}

/-- The lines of a block are its items. -/
theorem reads (balanced : stream.Balanced) (h : BlockLines stream (first + 1) close lines)
    (hopener : stream.kind first = .opener .square)
    (hsettled : ∀ line ∈ lines, line.answer.any Statement.lacksElse = true →
      stream.continuesIf line.stop = false)
    {log : Log} (hlog : log.muted = 0) :
    (Entry.expression.setting balanced).Reads log
      (items (α := List Statement) (produce budget .statement) (.closer .square) false "statement")
      (first + 1) (lines.map Line.statements) close := by
  obtain ⟨line, hline⟩ := h.exists_first
  have hfront : stream.formBefore? (first + 1) = none := by
    refine formBefore?_eq_none ?_ ?_ <;> rw [Nat.add_sub_cancel, hopener] <;>
      exact TokenKind.noConfusion
  have hseparates : (stream.kind (first + 1)).separates false = false := by
    refine Bool.eq_false_iff.2 fun hat => ?_
    have hbegins := TokenKind.beginsNothing_of_separates hat
    rw [← hline, line.beginsNothing_eq] at hbegins
    cases hbegins
  refine .items (Nat.lt_of_succ_lt h.lt) ?_
  rw [show (Entry.expression.setting balanced).stream.skipWhile (·.separates false) (first + 1) =
    first + 1 from skipWhile_eq_self hseparates]
  exact h.readsItems balanced rfl rfl hfront hsettled hlog

end BlockLines

/-- Statements that can be read by themselves, on lines in brackets that are a block, are read as the
block that they are grouped to, if what is behind a conditional without its last branch does not read
like a branch of it. -/
theorem expression_of_lines {stream : TokenStream} (balanced : stream.Balanced)
    {budget minPower first close : Nat} {lines : List (Line stream budget)} {value : Expr}
    {span : Span} (hform : BracketForm.atIndex stream.tokens (first : Int) = .ok .block)
    (hlines : BlockLines stream (first + 1) close lines)
    (hsettled : ∀ line ∈ lines, line.answer.any Statement.lacksElse = true →
      stream.continuesIf line.stop = false)
    (hlast : lines.getLast?.map Line.statements = some [.item (.expression value span)])
    (hvalue : value.lacksElse = false) (hend : (stream.kind (close + 1)).isBoundary = true)
    {log : Log} (hlog : log.muted = 0) (history : List ParserEvent) :
    ∃ before final,
      (Statement.group (lines.flatMap Line.statements)).1 = before ++ [.expression value span] ∧
      produce (budget + 1) (.expression minPower) stream
          { position := first, log := log, history := history } =
        (.ok (.block before value
          ((stream.token first).span.join (stream.token close).span)), final) ∧
      final.position = close + 1 ∧
      final.log.diagnostics.toList = log.diagnostics.toList ++
        (Statement.group (lines.flatMap Line.statements)).2 := by
  obtain ⟨-, hopener⟩ := BracketForm.kind_of_atIndex hform
  obtain ⟨line, hline⟩ := hlines.exists_first
  have hnext : first + 1 < stream.size := by
    rw [← hline]
    exact Nat.lt_of_le_of_lt (Nat.le_add_right ..) line.lt
  have hflatten : (lines.map Line.statements).flatten.getLast? =
      some (.item (.expression value span)) := by
    obtain ⟨last, hmem, hstatements⟩ := Option.map_eq_some_iff.1 hlast
    obtain ⟨before, rfl⟩ := List.getLast?_eq_some_iff.1 hmem
    rw [List.map_append, List.flatten_append, List.map_singleton, List.flatten_singleton,
      hstatements, List.getLast?_concat]
  rw [List.flatMap_def]
  obtain ⟨before, hbefore, hruns⟩ :=
    @runs_block (Entry.expression.setting balanced) (.ofRules budget (produce budget)) log first close
      (lines.map Line.statements) value span hopener hnext hlines.closer hlines.lt
      (hlines.reads balanced hopener hsettled hlog) hflatten hvalue history
  obtain ⟨_, final, hrun, rfl, hfinal, hfinal'⟩ := Runs.exists_ok
    (runs_expression_of_block hform (hruns.mono
      (fun _ _ h => ⟨by rw [h.2.1]; exact hend, h⟩) fun _ _ hstops => hstops))
  refine ⟨before, final, hbefore, hrun, hfinal, ?_⟩
  rw [hfinal']
  exact (@ParserState.reportAll_log { position := first, log := log, history := history } hlog _).1

/-- The statement by itself that a text is, if it is one. -/
def LoneStatement.ofText? (budget : Nat) (text : String) : Option (LoneStatement budget) :=
  match TokenStream.ofText? (text ++ ";") "" with
  | none => none
  | some ⟨source, balanced⟩ =>
    match hrun : produce budget .statement source .initial with
    | (.ok answer, { position := length, log := ⟨⟨[]⟩, 0⟩, history := history }) =>
      if h : source.kind length = .semicolon then
        some {
          source := source
          balanced := balanced
          length := length
          answer := answer
          semicolon := h
          history := history
          run := hrun }
      else none
    | _ => none

/-- A statement by itself in a stream, if it stands there. -/
def LoneStatement.at? {budget : Nat} (lone : LoneStatement budget) (stream : TokenStream)
    (start : Nat) (relocation : Relocation) : Option (Line stream budget) :=
  if h : start + lone.length < stream.size ∧
      (∀ k < lone.length, stream.token (start + k) = (lone.source.token k).relocate relocation) ∧
      ∀ k < lone.length, k + 1 < lone.length →
        (stream.token (start + k)).touches (stream.token (start + (k + 1))) =
          (lone.source.token k).touches (lone.source.token (k + 1)) then
    some {
      toLoneStatement := lone
      start := start
      relocation := relocation
      lt := h.1
      token_eq := h.2.1
      touches_eq := fun k hk => h.2.2 k (Nat.lt_of_succ_lt hk) hk }
  else none

/-- The expression that statements are, where they are a single one. -/
def Statement.soleValue? : List Statement → Option Expr
  | [.item (.expression value _)] => some value
  | _ => none

theorem Statement.soleValue?_eq_some {statements : List Statement} {value : Expr}
    (h : soleValue? statements = some value) :
    ∃ span, statements = [.item (.expression value span)] := by
  unfold soleValue? at h
  split at h
  · next span =>
    cases h
    exact ⟨span, rfl⟩
  · cases h

/-- The places of a text that begins so many lines, columns and characters further on. -/
def Relocation.further (lines columns offset : Nat) : Relocation where
  onStart first := { first with
    line := first.line + lines, column := first.column + columns, offset := first.offset + offset }
  onStop last := {
    line := last.line + lines, column := last.column + columns, offset := last.offset + offset }

/-- A conditional without its last branch, and an expression on the next line. -/
theorem exists_expression_of_lines :
    ∃ (stream : TokenStream) (_ : stream.Balanced) (line next : Line stream 20) (value : Expr)
      (span : Span),
      BracketForm.atIndex stream.tokens (0 : Nat) = .ok .block ∧
      BlockLines stream 1 next.stop [line, next] ∧ line.answer.any Statement.lacksElse = true ∧
      (∀ line' ∈ [line, next], line'.answer.any Statement.lacksElse = true →
        stream.continuesIf line'.stop = false) ∧
      [line, next].getLast?.map Line.statements = some [.item (.expression value span)] ∧
      value.lacksElse = false ∧ (stream.kind (next.stop + 1)).isBoundary = true ∧
      Log.empty.muted = 0 ∧
      ∃ before final,
        (Statement.group ([line, next].flatMap Line.statements)).1 =
          before ++ [.expression value span] ∧
        produce 21 (.expression 0) stream { position := 0, log := .empty, history := [] } =
          (.ok (.block before value
            ((stream.token 0).span.join (stream.token next.stop).span)), final) ∧
        final.position = next.stop + 1 ∧
        final.log.diagnostics.toList = Log.empty.diagnostics.toList ++
          (Statement.group ([line, next].flatMap Line.statements)).2 := by
  have htest : (TokenStream.ofText? "[if a: b\nc]" "").any (fun stream =>
      (LoneStatement.ofText? 20 "if a: b").any fun lone =>
        (lone.at? stream.1 1 (.further 0 1 1)).any fun line =>
      (LoneStatement.ofText? 20 "c").any fun lone =>
        (lone.at? stream.1 (line.stop + 1) (.further 1 0 9)).any fun next =>
      (BracketForm.atIndex stream.1.tokens (0 : Nat)).toOption == some .block &&
        line.start == 1 && stream.1.kind line.stop == .newline && next.start == line.stop + 1 &&
        stream.1.kind next.stop == .closer .square && next.stop + 1 < stream.1.size &&
        line.answer.any Statement.lacksElse && !stream.1.continuesIf line.stop &&
        (stream.1.kind (next.stop + 1)).isBoundary &&
        (Statement.soleValue? next.statements).any fun value => !value.lacksElse) = true := by
    decide +kernel
  simp only [Option.any_eq_true, Bool.and_eq_true, beq_iff_eq, decide_eq_true_eq,
    Bool.not_eq_true'] at htest
  obtain ⟨⟨stream, balanced⟩, -, -, -, line, -, -, -, next, -, ⟨⟨⟨⟨⟨⟨⟨⟨⟨hform, hstart⟩, hnewline⟩,
    hnext⟩, hcloser⟩, hsize⟩, hlacks⟩, hsettled⟩, hend⟩, hlast⟩⟩ := htest
  have hform : BracketForm.atIndex stream.tokens (0 : Nat) = .ok .block := by
    cases h : BracketForm.atIndex stream.tokens (0 : Nat) <;> rw [h] at hform <;> cases hform
    rfl
  obtain ⟨value, span, hstatements, hvalue⟩ : ∃ value span,
      next.statements = [.item (.expression value span)] ∧ value.lacksElse = false := by
    obtain ⟨value, hvalue, hlacks⟩ := hlast
    obtain ⟨span, hstatements⟩ := Statement.soleValue?_eq_some hvalue
    exact ⟨value, span, hstatements, hlacks⟩
  have hlines : BlockLines stream 1 next.stop [line, next] :=
    ⟨List.isChain_pair.2 ⟨hnewline, hnext⟩, congrArg some hstart, rfl, hcloser, hsize⟩
  have hall : ∀ line' ∈ [line, next], line'.answer.any Statement.lacksElse = true →
      stream.continuesIf line'.stop = false := by
    refine List.forall_mem_cons.2 ⟨fun _ => hsettled, List.forall_mem_singleton.2 fun _ => ?_⟩
    rw [continuesIf, hcloser]
    rfl
  have hlast : [line, next].getLast?.map Line.statements = some [.item (.expression value span)] :=
    congrArg some hstatements
  exact ⟨stream, balanced, line, next, value, span, hform, hlines, hlacks, hall, hlast, hvalue, hend,
    rfl, expression_of_lines balanced hform hlines hall hlast hvalue hend rfl []⟩

/-- The second line reads like a branch of the conditional on the first one, but it is none. -/
theorem exists_rejected_lines :
    (TokenStream.ofText? "[if a: b\n1 + if p: 1 else 2]" "").any (fun stream =>
      (BracketForm.atIndex stream.1.tokens 0).toOption == some .block &&
      (LoneStatement.ofText? 20 "if a: b").any fun lone =>
        (lone.at? stream.1 1 (.further 0 1 1)).any fun line =>
      (LoneStatement.ofText? 20 "1 + if p: 1 else 2").any fun lone =>
        (lone.at? stream.1 (line.stop + 1) (.further 1 0 9)).any fun next =>
      stream.1.kind line.stop == .newline && stream.1.kind next.stop == .closer .square &&
        match next.statements with
        | [.item (.expression value _)] => !value.lacksElse
        | _ => false) = true ∧
    (parseExpression "[if a: b\n1 + if p: 1 else 2]" "").toOption.isNone = true := by
  decide +kernel

end SableFrontend
