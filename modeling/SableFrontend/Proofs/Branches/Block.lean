import SableFrontend.Proofs.Branches.Declaration
import SableFrontend.Proofs.Grammar.Brackets
import SableFrontend.Proofs.Parallel.Block
import SableFrontend.Proofs.Parallel.Contents

/-!
A conditional without its last branch at the beginning of a block. In front of the statements of any
block that is read without a word, a condition and a branch that are accepted by themselves make a
statement (`Parser.block_of_conditional`): behind a semicolon nothing can be taken for another branch.
Together with where such a conditional may stand at all, this is
`conditional_without_else_is_statement`.
-/

namespace SableFrontend

open TokenStream SableFrontend.Parser Setting

/-! ### Where blocks come from -/

namespace Expr

/-- Whether an expression is a block. -/
def isBlock : Expr → Bool
  | block _ _ _ => true
  | _ => false

end Expr

namespace Setting

variable {set : Setting} {α : Type} {state : ParserState} {inner : Nested}

theorem answers_self (set : Setting) (parser : Parser α) (state : ParserState) :
    set.Answers parser state fun answer final =>
      parser set.stream state = (.ok answer, final) := by
  unfold Answers Runs
  split
  · next heq => exact heq
  · trivial

/-- A loop answers what it began with, where it began, or what a step answered. -/
theorem answers_repeatWhile {test : Parser Bool} {step : α → Parser α} {start : α} {q : α → Prop}
    (htest : ∀ state, set.Answers test state fun _ final => final = state)
    (hstep : ∀ value state, set.Answers (step value) state fun next _ => q next) :
    set.Answers (repeatWhile test step start) state fun value final =>
      q value ∨ value = start ∧ final = state := by
  have hloop : ∀ (count : Nat) (value : α) (middle : ParserState),
      (q value ∨ value = start ∧ middle = state) →
      set.Answers (repeatWhile.iterate test step count value) middle fun value final =>
        q value ∨ value = start ∧ final = state := by
    intro count
    induction count with
    | zero => exact fun _ _ _ => .throw trivial
    | succ count ih =>
      refine fun value middle h => .bind ((htest middle).mono (fun more final heq => ?_)
        fun _ _ _ => trivial)
      subst heq
      exact .ite (fun _ => .bind ((hstep value final).mono (fun next last hnext =>
        ih next last (Or.inl hnext)) fun _ _ _ => trivial)) fun _ => .pure h
  exact .bind (.read (hloop _ start state (Or.inr ⟨rfl, rfl⟩)))

/-- What is no block, whatever was read for it. -/
def NoBlock (set : Setting) (parser : Parser Expr) : Prop :=
  ∀ state, set.Answers parser state fun answer _ => answer.isBlock = false

namespace NoBlock

variable {parser second : Parser Expr} {answer : Expr}

theorem pure (h : answer.isBlock = false) : set.NoBlock (Pure.pure answer) := fun _ => Runs.pure h

theorem throw {abort : Abort} : set.NoBlock (MonadExcept.throw abort) := fun _ => Runs.throw trivial

theorem after {first : Parser α} {next : α → Parser Expr} (h : ∀ answer, set.NoBlock (next answer)) :
    set.NoBlock (first >>= next) :=
  fun _ => .bind (answers_of_forall fun answer final => h answer final)

theorem ite {c : Prop} [Decidable c] (h : set.NoBlock parser) (h' : set.NoBlock second) :
    set.NoBlock (if c then parser else second) := by
  split
  · exact h
  · exact h'

theorem failWith {kind : DiagnosticKind} {message : String} {span : Span} {notes : List String} :
    set.NoBlock (Parser.failWith kind message span notes) :=
  after fun _ => throw

theorem unexpected {expected : List String} {context : String} :
    set.NoBlock (Parser.unexpected expected context) :=
  after fun _ => after fun _ => throw

end NoBlock

theorem noBlock_tokenOperand : set.NoBlock tokenOperand := by
  refine .after fun token => ?_
  split
  · exact .after fun _ => .after fun _ => .pure rfl
  · exact .after fun _ => .pure rfl
  · exact .after fun _ => .pure rfl
  · exact .unexpected

theorem noBlock_clauseSet : set.NoBlock (clauseSet inner) :=
  .after fun _ => .after fun _ => .after fun _ => .after fun _ =>
    .ite (.after fun _ => .pure rfl) (.pure rfl)

theorem noBlock_operatorSection : set.NoBlock (operatorSection inner) :=
  .after fun _ => .after fun _ => .after fun _ => .after fun _ =>
    .ite (.after fun _ => .after fun _ => .pure rfl)
      (.after fun _ => .after fun _ => .after fun _ => .after fun _ => .pure rfl)

theorem noBlock_leftSection : set.NoBlock leftSection :=
  .after fun _ => .after fun _ => .after fun _ => .after fun _ => .after fun _ => .pure rfl

theorem noBlock_accessor : set.NoBlock accessor :=
  .after fun _ => .after fun _ => .after fun _ => .after fun _ => .after fun _ => .after fun _ =>
    .pure rfl

/-- Of an expression that begins with a square bracket a block is all there is, and the bracket has
the form of one. -/
theorem answers_expression_of_bracket {minPower : Nat}
    (hopener : set.stream.kind state.position = .opener .square) :
    set.Answers (expression inner minPower) state fun answer final => answer.isBlock = true →
      BracketForm.atIndex set.stream.tokens (state.position : Int) = .ok .block ∧
        block inner set.stream state = (.ok answer, final) := by
  have hkind : (set.stream.token state.position).kind = .opener .square := hopener
  have hne : ∀ {kind : TokenKind}, kind ≠ .opener .square →
      ((set.stream.token state.position).kind == kind) = false := fun h =>
    beq_eq_false_iff_ne.2 fun heq => h (heq.symm.trans hkind)
  have hatom : set.Answers (atom inner) state fun answer final => answer.isBlock = true →
      BracketForm.atIndex set.stream.tokens (state.position : Int) = .ok .block ∧
        block inner set.stream state = (.ok answer, final) := by
    have hother : ∀ {parser : Parser Expr}, set.NoBlock parser →
        set.Answers parser state fun answer final => answer.isBlock = true →
          BracketForm.atIndex set.stream.tokens (state.position : Int) = .ok .block ∧
            block inner set.stream state = (.ok answer, final) := fun h =>
      (h state).mono (fun answer _ hnot his => absurd (hnot.symm.trans his) Bool.false_ne_true)
        fun _ _ _ => trivial
    refine .bind (.current ?_)
    rw [hkind]
    refine .bind (.read (.bind (.get ?_)))
    dsimp only
    split
    · next hform =>
      exact (answers_self set (block inner) state).mono (fun _ _ hrun _ => ⟨hform, hrun⟩)
        fun _ _ _ => trivial
    · exact hother noBlock_clauseSet
    · exact hother noBlock_clauseSet
    · exact hother noBlock_operatorSection
    · exact hother noBlock_leftSection
    · exact hother noBlock_accessor
    · exact hother (.after fun _ => .after fun _ => .failWith)
  -- suffixes, arguments and operators make something else of what has been read
  have hsuffixed : set.Answers (postfixExpr inner) state fun answer final => answer.isBlock = true →
      BracketForm.atIndex set.stream.tokens (state.position : Int) = .ok .block ∧
        block inner set.stream state = (.ok answer, final) := by
    refine .bind (hatom.mono (fun target middle htarget => ?_) fun _ _ _ => trivial)
    refine (answers_repeatWhile (q := fun value => value.isBlock = false) (fun _ => ?_)
      fun target middle => ?_).mono (fun value final hvalue his => ?_) fun _ _ _ => trivial
    · exact .bind (.current (.bind (.previous (.pure rfl))))
    · exact NoBlock.after (fun _ => .after fun _ => .ite (.after fun _ => .pure rfl)
        (.ite (.after fun _ => .after fun _ => .pure rfl) .unexpected)) middle
    · rcases hvalue with hnot | ⟨rfl, rfl⟩
      · exact absurd (hnot.symm.trans his) Bool.false_ne_true
      · exact htarget his
  have hoperand : set.Answers (operand inner) state fun answer final => answer.isBlock = true →
      BracketForm.atIndex set.stream.tokens (state.position : Int) = .ok .block ∧
        block inner set.stream state = (.ok answer, final) := by
    have hnot : ∀ {kind : TokenKind}, kind ≠ .opener .square →
        ¬((set.stream.token state.position).kind == kind) = true := fun hother hat =>
      absurd ((hne hother).symm.trans hat) Bool.false_ne_true
    refine .bind (.current (.ite (fun hat => absurd (Bool.and_eq_true_iff.1 hat).1
      (hnot TokenKind.noConfusion)) fun _ => .bind (.current (.ite (fun hat => absurd hat
        (hnot TokenKind.noConfusion)) fun _ => .ite (fun hat => absurd hat
          (hnot TokenKind.noConfusion)) fun _ => ?_))))
    refine Runs.bind (hsuffixed.mono (fun function middle hfunction => ?_) fun _ _ _ => trivial)
    refine (answers_repeatWhile (q := fun value => value.isBlock = false) (fun _ => ?_)
      fun function middle => ?_).mono (fun value final hvalue his => ?_) fun _ _ _ => trivial
    · unfold Answers Runs
      rw [startsArgument_apply]
    · exact NoBlock.after (fun _ => .pure rfl) middle
    · rcases hvalue with hnot | ⟨rfl, rfl⟩
      · exact absurd (hnot.symm.trans his) Bool.false_ne_true
      · exact hfunction his
  refine .bind (hoperand.mono (fun first middle hfirst => ?_) fun _ _ _ => trivial)
  refine .bind ((answers_repeatWhile (q := fun climb : Climb => climb.left.isBlock = false)
    (fun _ => ?_) fun climb middle => ?_).mono (fun climb final hclimb => .pure fun his => ?_)
      fun _ _ _ => trivial)
  · exact .bind (.current (.pure rfl))
  · refine .bind (.current ?_)
    have hrest : set.Answers (do
        let _ ← advance
        skipNewlines
        let right ← inner.expression
          (Fixity.ofOperator (set.stream.token middle.position).value).rightPower
        return {
          left := .binary climb.left (set.stream.token middle.position).value right
            (climb.left.span.join right.span)
          chained := if (Fixity.ofOperator (set.stream.token middle.position).value).associativity ==
            .none then some (Fixity.ofOperator (set.stream.token middle.position).value).precedence
            else none } : Parser Climb) middle fun next _ => next.left.isBlock = false :=
      .bind (answers_of_forall fun _ _ => .bind (answers_of_forall fun _ _ =>
        .bind (answers_of_forall fun _ _ => .pure rfl)))
    exact .ite (fun _ => .bind (.bind (answers_of_forall fun _ _ => .throw trivial))) fun _ => hrest
  · rcases hclimb with hnot | ⟨rfl, rfl⟩
    · exact absurd (hnot.symm.trans his) Bool.false_ne_true
    · exact hfirst his

/-- What stands between two square brackets is read as items without a word, and they are grouped to the
statements and the value of a block without one. -/
def ReadsBlock (set : Setting) (inner : Nested) (first close : Nat) (answer : Expr) : Prop :=
  ∃ history groups middle before value,
    items inner.statement (.closer .square) false "statement" set.stream
        { position := first + 1, log := .empty, history := history } = (.ok groups, middle) ∧
      middle.position = close ∧ middle.log = .empty ∧
      splitResult? (Statement.group groups.flatten).1 = some (before, value) ∧
      (Statement.group groups.flatten).2 = [] ∧ value.lacksElse = false ∧
      answer = .block before value
        ((set.stream.token first).span.join (set.stream.token close).span)

/-- A block that has been read without a word was made of items that were. -/
theorem exists_readsBlock {answer : Expr} {final : ParserState}
    (hitem : set.Obeys true inner.statement) (hlt : state.position < set.stream.size)
    (hopener : set.stream.kind state.position = .opener .square)
    (hrun : block inner set.stream state = (.ok answer, final)) (hstate : state.log = .empty)
    (hfinal : final.log = .empty) :
    ∃ close, set.stream.Closes (state.position + 1) (.closer .square) close ∧
      set.stream.Within (state.position + 1) close ∧
      set.stream.opened close = set.stream.opened (state.position + 1) ∧
      final.position = close + 1 ∧ set.ReadsBlock inner state.position close answer := by
  have hnext : state.position + 1 < set.stream.size :=
    succ_lt_size hlt (by rw [hopener]; exact TokenKind.noConfusion)
  have hanswers : set.Answers (block inner) state fun answer final => final.log = .empty →
      ∃ close, set.stream.Closes (state.position + 1) (.closer .square) close ∧
        set.stream.Within (state.position + 1) close ∧
        set.stream.opened close = set.stream.opened (state.position + 1) ∧
        final.position = close + 1 ∧ set.ReadsBlock inner state.position close answer := by
    refine (Reads.expect hopener hnext).runs_bind (fun history => .bind (.get ?_)) state.history
    rw [hstate]
    refine .bind ((answers_self set _ _).mono (fun groups middle hitems => ?_) fun _ _ _ => trivial)
    obtain ⟨hreached, hcloses⟩ := (runs_items hnext
      (.afterOpener .square (Nat.succ_pos _) hopener) hitem).returns hitems
    have hclose : middle.position + 1 < set.stream.size :=
      succ_lt_size hreached.lt (by rw [hcloses.kind_eq]; exact TokenKind.noConfusion)
    refine (Reads.expect hcloses.kind_eq hclose).runs_bind (fun later => ?_) middle.history
    rw [show Statement.group groups.flatten =
      ((Statement.group groups.flatten).1, (Statement.group groups.flatten).2) from rfl]
    refine .bind (.reportAll ?_)
    have hmuted : middle.log.muted = 0 := hreached.follows.muted_eq
    cases hsplit : splitResult? (Statement.group groups.flatten).1 with
    | none => exact .bind (.get (.ite (fun _ => .bind (.report (.throw trivial)))
        fun _ => .throw trivial))
    | some parts =>
      obtain ⟨before, value⟩ := parts
      dsimp only
      split
      · -- what is reported of a last statement without a value is not taken back
        refine .bind (.report (.bind (.bind (.previous (.pure fun hempty => ?_)))))
        obtain ⟨-, hnone⟩ := @ParserState.log_eq_empty_of_reportAll
          { middle with position := middle.position + 1 } ((Statement.group groups.flatten).2 ++ [_])
          hmuted (by rw [ParserState.reportAll_append]; exact hempty)
        cases (List.append_eq_nil_iff.1 hnone).2
      · next hnot =>
        refine .bind (.bind (.previous (.pure fun hempty => ?_)))
        obtain ⟨hmiddle, hreports⟩ := @ParserState.log_eq_empty_of_reportAll
          { middle with position := middle.position + 1 } _ hmuted hempty
        refine ⟨middle.position, hcloses, hreached.within, hreached.opened_eq, rfl, history, groups,
          middle, before, value, hitems, rfl, hmiddle, hsplit, hreports, ?_, rfl⟩
        unfold Expr.lacksElse
        split
        · exact absurd rfl (hnot _ _)
        · rfl
  exact hanswers.returns hrun hfinal

/-! ### A conditional in front -/

variable {log : Log} {first colon stop : Nat} {condition branch : Expr}

/-- A condition and a branch in front of a semicolon are a conditional without its last branch. -/
theorem Reads.conditional (hif : set.stream.kind first = .keyword .ifWord)
    (hcolon : set.stream.kind colon = .colon) (hstop : set.stream.kind stop = .semicolon)
    (hcondition : set.Reads log (inner.expression 0) (first + 1) condition colon)
    (hbegins : (set.stream.kind (colon + 1) == .newline) = false)
    (hbranch : set.Reads log (inner.expression 0) (colon + 1) branch stop) :
    set.Reads log (Parser.conditional inner true) first
      (.conditional [{
          condition := condition
          body := branch
          span := (set.stream.token first).span.join (set.stream.token (stop - 1)).span }] none
        ((set.stream.token first).span.join (set.stream.token (stop - 1)).span)) stop := by
  have hguarded : set.Reads log (guardedBranch inner (set.stream.token first).span) (first + 1)
      { condition := condition
        body := branch
        span := (set.stream.token first).span.join (set.stream.token (stop - 1)).span } stop := by
    refine hcondition.bind ((Reads.expect hcolon (succ_lt_size_of_kind hcolon TokenKind.noConfusion)).bind (Reads.skipWhile.bind ?_))
    rw [skipWhile_eq_self hbegins]
    exact hbranch.bind (Reads.spanFrom.bind .pure)
  have hcontinues : set.stream.continuesIf stop = false := by rw [continuesIf, hstop]; rfl
  have helse : set.stream.elseFollows stop = false := by rw [elseFollows, hstop]; rfl
  intro history
  rw [Parallel.conditional_eq]
  refine (Reads.expect hif (succ_lt_size_of_kind hif TokenKind.noConfusion)).runs_bind (fun history => ?_) history
  refine hguarded.runs_bind (fun history => ?_) history
  refine .bind (.bind (.repeatWhile_done ?_ (.pure ?_)))
  · rw [continuesIf_apply, hcontinues]
  · refine .bind (.read (.bind (.get (.ite (fun hat => ?_) fun _ => ?_))))
    · exact absurd (helse.symm.trans hat) Bool.false_ne_true
    · exact .bind (.bind (.previous (.pure (.pure ⟨rfl, rfl, rfl⟩))))

/-- The brackets in front of a conditional are a block. -/
theorem atIndex_eq_block (hopener : set.stream.kind first = .opener .square)
    (hif : set.stream.kind (first + 1) = .keyword .ifWord)
    (hbefore : set.stream.formBefore? first = none) :
    BracketForm.atIndex set.stream.tokens (first : Int) = .ok .block := by
  have hlt : first + 1 < set.stream.size :=
    Nat.lt_of_succ_lt (succ_lt_size_of_kind hif TokenKind.noConfusion)
  rw [BracketForm.atIndex_eq (Nat.lt_of_succ_lt hlt) hopener, hbefore, map_kind_drop hlt, hif]
  rfl

end Setting

/-- A statement that is an expression stays in front of what other statements are grouped to. -/
theorem Statement.group_expression_cons (value : Expr) (span : Span) (statements : List Statement) :
    group (.item (.expression value span) :: statements) =
      (.expression value span :: (group statements).1, (group statements).2) := by
  rw [← List.singleton_append, group_append rfl]
  have hmerged : Merged Item.definition? Item.ofDefinition
      (.expression value span :: (group statements).1) :=
    List.isChain_cons.2 ⟨fun next _ => merged?_eq_none_iff.2 nofun, merged_group statements⟩
  exact Prod.ext hmerged.mergeDefinitions_eq rfl

theorem Expr.lacksElse_relocate (r : Relocation) (value : Expr) :
    (value.relocate r).lacksElse = value.lacksElse := by
  cases value with
  | conditional branches otherwise span => cases otherwise <;> simp [lacksElse]
  | _ => simp [lacksElse]

theorem Parser.splitResult?_cons {statements before : List Item} {value : Expr}
    (h : splitResult? statements = some (before, value)) (first : Item) :
    splitResult? (first :: statements) = some (first :: before, value) := by
  obtain ⟨span, rfl⟩ := splitResult?_eq_some h
  rw [← List.cons_append, splitResult?, List.getLast?_concat]
  exact congrArg (fun list => some (list, value)) List.dropLast_concat

/-- In a stream, square brackets around a condition and a branch that are accepted by themselves and,
behind a semicolon, around what stands in the square brackets of another source. -/
structure Guarding {budget : Nat} (condition branch : Accepted (α := Expr) (produce budget (.expression 0)))
    (rest : Accepted (α := Expr) (produce (budget + 2) (.expression 0))) (stream : TokenStream)
    (first colon semicolon close : Nat) (r₁ r₂ r₃ : Relocation) : Prop where
  opener : stream.kind first = .opener .square
  formBefore_eq : stream.formBefore? first = none
  ifWord : stream.kind (first + 1) = .keyword .ifWord
  condition_stands : condition.StandsIn stream r₁ (first + 2)
  colon_eq : colon = first + 2 + condition.length
  colon_kind : stream.kind colon = .colon
  branch_stands : branch.StandsIn stream r₂ (colon + 1)
  semicolon_eq : semicolon = colon + 1 + branch.length
  semicolon_kind : stream.kind semicolon = .semicolon
  close_eq : close + 1 = semicolon + rest.length
  token_eq : ∀ k, k + 1 < rest.length →
    stream.token (semicolon + 1 + k) = (rest.source.token (1 + k)).relocate r₃
  touches_eq : ∀ k, k + 2 < rest.length →
    (stream.token (semicolon + 1 + k)).touches (stream.token (semicolon + 1 + (k + 1))) =
      (rest.source.token (1 + k)).touches (rest.source.token (1 + (k + 1)))
  boundary : (stream.kind (close + 1)).isBoundary = true

/-- A conditional without its last branch as a statement. -/
def Item.guarded (condition branch : Expr) (span : Span) : Item :=
  .expression (.conditional [{ condition := condition, body := branch, span := span }] none span) span

section

variable {set : Setting} {budget minPower first colon semicolon close : Nat}
  {condition branch : Accepted (α := Expr) (produce budget (.expression 0))}
  {rest : Accepted (α := Expr) (produce (budget + 2) (.expression 0))} {r₁ r₂ r₃ : Relocation}
  {log : Log}

/-- The condition and the branch are read as a statement. -/
theorem Guarding.reads_statement
    (h : Guarding condition branch rest set.stream first colon semicolon close r₁ r₂ r₃)
    (hlog : log.muted = 0) :
    set.Reads log (produce (budget + 1) .statement) (first + 1)
      [.item (.guarded (r₁.move condition.value) (r₂.move branch.value)
        ((set.stream.token (first + 1)).span.join (set.stream.token (semicolon - 1)).span))]
      semicolon := by
  have hcondition := condition.reads_expression h.condition_stands hlog
  have hbranch := branch.reads_expression h.branch_stands hlog
  rw [← h.colon_eq] at hcondition
  rw [← h.semicolon_eq] at hbranch
  have hbegins : (set.stream.kind (colon + 1) == .newline) = false := by
    have hfirst := h.branch_stands.kind_eq (branch.length_pos
      (obeys_produce Or.inr Abort.Arises.tooDeep budget (.expression 0)))
    have hseparator := branch.begins
    rw [Nat.add_zero] at hfirst
    rw [← hfirst] at hseparator
    exact beq_eq_false_iff_ne.2 fun heq => by
      rw [heq] at hseparator
      cases hseparator
  have hconditional : set.Reads log (Parser.conditional (.ofRules budget (produce budget)) true) _ _ _ :=
    Reads.conditional h.ifWord h.colon_kind h.semicolon_kind hcondition hbegins hbranch
  refine Reads.current.bind ?_
  rw [show (set.stream.token (first + 1)).kind = _ from h.ifWord]
  exact hconditional.bind .pure

/-- What stands between the brackets of a block that is accepted. -/
theorem Accepted.exists_readsBlock (hbracket : rest.source.kind 0 = .opener .square)
    (hblock : rest.value.isBlock = true) :
    ∃ last, rest.length = last + 1 ∧ rest.source.Closes 1 (.closer .square) last ∧
      rest.source.Within 1 last ∧ rest.source.opened last = rest.source.opened 1 ∧
      rest.setting.ReadsBlock (.ofRules (budget + 1) (produce (budget + 1))) 0 last rest.value := by
  have hobeys : ∀ budget rule, rest.setting.Obeys true (produce budget rule) :=
    obeys_produce Or.inr Abort.Arises.tooDeep
  obtain ⟨history, hrun⟩ := rest.exists_run (hobeys _ (.expression 0))
  have hanswers : rest.setting.Answers
      (Parser.expression (.ofRules (budget + 1) (produce (budget + 1))) 0) .initial _ :=
    answers_expression_of_bracket hbracket
  obtain ⟨-, hrun⟩ := hanswers.returns hrun hblock
  obtain ⟨last, hcloses, hwithin, hopened, hlast, hreads⟩ :=
    Setting.exists_readsBlock (hobeys (budget + 1) .statement) rest.source.size_pos hbracket hrun rfl
      rfl
  exact ⟨last, hlast, hcloses, hwithin, hopened, hreads⟩

/-- Behind the semicolon what stands between the other brackets recurs. -/
theorem Guarding.recurs
    (h : Guarding condition branch rest set.stream first colon semicolon close r₁ r₂ r₃) {last : Nat}
    (hbracket : rest.source.kind 0 = .opener .square) (hlast : rest.length = last + 1)
    (hcloses : rest.source.Closes 1 (.closer .square) last) (hwithin : rest.source.Within 1 last)
    (hopened : rest.source.opened last = rest.source.opened 1) :
    rest.setting.Recurs set.stream r₃ 1 (semicolon + 1) (last - 1) ∧
      Recurs.Ends rest.setting set.stream r₃ 1 (semicolon + 1) (last - 1) true ∧
      set.stream.opened (semicolon + 1) = set.stream.opened (first + 1) ∧
      semicolon + 1 + (last - 1) = close := by
  have hnext : ∀ {place : Nat} {kind : TokenKind}, set.stream.kind place = kind →
      kind.isPlain = true → set.stream.opened (place + 1) = set.stream.opened place :=
    fun hkind hplain => opened_succ_plain (Nat.lt_of_succ_lt (succ_lt_size_of_kind hkind
      (fun heq => by rw [heq] at hplain; cases hplain))) (hkind ▸ hplain)
  have hsame : set.stream.opened (semicolon + 1) = set.stream.opened (first + 1) := by
    rw [hnext h.semicolon_kind rfl, h.semicolon_eq, h.branch_stands.recurs.opened_add,
      hnext h.colon_kind rfl, h.colon_eq, h.condition_stands.recurs.opened_add, hnext h.ifWord rfl]
  have hplace : 1 + (last - 1) = last := Nat.add_sub_cancel' hcloses.le
  have hclose : semicolon + 1 + (last - 1) = close := by
    have hle := hcloses.le
    have heq := h.close_eq
    omega
  have htoken := h.token_eq (last - 1) (by have hle := hcloses.le; omega)
  rw [hplace] at htoken
  have hkind : set.stream.kind (semicolon + 1 + (last - 1)) = .closer .square := by
    rw [TokenStream.kind, htoken]
    exact hcloses.kind_eq
  refine ⟨⟨?_, ?_, ?_, ?_, ?_, ?_, ?_, ?_, ?_⟩, ⟨?_, ?_⟩, hsame, hclose⟩
  · rw [hplace]
    exact hwithin
  · rw [hplace]
    exact hopened
  · have hfirst : rest.source.opened 1 = .square :: rest.source.opened 0 :=
      opened_succ_opener rest.source.size_pos hbracket
    rw [hsame, opened_succ_opener (Nat.lt_of_succ_lt (succ_lt_size_of_kind h.opener
      TokenKind.noConfusion)) h.opener]
    show (rest.source.opened 1).length ≤ _
    rw [hfirst, opened_zero]
    exact Nat.succ_le_succ (Nat.zero_le _)
  · exact Nat.lt_of_succ_lt (succ_lt_size_of_kind hkind TokenKind.noConfusion)
  · exact fun k hk => h.token_eq k (by omega)
  · exact fun k hk => h.touches_eq k (by omega)
  · intro _
    rw [formBefore?_eq_none, formBefore?_eq_none]
    · show rest.source.kind 0 ≠ _
      rw [hbracket]
      exact TokenKind.noConfusion
    · show rest.source.kind 0 ≠ _
      rw [hbracket]
      exact TokenKind.noConfusion
    · rw [Nat.add_sub_cancel, h.semicolon_kind]
      exact TokenKind.noConfusion
    · rw [Nat.add_sub_cancel, h.semicolon_kind]
      exact TokenKind.noConfusion
  · rw [hplace, show rest.setting.stream.kind last = _ from hcloses.kind_eq]
    rfl
  · rw [hkind]
    rfl
  · rw [hplace]
    exact htoken
  · rw [hplace, show rest.setting.stream.kind last = _ from hcloses.kind_eq]
    rfl

end

/-- In front of the statements of a block that is accepted, a condition and a branch that are accepted
make a statement, and nothing is reported. -/
theorem Parser.block_of_conditional {set : Setting} {budget minPower first colon semicolon close : Nat}
    {condition branch : Accepted (α := Expr) (produce budget (.expression 0))}
    {rest : Accepted (α := Expr) (produce (budget + 2) (.expression 0))} {r₁ r₂ r₃ : Relocation}
    {log : Log} (h : Guarding condition branch rest set.stream first colon semicolon close r₁ r₂ r₃)
    (hbracket : rest.source.kind 0 = .opener .square) (hblock : rest.value.isBlock = true)
    (hlog : log.muted = 0) :
    ∃ statements result span, rest.value = .block statements result span ∧
      set.Reads log (α := Expr) (produce (budget + 2) (.expression minPower)) first
        (.block
          (.guarded (r₁.move condition.value) (r₂.move branch.value)
            ((set.stream.token (first + 1)).span.join (set.stream.token (semicolon - 1)).span) ::
              r₃.move statements)
          (r₃.move result) ((set.stream.token first).span.join (set.stream.token close).span))
        (close + 1) := by
  obtain ⟨last, hlast, hcloses, hwithin, hopened, history, groups, middle, before, value, hitems, rfl,
    hmiddle, hsplit, hreports, hvalue, hanswer⟩ := rest.exists_readsBlock hbracket hblock
  obtain ⟨hrecurs, hends, hlevel, hclose⟩ := h.recurs hbracket hlast hcloses hwithin hopened
  refine ⟨before, value, _, hanswer, ?_⟩
  have hobeys : rest.setting.Obeys (α := List Statement) true (produce (budget + 1) .statement) :=
    obeys_produce Or.inr Abort.Arises.tooDeep (budget + 1) .statement
  have hsize := succ_lt_size_of_kind h.opener TokenKind.noConfusion
  have hle := hcloses.le
  have hstatement := h.reads_statement hlog
  -- the rounds behind the first one are those that read the other block
  have hrounds := @Setting.Recurs.reads_iterate (List Statement) _ rest.setting set r₃ _ _
    ⟨1, .empty, history⟩ _ _ _ _ (set.stream.enclosureAt (first + 1) (.closer .square) false) _ _
    (set.stream.size - 1) _ hrecurs hends hcloses.opens hobeys
    (fun P => (P.nestsAlike_ofRules Or.inr Abort.Arises.tooDeep (budget + 1)).statement) hitems rfl
    hmiddle (Nat.add_sub_cancel' hle).symm rfl rfl
    ((set.balanced.depth_eq hsize).trans (congrArg List.length hlevel.symm)) (by omega) hlog
  generalize hguarded : Item.guarded (r₁.move condition.value) (r₂.move branch.value)
    ((set.stream.token (first + 1)).span.join (set.stream.token (semicolon - 1)).span) = guarded
    at hstatement ⊢
  have hreads : set.Reads log (items (α := List Statement) (produce (budget + 1) .statement)
      (.closer .square) false "statement") (first + 1)
      ([Statement.item guarded] :: r₃.move groups) close := by
    rw [show [Statement.item guarded] :: r₃.move groups =
      ((r₃.move groups).reverse ++ [[Statement.item guarded]]).reverse by simp]
    refine Reads.items_of_iterate ?_
    rw [skipWhile_eq_self (by rw [h.ifWord]; rfl), ← Nat.sub_add_cancel set.stream.size_pos]
    refine Reads.iterate_cons (by rw [h.ifWord]; exact TokenKind.noConfusion)
      (by rw [h.ifWord]; exact TokenKind.noConfusion) hstatement
      (Or.inr (by rw [h.semicolon_kind]; rfl)) ?_
    rw [TokenStream.skipWhile, if_pos (Nat.lt_of_succ_lt (succ_lt_size_of_kind h.semicolon_kind
      TokenKind.noConfusion)), if_pos (by rw [h.semicolon_kind]; rfl), ← hclose]
    exact hrounds
  have hcloser : set.stream.kind close = .closer .square := by
    rw [← hclose, TokenStream.kind, hends.1, Nat.add_sub_cancel' hle]
    exact hcloses.kind_eq
  have hgroup : Statement.group ([Statement.item guarded] :: r₃.move groups).flatten =
      (guarded :: r₃.move (Statement.group groups.flatten).1, []) := by
    rw [List.flatten_cons, r₃.move_flatten, List.singleton_append, ← hguarded, Item.guarded,
      Statement.group_expression_cons, Statement.relocate_group, hreports]
    rfl
  have hsplit' : splitResult? (Statement.group ([Statement.item guarded] ::
      r₃.move groups).flatten).1 = some (guarded :: r₃.move before, r₃.move value) := by
    rw [hgroup]
    refine splitResult?_cons ?_ guarded
    rw [Parallel.splitResult?_relocate, hsplit]
    rfl
  refine fun history => runs_expression_of_block (atIndex_eq_block h.opener h.ifWord h.formBefore_eq)
    ((@runs_block_of_split set (.ofRules (budget + 1) (produce (budget + 1))) _ _ _ _ _ _ h.opener hsize
      ?_ ?_ hreads hsplit' ?_ history).mono (fun answer final hread => ?_)
        fun _ _ => False.elim)
  · exact hcloser
  · exact succ_lt_size_of_kind hcloser TokenKind.noConfusion
  · exact (value.lacksElse_relocate r₃).trans hvalue
  · obtain ⟨hanswer, hposition, hlog⟩ := hread
    refine ⟨by rw [hposition]; exact h.boundary, hanswer, hposition, ?_⟩
    rw [hlog, hgroup]
    rfl

instance {budget : Nat} (condition branch : Accepted (α := Expr) (produce budget (.expression 0)))
    (rest : Accepted (α := Expr) (produce (budget + 2) (.expression 0))) (stream : TokenStream)
    (first colon semicolon close : Nat) (r₁ r₂ r₃ : Relocation) :
    Decidable (Guarding condition branch rest stream first colon semicolon close r₁ r₂ r₃) :=
  have := condition.decidableStandsIn stream r₁ (first + 2)
  have := branch.decidableStandsIn stream r₂ (colon + 1)
  decidable_of_iff ((stream.kind first = .opener .square ∧ stream.formBefore? first = none ∧
        stream.kind (first + 1) = .keyword .ifWord ∧ condition.StandsIn stream r₁ (first + 2) ∧
        colon = first + 2 + condition.length ∧ stream.kind colon = .colon) ∧
      (branch.StandsIn stream r₂ (colon + 1) ∧ semicolon = colon + 1 + branch.length ∧
        stream.kind semicolon = .semicolon ∧ close + 1 = semicolon + rest.length) ∧
      (∀ k < rest.length, k + 1 < rest.length →
        stream.token (semicolon + 1 + k) = (rest.source.token (1 + k)).relocate r₃) ∧
      (∀ k < rest.length, k + 2 < rest.length →
        (stream.token (semicolon + 1 + k)).touches (stream.token (semicolon + 1 + (k + 1))) =
          (rest.source.token (1 + k)).touches (rest.source.token (1 + (k + 1)))) ∧
      (stream.kind (close + 1)).isBoundary = true)
    ⟨fun ⟨⟨h₁, h₂, h₃, h₄, h₅, h₆⟩, ⟨h₇, h₈, h₉, h₁₀⟩, h₁₁, h₁₂, h₁₃⟩ =>
        ⟨h₁, h₂, h₃, h₄, h₅, h₆, h₇, h₈, h₉, h₁₀, fun k hk => h₁₁ k (by omega) hk,
          fun k hk => h₁₂ k (by omega) hk, h₁₃⟩,
      fun h => ⟨⟨h.opener, h.formBefore_eq, h.ifWord, h.condition_stands, h.colon_eq, h.colon_kind⟩,
        ⟨h.branch_stands, h.semicolon_eq, h.semicolon_kind, h.close_eq⟩, fun k _ => h.token_eq k,
        fun k _ => h.touches_eq k, h.boundary⟩⟩

/-- Where no conditional is reported to lack its last branch, each one that lacks it is a statement of a
block that is not the last one; and in front of a block such a conditional may always stand. -/
theorem conditional_without_else_is_statement :
    (∀ {text file : String} {result : ParseResult}, parseSource text file = .ok result →
      (∀ diagnostic ∈ result.diagnostics, diagnostic.kind ≠ .missingElseBranch) →
      ∀ source ∈ result.module?, source.outline.All Outline.Places) ∧
    ∀ {set : Setting} {budget minPower first colon semicolon close : Nat}
      {condition branch : Accepted (α := Expr) (produce budget (.expression 0))}
      {rest : Accepted (α := Expr) (produce (budget + 2) (.expression 0))} {r₁ r₂ r₃ : Relocation}
      {log : Log}, Guarding condition branch rest set.stream first colon semicolon close r₁ r₂ r₃ →
      rest.source.kind 0 = .opener .square → rest.value.isBlock = true → log.muted = 0 →
      ∃ statements result span, rest.value = .block statements result span ∧
        set.Reads log (α := Expr) (produce (budget + 2) (.expression minPower)) first
          (.block
            (.guarded (r₁.move condition.value) (r₂.move branch.value)
              ((set.stream.token (first + 1)).span.join (set.stream.token (semicolon - 1)).span) ::
                r₃.move statements)
            (r₃.move result) ((set.stream.token first).span.join (set.stream.token close).span))
          (close + 1) :=
  ⟨fun hparse hnone _ hsource => places_of_parseSource hparse hnone hsource,
    fun h hbracket hblock hlog => block_of_conditional h hbracket hblock hlog⟩

/-- A conditional in front of the value of a block. -/
theorem exists_conditional_without_else :
    (∃ result, parseSource "x = [if a: b; c]" "f" = .ok result ∧
      (∀ diagnostic ∈ result.diagnostics, diagnostic.kind ≠ .missingElseBranch) ∧
      ∃ source ∈ result.module?, source.outline.All Outline.Places) ∧
    ∃ (set : Setting) (condition branch : Accepted (α := Expr) (produce 20 (.expression 0)))
      (rest : Accepted (α := Expr) (produce 22 (.expression 0))),
      Guarding condition branch rest set.stream 0 3 5 7 (.further 0 4 4) (.further 0 7 7)
        (.further 0 9 9) ∧
      rest.source.kind 0 = .opener .square ∧ rest.value.isBlock = true ∧
      ∃ statements result span, rest.value = .block statements result span ∧
        set.Reads .empty (α := Expr) (produce 22 (.expression 0)) 0
          (.block
            (.guarded ((Relocation.further 0 4 4).move condition.value)
              ((Relocation.further 0 7 7).move branch.value)
              ((set.stream.token 1).span.join (set.stream.token 4).span) ::
                (Relocation.further 0 9 9).move statements)
            ((Relocation.further 0 9 9).move result)
            ((set.stream.token 0).span.join (set.stream.token 7).span)) 8 := by
  refine ⟨?_, ?_⟩
  · have htest : (parseSource "x = [if a: b; c]" "f").toOption.any (fun result =>
        result.diagnostics.all (·.kind != .missingElseBranch) && result.module?.isSome) = true := by
      decide +kernel
    simp only [Option.any_eq_true, Bool.and_eq_true, List.all_eq_true, bne_iff_ne,
      Option.isSome_iff_exists] at htest
    obtain ⟨result, hparse, hnone, source, hsource⟩ := htest
    have hparse : parseSource "x = [if a: b; c]" "f" = .ok result := by
      cases h : parseSource "x = [if a: b; c]" "f" <;> rw [h] at hparse <;> cases hparse
      rfl
    exact ⟨result, hparse, hnone, source, hsource,
      conditional_without_else_is_statement.1 hparse hnone source hsource⟩
  · have htest : (TokenStream.ofText? "[if a: b; c]" "").any (fun stream =>
        (Accepted.ofText? (α := Expr) (produce 20 (.expression 0)) "a").any fun condition =>
        (Accepted.ofText? (α := Expr) (produce 20 (.expression 0)) "b").any fun branch =>
        (Accepted.ofText? (α := Expr) (produce 22 (.expression 0)) "[c]").any fun rest =>
        decide (Guarding condition branch rest stream.1 0 3 5 7 (.further 0 4 4) (.further 0 7 7)
            (.further 0 9 9)) &&
          rest.source.kind 0 == .opener .square && rest.value.isBlock) = true := by
      decide +kernel
    simp only [Option.any_eq_true, Bool.and_eq_true, beq_iff_eq, decide_eq_true_eq] at htest
    obtain ⟨⟨stream, balanced⟩, -, condition, -, branch, -, rest, -, ⟨hguarding, hbracket⟩, hblock⟩ :=
      htest
    obtain ⟨-, hread⟩ := conditional_without_else_is_statement
    exact ⟨Entry.expression.setting balanced, condition, branch, rest, hguarding, hbracket, hblock,
      @hread (Entry.expression.setting balanced) 20 0 _ _ _ _ condition branch rest _ _ _ _ hguarding
        hbracket hblock rfl⟩

end SableFrontend
