import SableFrontend.Proofs.Branches.Block

/-!
Line breaks behind an opening square bracket. The form of the brackets is settled behind the line breaks
that follow the opener, so what reads them has to skip line breaks as well. All of the productions do,
except for the one for an operator with its left operand, which fails at the first line break
(`squareExpr_of_padded`).

What a production reads between the brackets is a parser of its own, its content: it begins with
skipping line breaks or separators, and from it and the brackets the answer is built (`Encloses`).
-/

namespace SableFrontend

open TokenStream SableFrontend.Parser Setting

/-- A stream with line breaks put in behind a token. What follows them may stand at other places. -/
structure TokenStream.Padded (stream other : TokenStream) (relocation : Relocation)
    (first count : Nat) : Prop where
  size_eq : other.size = stream.size + count
  token_eq : ∀ k ≤ first, other.token k = stream.token k
  newline : ∀ k < count, other.kind (first + 1 + k) = .newline
  later_eq : ∀ k, first < k → k < stream.size →
    other.token (k + count) = (stream.token k).relocate relocation
  touches_eq : ∀ k, first < k → k + 1 < stream.size →
    (other.token (k + count)).touches (other.token (k + 1 + count)) =
      (stream.token k).touches (stream.token (k + 1))

namespace TokenStream.Padded

instance (stream other : TokenStream) (relocation : Relocation) (first count : Nat) :
    Decidable (stream.Padded other relocation first count) :=
  decidable_of_iff (other.size = stream.size + count ∧
      (∀ k < first + 1, other.token k = stream.token k) ∧
      (∀ k < count, other.kind (first + 1 + k) = .newline) ∧
      (∀ k < stream.size, first < k → other.token (k + count) = (stream.token k).relocate relocation) ∧
      ∀ k < stream.size, first < k → k + 1 < stream.size →
        (other.token (k + count)).touches (other.token (k + 1 + count)) =
          (stream.token k).touches (stream.token (k + 1)))
    ⟨fun ⟨hsize, htoken, hnewline, hlater, htouches⟩ => {
        size_eq := hsize
        token_eq := fun k hle => htoken k (Nat.lt_succ_of_le hle)
        newline := hnewline
        later_eq := fun k hfirst hlt => hlater k hlt hfirst
        touches_eq := fun k hfirst hlt => htouches k (Nat.lt_of_succ_lt hlt) hfirst hlt },
      fun h => ⟨h.size_eq, fun k hlt => h.token_eq k (Nat.le_of_lt_succ hlt), h.newline,
        fun k hlt hfirst => h.later_eq k hfirst hlt, fun k _ hfirst => h.touches_eq k hfirst⟩⟩

variable {stream other : TokenStream} {relocation : Relocation} {first count position : Nat}
  (h : stream.Padded other relocation first count)
include h

theorem kind_eq (hle : position ≤ first) : other.kind position = stream.kind position := by
  rw [TokenStream.kind, h.token_eq position hle]
  rfl

theorem opened_eq (hlt : first < stream.size) (hle : position ≤ first + 1) :
    other.opened position = stream.opened position := by
  have hsize := h.size_eq
  induction position with
  | zero => rw [opened_zero, opened_zero]
  | succ position ih =>
    rw [opened_succ (by omega), opened_succ (by omega), ih (by omega), h.kind_eq (by omega)]

/-- Line breaks neither open nor close anything. -/
theorem opened_add (hlt : first < stream.size) (hle : position ≤ count) :
    other.opened (first + 1 + position) = stream.opened (first + 1) := by
  have hsize := h.size_eq
  induction position with
  | zero => exact h.opened_eq hlt (Nat.le_refl _)
  | succ position ih =>
    rw [← Nat.add_assoc, opened_succ_plain (by omega) (by rw [h.newline position hle]; rfl),
      ih (Nat.le_of_succ_le hle)]

/-- Whatever skips line breaks skips those that were put in. -/
theorem skipWhile_eq {isMember : TokenKind → Bool} (hnewline : isMember .newline = true)
    (hlt : first < stream.size) :
    other.skipWhile isMember (first + 1) = other.skipWhile isMember (first + 1 + count) := by
  have hsize := h.size_eq
  have hstep : ∀ k ≤ count, other.skipWhile isMember (first + 1) =
      other.skipWhile isMember (first + 1 + k) := by
    intro k
    induction k with
    | zero => exact fun _ => rfl
    | succ k ih =>
      intro hle
      rw [ih (Nat.le_of_succ_le hle), TokenStream.skipWhile, if_pos (by omega),
        if_pos (by rw [h.newline k hle]; exact hnewline), Nat.add_assoc]
  exact hstep count (Nat.le_refl _)

/-- In front of what is behind the line breaks stands one of them, or the token itself. -/
theorem kind_pred (hopener : stream.kind first = .opener .square) :
    other.kind (first + 1 + count - 1) = .newline ∨
      other.kind (first + 1 + count - 1) = .opener .square := by
  cases count with
  | zero => exact Or.inr ((h.kind_eq (Nat.le_refl _)).trans hopener)
  | succ count => exact Or.inl (h.newline count (Nat.lt_succ_self _))

end TokenStream.Padded

namespace Setting

variable {set set' : Setting} {relocation : Relocation} {first count : Nat} {α : Type}

/-- What is behind the opener stands behind the line breaks again. -/
theorem recurs_of_padded (h : set.stream.Padded set'.stream relocation first count)
    (hopener : set.stream.kind first = .opener .square) {close : Nat}
    (hwithin : set.stream.Within (first + 1) close)
    (hopened : set.stream.opened close = set.stream.opened (first + 1))
    (hcloser : set.stream.kind close = .closer .square) :
    set.Recurs set'.stream relocation (first + 1) (first + 1 + count) (close - (first + 1)) ∧
      Recurs.Ends set set'.stream relocation (first + 1) (first + 1 + count) (close - (first + 1))
        true := by
  have hsize := h.size_eq
  have hlt := hwithin.lt
  have hle := hwithin.le
  have hplace : first + 1 + (close - (first + 1)) = close := Nat.add_sub_cancel' hle
  have hend : first + 1 + count + (close - (first + 1)) = close + count := by omega
  have htoken : ∀ k, first + 1 + k < set.stream.size →
      set'.stream.token (first + 1 + count + k) =
        (set.stream.token (first + 1 + k)).relocate relocation := fun k hk => by
    rw [← h.later_eq (first + 1 + k) (by omega) hk, Nat.add_right_comm]
  have hlast := h.later_eq close hle hlt
  have hkind : set'.stream.kind (close + count) = .closer .square := by
    rw [TokenStream.kind, hlast]
    exact hcloser
  refine ⟨⟨?_, ?_, ?_, ?_, fun k hk => htoken k (by omega), fun k hk => ?_, fun _ => ?_, ?_, ?_⟩,
    ⟨?_, ?_⟩⟩
  · rwa [hplace]
  · rwa [hplace]
  · rw [h.opened_add (by omega) (Nat.le_refl _)]
  · omega
  · have htouches := h.touches_eq (first + 1 + k) (by omega) (by omega)
    rwa [show first + 1 + k + count = first + 1 + count + k by omega,
      show first + 1 + k + 1 + count = first + 1 + count + (k + 1) by omega] at htouches
  · rw [formBefore?_eq_none, formBefore?_eq_none]
    · rw [Nat.add_sub_cancel, hopener]
      exact TokenKind.noConfusion
    · rw [Nat.add_sub_cancel, hopener]
      exact TokenKind.noConfusion
    · rcases h.kind_pred hopener with hkind | hkind <;> rw [hkind] <;> exact TokenKind.noConfusion
    · rcases h.kind_pred hopener with hkind | hkind <;> rw [hkind] <;> exact TokenKind.noConfusion
  · rw [hplace, hcloser]
    rfl
  · rw [hend, hkind]
    rfl
  · rw [hplace, hend, hlast]
  · rw [hplace, hcloser]
    rfl

/-! ### Contents -/

/-- What is read between two brackets is read again behind the line breaks. -/
def Rereads [Relocatable α] (set set' : Setting) (relocation : Relocation) (first count : Nat)
    (content : Parser α) : Prop :=
  ∀ {value state final}, content set.stream state = (.ok value, final) → state.position = first + 1 →
    state.log = .empty → final.log = .empty → set.stream.kind final.position = .closer .square →
    ∀ {log : Log}, log.muted = 0 →
      set'.Reads log content (first + 1) (relocation.move value) (final.position + count)

section

variable [Relocatable α] (h : set.stream.Padded set'.stream relocation first count)
  (hopener : set.stream.kind first = .opener .square)
include h hopener

/-- Items are read again. -/
theorem rereads_items {item : Parser α} {commas : Bool} {what : String} (hitem : set.Obeys true item)
    (hmirrors : ∀ P : Parallel set, P.MirrorsInside true item) :
    set.Rereads set' relocation first count (items item (.closer .square) commas what) := by
  rintro answers ⟨position, log', history⟩ final hrun rfl rfl hfinal hcloser log hlog
  have hlt : first + 1 < set.stream.size := succ_lt_size_of_kind hopener TokenKind.noConfusion
  have hopens : set.stream.Opens (first + 1) (.closer .square) :=
    .afterOpener .square (Nat.succ_pos _) hopener
  obtain ⟨hreached, -⟩ := (runs_items hlt hopens hitem).returns hrun
  have hle := hreached.within.le
  dsimp only at hle
  obtain ⟨hrecurs, hends⟩ :=
    recurs_of_padded h hopener hreached.within hreached.opened_eq hcloser
  have hlt' : first + 1 < set'.stream.size := by rw [h.size_eq]; omega
  have hsame : set'.stream.opened (first + 1) = set'.stream.opened (first + 1 + count) := by
    rw [h.opened_eq (by omega) (Nat.le_refl _), h.opened_add (by omega) (Nat.le_refl _)]
  rw [show final.position + count = first + 1 + count + (final.position - (first + 1)) by omega,
    ← List.reverse_reverse (relocation.move answers)]
  refine Reads.items_of_iterate ?_
  rw [h.skipWhile_eq rfl (by omega)]
  exact hrecurs.reads_iterate hends hopens hitem
    hmirrors hrun rfl hfinal (by dsimp only; omega) rfl rfl
    ((set'.balanced.depth_eq hlt').trans (congrArg List.length hsame)) (Nat.le_add_right ..) hlog

/-- What begins with skipping line breaks is read again. -/
theorem rereads_skipNewlines {next : Unit → Parser α}
    (hobeys : set.Obeys false (skipNewlines >>= next))
    (hmirrors : ∀ P : Parallel set, P.MirrorsInside true (skipNewlines >>= next)) :
    set.Rereads set' relocation first count (skipNewlines >>= next) := by
  rintro value ⟨position, log', history⟩ final hrun rfl rfl hfinal hcloser log hlog
  have hlt : first + 1 < set.stream.size := succ_lt_size_of_kind hopener TokenKind.noConfusion
  have hreached := (hobeys ⟨first + 1, .empty, history⟩ hlt).returns hrun
  have hle := hreached.within.le
  dsimp only at hle
  obtain ⟨hrecurs, hends⟩ :=
    recurs_of_padded h hopener hreached.within hreached.opened_eq hcloser
  have hreads := hrecurs.reads hends (hmirrors _ ⟨first + 1, .empty, history⟩ hlt (fun _ => rfl)
    (Or.inl rfl)) hrun rfl hfinal (Nat.le_refl _) (by omega) id hlog
  rw [show first + 1 + count + (final.position - (first + 1)) = final.position + count by omega,
    show (ParserState.mk (first + 1) .empty history).position = first + 1 from rfl, Nat.sub_self,
    Nat.add_zero] at hreads
  -- both skip to the same place
  intro history'
  have hskip : ∀ position, (skipNewlines >>= next) set'.stream
      { position := position, log := log, history := history' } =
        next () set'.stream { position := set'.stream.skipWhile (· == .newline) position, log := log,
                              history := history' } := fun _ => rfl
  have hruns := hreads history'
  unfold Runs at hruns ⊢
  have hnewlines : set'.stream.skipWhile (· == .newline) (first + 1) =
      set'.stream.skipWhile (· == .newline) (first + 1 + count) := h.skipWhile_eq rfl (by omega)
  rw [hskip, hnewlines, ← hskip]
  exact hruns

end

/-! ### Brackets around contents -/

/-- What a production reads from an opener on, without a word, it builds from a content and the
brackets around it. -/
def HasContent (set : Setting) (production : Parser Expr) (content : Parser α)
    (build : α → Span → Expr) (keeps : α → Prop) : Prop :=
  ∀ {state final answer}, set.stream.kind state.position = .opener .square →
    production set.stream state = (.ok answer, final) → state.log = .empty → final.log = .empty →
    ∃ history value middle,
      content set.stream { position := state.position + 1, log := .empty, history := history } =
        (.ok value, middle) ∧
      state.position < middle.position ∧ middle.log = .empty ∧
      set.stream.kind middle.position = .closer .square ∧ final.position = middle.position + 1 ∧ keeps value ∧
      answer = build value
        ((set.stream.token state.position).span.join (set.stream.token middle.position).span)

/-- From what is read between two brackets a production builds its answer. -/
def BuildsFrom (set : Setting) (production : Parser Expr) (content : Parser α) (build : α → Span → Expr)
    (keeps : α → Prop) : Prop :=
  ∀ {log first close value}, set.stream.kind first = .opener .square →
    set.Reads log content (first + 1) value close → set.stream.kind close = .closer .square →
    keeps value →
    set.Reads log production first
      (build value ((set.stream.token first).span.join (set.stream.token close).span)) (close + 1)

/-- Line breaks behind the opener do not matter to what is built from a content that is read again. -/
theorem reads_of_padded [Relocatable α] (h : set.stream.Padded set'.stream relocation first count)
    {production : Parser Expr} {content : Parser α} {build : α → Span → Expr} {keeps : α → Prop}
    (hcontent : set.HasContent production content build keeps)
    (hfrom : set'.BuildsFrom production content build keeps)
    (hrereads : set.Rereads set' relocation first count content)
    (hkeeps : ∀ value, keeps value → keeps (relocation.move value))
    (hbuild : ∀ value span,
      build (relocation.move value) (span.relocate relocation) = (build value span).relocate relocation)
    (hspan : ∀ value span span',
      (build value span).relocate .forget = (build value span').relocate .forget)
    {history : List ParserEvent} {answer : Expr} {final : ParserState}
    (hopener : set.stream.kind first = .opener .square)
    (hrun : production set.stream { position := first, log := .empty, history := history } =
      (.ok answer, final)) (hfinal : final.log = .empty) {log : Log} (hlog : log.muted = 0) :
    ∃ answer', set'.Reads log production first answer' (final.position + count) ∧
      answer'.relocate .forget = answer.relocate .forget := by
  obtain ⟨history, value, middle, hvalue, hle, hmiddle, hcloser, hposition, hkept, rfl⟩ :=
    hcontent hopener hrun rfl hfinal
  have hlt : middle.position < set.stream.size :=
    Nat.lt_of_succ_lt (succ_lt_size_of_kind hcloser TokenKind.noConfusion)
  have hcloser' : set'.stream.kind (middle.position + count) = .closer .square := by
    rw [TokenStream.kind, h.later_eq _ hle hlt]
    exact hcloser
  refine ⟨build (relocation.move value) ((set'.stream.token first).span.join
    (set'.stream.token (middle.position + count)).span), ?_, ?_⟩
  · rw [hposition, Nat.add_right_comm]
    exact hfrom ((h.kind_eq (Nat.le_refl _)).trans hopener)
      (hrereads hvalue rfl rfl hmiddle hcloser hlog) hcloser' (hkeeps value hkept)
  · rw [hspan _ _ (Span.relocate relocation _), hbuild]
    exact Relocation.move_move relocation .forget _

/-- A production that reads its content between two brackets and builds its answer from it. -/
def enclosed (content : Parser α) (context : String) (finish : α → Span → Parser Expr) :
    Parser Expr := do
  let start := (← expect (.opener .square) "").span
  let value ← content
  let _ ← expect (.closer .square) context
  finish value (← spanFrom start)

section

variable {content : Parser α} {context : String} {finish : α → Span → Parser Expr}
  {build : α → Span → Expr} {reports : α → List Diagnostic}
  (hfinish : ∀ value span stream state, finish value span stream state =
    (.ok (build value span), state.reportAll (reports value)))
include hfinish

theorem hasContent_enclosed
    (hcontent : ∀ state, set.stream.Opens state.position (.closer .square) →
      state.position < set.stream.size → set.Answers content state fun _ final =>
        set.Reached state false [] final) :
    set.HasContent (enclosed content context finish) content build (fun value => reports value = []) := by
  intro state final answer hopener hrun hstate hfinal
  have hnext : state.position + 1 < set.stream.size :=
    succ_lt_size_of_kind hopener TokenKind.noConfusion
  have hopens : set.stream.Opens (state.position + 1) (.closer .square) :=
    .afterOpener .square (Nat.succ_pos _) hopener
  have hanswers : set.Answers (enclosed content context finish) state fun answer final =>
      final.log = .empty → ∃ history value middle,
        content set.stream { position := state.position + 1, log := .empty, history := history } =
          (.ok value, middle) ∧
        state.position < middle.position ∧ middle.log = .empty ∧
        set.stream.kind middle.position = .closer .square ∧
        final.position = middle.position + 1 ∧ reports value = [] ∧
        answer = build value
          ((set.stream.token state.position).span.join (set.stream.token middle.position).span) := by
    refine (Reads.expect hopener hnext).runs_bind (fun history => ?_) state.history
    rw [hstate]
    refine .bind ((answers_self set _ _).mono (fun value middle hvalue => ?_) fun _ _ _ => trivial)
    have hreached := (hcontent ⟨state.position + 1, .empty, history⟩ hopens hnext).returns hvalue
    refine .bind (.bind (.isAt (.ite (fun hat => ?_) fun _ => trivial)))
    have hcloser := beq_iff_eq.1 hat
    refine .advance (succ_lt_size_of_kind hcloser TokenKind.noConfusion) ?_
    refine .bind (.bind (.previous (.pure ?_)))
    unfold Runs
    rw [hfinish]
    intro hempty
    obtain ⟨hmiddle, hreports⟩ :=
      ParserState.log_eq_empty_of_reportAll hreached.follows.muted_eq hempty
    exact ⟨history, value, middle, hvalue, hreached.within.le, hmiddle, hcloser, rfl, hreports, rfl⟩
  exact hanswers.returns hrun hfinal

theorem builds_enclosed :
    set.BuildsFrom (enclosed content context finish) content build (fun value => reports value = []) := by
  intro log first close value hopener hvalue hcloser hquiet
  refine (Reads.expect hopener (succ_lt_size_of_kind hopener TokenKind.noConfusion)).bind
    (hvalue.bind ((Reads.expect hcloser (succ_lt_size_of_kind hcloser TokenKind.noConfusion)).bind
      (Reads.spanFrom.bind fun history => ?_)))
  unfold Runs
  rw [hfinish, hquiet]
  exact ⟨rfl, rfl, rfl⟩

end

end Setting

/-! ### The productions -/

namespace Parser

variable {α : Type}

/-- The fields of an accessor, with the line breaks around them. -/
def accessorPath : Parser (List String) := do
  skipNewlines
  let path ← collectWhile (isAt .dot) do
    let _ ← advance
    return (← expect .identifier "in field accessor").value
  skipNewlines
  return path

theorem accessor_eq : accessor = enclosed accessorPath "to close field accessor" fun path span =>
    return .accessor path span := by
  simp only [accessor, enclosed, accessorPath, bind_assoc, pure_bind]

/-- An operator, with its right operand if there is one, and the line breaks around them. -/
def operatorAndOperand (inner : Nested) : Parser (Token × Option Expr) := do
  skipNewlines
  let op ← expect .operator ""
  if ← isAt (.closer .square) then return (op, none)
  let right ← inner.expression 0
  skipNewlines
  return (op, some right)

theorem operatorSection_eq (inner : Nested) :
    operatorSection inner = enclosed (operatorAndOperand inner) "to close operator section"
      fun section' span => return .operatorSection section'.1.value none section'.2 span := by
  simp only [operatorSection, enclosed, operatorAndOperand, bind_assoc]
  refine bind_congr fun start => bind_congr fun _ => bind_congr fun op => ?_
  -- the closer that has been found is the one that is expected
  funext stream state
  have hat : isAt (.closer .square) stream state =
      (.ok (stream.kind state.position == .closer .square), state) := rfl
  rw [bind_apply, bind_apply, hat]
  dsimp only
  split
  · next hcloses =>
    conv_rhs => rw [pure_bind, expect, bind_assoc, bind_apply, hat, hcloses]
    dsimp only
    rw [if_pos rfl]
  · simp only [bind_assoc, pure_bind]

theorem clauseSet_eq (inner : Nested) :
    clauseSet inner = enclosed (items (lambdaClause inner) (.closer .square) false "clause")
      "to close lambda" fun clauses span =>
        if clauses.any Sum.isRight then do
          let kept ← clauses.mapM handlerClause
          return .handler (kept.filterMap id) span
        else return .lambda (clauses.filterMap Sum.getLeft?) span := by
  rfl

/-! ### Clauses of a handler -/

/-- The clause of a handler that a clause is, if it is one. -/
def returningClause? : Clause ⊕ HandlerClause → Option HandlerClause
  | .inr operation => some operation
  | .inl { patterns := [binder], body := body, span := span } =>
    if binder.isBinder then some (.returning binder body span) else none
  | .inl _ => none

/-- What is reported of a clause that is no clause of a handler. -/
def returningReports : Clause ⊕ HandlerClause → List Diagnostic
  | .inr _ => []
  | .inl { patterns := [binder], .. } =>
    if binder.isBinder then []
    else [.errorAt .unexpectedToken "handler return clause must bind a name or `_`" binder.span [] []]
  | .inl clause =>
    [.errorAt .arityMismatch ("handler return clause takes one pattern, found " ++
      toString clause.patterns.length) clause.span [] []]

theorem handlerClause_apply (entry : Clause ⊕ HandlerClause) (stream : TokenStream)
    (state : ParserState) : handlerClause entry stream state =
      (.ok (returningClause? entry), state.reportAll (returningReports entry)) := by
  cases entry with
  | inr operation => rfl
  | inl clause =>
    obtain ⟨patterns, body, span⟩ := clause
    rcases patterns with _ | ⟨binder, _ | ⟨second, rest⟩⟩
    · rfl
    · unfold handlerClause returningClause? returningReports
      dsimp only
      split <;> rfl
    · rfl

theorem mapM_apply {β : Type} {action : α → Parser β} {answer : α → β}
    {reports : α → List Diagnostic} {stream : TokenStream}
    (haction : ∀ element state,
      action element stream state = (.ok (answer element), state.reportAll (reports element)))
    (list : List α) (state : ParserState) :
    list.mapM action stream state = (.ok (list.map answer), state.reportAll (list.flatMap reports)) := by
  induction list generalizing state with
  | nil => rfl
  | cons first rest ih =>
    rw [List.mapM_cons, bind_apply, haction]
    dsimp only
    rw [bind_apply, ih, List.flatMap_cons, ParserState.reportAll_append]
    rfl

/-- What a set of clauses is. -/
def clausesExpr (clauses : List (Clause ⊕ HandlerClause)) (span : Span) : Expr :=
  if clauses.any Sum.isRight then .handler (clauses.filterMap returningClause?) span
  else .lambda (clauses.filterMap Sum.getLeft?) span

/-- What is reported of a set of clauses. -/
def clausesReports (clauses : List (Clause ⊕ HandlerClause)) : List Diagnostic :=
  if clauses.any Sum.isRight then clauses.flatMap returningReports else []

theorem finishClauses_apply (clauses : List (Clause ⊕ HandlerClause)) (span : Span)
    (stream : TokenStream) (state : ParserState) :
    (if clauses.any Sum.isRight then do
        let kept ← clauses.mapM handlerClause
        return .handler (kept.filterMap id) span
      else return .lambda (clauses.filterMap Sum.getLeft?) span : Parser Expr) stream state =
      (.ok (clausesExpr clauses span), state.reportAll (clausesReports clauses)) := by
  unfold clausesExpr clausesReports
  split
  · rw [bind_apply, mapM_apply fun entry state => handlerClause_apply entry stream state]
    dsimp only
    rw [List.filterMap_map]
    rfl
  · rfl

theorem returningClause?_relocate (r : Relocation) (entry : Clause ⊕ HandlerClause) :
    returningClause? (r.move entry) = r.move (returningClause? entry) := by
  cases entry with
  | inr operation => rfl
  | inl clause =>
    obtain ⟨patterns, body, span⟩ := clause
    rcases patterns with _ | ⟨binder, _ | ⟨second, rest⟩⟩
    · simp [Relocation.move, Relocatable.relocate, returningClause?]
    · simp only [Relocation.move, Relocatable.relocate, Sum.map_inl, Clause.relocate, List.map_cons,
        List.map_nil, returningClause?, Pattern.relocate_isBinder]
      split <;> simp
    · simp [Relocation.move, Relocatable.relocate, returningClause?]

theorem returningReports_relocate (r : Relocation) (entry : Clause ⊕ HandlerClause) :
    returningReports (r.move entry) = r.move (returningReports entry) := by
  cases entry with
  | inr operation => rfl
  | inl clause =>
    obtain ⟨patterns, body, span⟩ := clause
    rcases patterns with _ | ⟨binder, _ | ⟨second, rest⟩⟩
    · simp [Relocation.move, Relocatable.relocate, returningReports]
    · simp only [Relocation.move, Relocatable.relocate, Sum.map_inl, Clause.relocate, List.map_cons,
        List.map_nil, returningReports, Pattern.relocate_isBinder]
      split <;> simp
    · simp [Relocation.move, Relocatable.relocate, returningReports]

theorem any_isRight_relocate (r : Relocation) (clauses : List (Clause ⊕ HandlerClause)) :
    (r.move clauses).any Sum.isRight = clauses.any Sum.isRight := by
  show (clauses.map r.move).any Sum.isRight = _
  rw [List.any_map]
  exact congrArg clauses.any (funext fun clause => by cases clause <;> rfl)

theorem clausesExpr_relocate (r : Relocation) (clauses : List (Clause ⊕ HandlerClause)) (span : Span) :
    clausesExpr (r.move clauses) (span.relocate r) = (clausesExpr clauses span).relocate r := by
  unfold clausesExpr
  rw [any_isRight_relocate]
  split
  · rw [r.move_filterMap (returningClause?_relocate r)]
    simp
  · rw [r.move_getLeft]
    simp

theorem clausesReports_relocate (r : Relocation) (clauses : List (Clause ⊕ HandlerClause)) :
    clausesReports (r.move clauses) = r.move (clausesReports clauses) := by
  unfold clausesReports
  rw [any_isRight_relocate]
  split
  · show (clauses.map r.move).flatMap returningReports = _
    rw [List.flatMap_map, funext (returningReports_relocate r)]
    exact (List.map_flatMap ..).symm
  · rfl

end Parser

namespace Setting

variable {set set' : Setting} {P : Parallel set} {inner : Nested}

theorem obeys_accessorPath : set.Obeys false accessorPath := by
  intro state hlt
  refine .bind ((Reached.refl hlt).skipNewlines fun s₁ h₁ _ => ?_)
  refine .bind (h₁.collectBehind rfl (obeys_tokenValue rfl) fun path s₂ h₂ => ?_)
  exact .bind (h₂.skipNewlines fun s₃ h₃ _ => .pure h₃)

theorem mirrorsInside_accessorPath : P.MirrorsInside true accessorPath := by
  intro state hlt hloud hsheltered
  refine .of_shown (obeys_accessorPath state hlt) hsheltered.shown fun hlive => ?_
  refine .step (.skipNewlines hsheltered) ((Reached.refl hlt).skipNewlines fun s₁ h₁ _ => ?_)
  refine .bind (.collectBehind rfl rfl (obeys_tokenValue rfl)
    (fun _ hs => (Parallel.mirrors_tokenValue rfl rfl).at (hloud.reached h₁) hs) h₁.lt
    (Parallel.base_le_of_reached h₁ hlive))
    (h₁.collectBehind rfl (obeys_tokenValue rfl) fun path s₂ h₂ => ?_)
  exact .step (.skipNewlines (hsheltered.reached h₂)) (h₂.skipNewlines fun s₃ h₃ _ => .pure rfl)

theorem obeys_operatorAndOperand (hinner : set.Nests inner) :
    set.Obeys false (operatorAndOperand inner) := by
  intro state hlt
  refine .bind ((Reached.refl hlt).skipNewlines fun s₁ h₁ _ => ?_)
  refine .bind (h₁.expectPlain rfl fun op s₂ h₂ => ?_)
  refine .bind (.isAt (.ite (fun _ => .pure h₂.weaken) fun _ => ?_))
  refine .bind (h₂.call (hinner.expression 0 s₂ h₂.lt) fun right s₃ h₃ => ?_)
  exact .bind (h₃.skipNewlines fun s₄ h₄ _ => .pure h₄.weaken)

theorem mirrorsInside_operatorAndOperand (hinner : set.Nests inner) (hmirrors : P.NestsAlike inner) :
    P.MirrorsInside true (operatorAndOperand inner) := by
  intro state hlt hloud hsheltered
  refine .of_shown (obeys_operatorAndOperand hinner state hlt) hsheltered.shown fun hlive => ?_
  refine .step (.skipNewlines hsheltered) ((Reached.refl hlt).skipNewlines fun s₁ h₁ _ => ?_)
  refine .bind (.expect rfl) (h₁.expectPlain rfl fun op s₂ h₂ => ?_)
  refine .step (.isAt (Or.inr (hsheltered.reached h₂).shown)) (.isAt (.ite (fun _ => .pure rfl)
    fun _ => ?_))
  refine .bind ((hmirrors.expression 0).at hloud h₂)
    (h₂.call (hinner.expression 0 s₂ h₂.lt) fun right s₃ h₃ => ?_)
  exact .step (.skipNewlines (hsheltered.reached h₃)) (h₃.skipNewlines fun s₄ h₄ _ => .pure rfl)

/-! ### Square brackets -/

section

variable {relocation : Relocation} {first count budget : Nat} {history : List ParserEvent}
  {answer : Expr} {final : ParserState} {log : Log}
  (h : set.stream.Padded set'.stream relocation first count)
  (hopener : set.stream.kind first = .opener .square)
include h hopener

theorem reads_accessor_of_padded (hrun : accessor set.stream
      { position := first, log := .empty, history := history } = (.ok answer, final))
    (hfinal : final.log = .empty) (hlog : log.muted = 0) :
    ∃ answer', set'.Reads log accessor first answer' (final.position + count) ∧
      answer'.relocate .forget = answer.relocate .forget := by
  rw [accessor_eq] at hrun ⊢
  have hfinish : ∀ path span stream state,
      (return Expr.accessor path span : Parser Expr) stream state =
        (.ok (.accessor path span), state.reportAll []) := fun _ _ _ _ => rfl
  refine reads_of_padded h (hasContent_enclosed hfinish fun state _ hlt =>
      (obeys_accessorPath state hlt).mono (fun _ _ h => h) fun _ _ _ => trivial)
    (builds_enclosed hfinish)
    (rereads_skipNewlines h hopener obeys_accessorPath fun P => mirrorsInside_accessorPath)
    (fun _ _ => rfl) (fun path span => by simp) (fun path span span' => by simp; rfl) hopener hrun
    hfinal hlog

theorem reads_operatorSection_of_padded (hinner : set.Nests inner)
    (hmirrors : ∀ P : Parallel set, P.NestsAlike inner)
    (hrun : operatorSection inner set.stream
      { position := first, log := .empty, history := history } = (.ok answer, final))
    (hfinal : final.log = .empty) (hlog : log.muted = 0) :
    ∃ answer', set'.Reads log (operatorSection inner) first answer' (final.position + count) ∧
      answer'.relocate .forget = answer.relocate .forget := by
  rw [operatorSection_eq] at hrun ⊢
  have hfinish : ∀ (read : Token × Option Expr) span stream state,
      (return Expr.operatorSection read.1.value none read.2 span : Parser Expr) stream state =
        (.ok (.operatorSection read.1.value none read.2 span), state.reportAll []) :=
    fun _ _ _ _ => rfl
  refine reads_of_padded h (hasContent_enclosed hfinish fun state _ hlt =>
      (obeys_operatorAndOperand hinner state hlt).mono (fun _ _ h => h) fun _ _ _ => trivial)
    (builds_enclosed hfinish) (rereads_skipNewlines h hopener (obeys_operatorAndOperand hinner)
      fun P => mirrorsInside_operatorAndOperand hinner (hmirrors P))
    (fun _ _ => rfl) (fun ⟨op, right⟩ span => ?_) (fun ⟨op, right⟩ span span' => ?_) hopener hrun hfinal
    hlog
  · cases right <;> simp [Relocation.move, Relocatable.relocate]
  · cases right <;> simp <;> rfl

theorem reads_clauseSet_of_padded (hinner : set.Nests inner)
    (hmirrors : ∀ P : Parallel set, P.NestsAlike inner)
    (hrun : clauseSet inner set.stream
      { position := first, log := .empty, history := history } = (.ok answer, final))
    (hfinal : final.log = .empty) (hlog : log.muted = 0) :
    ∃ answer', set'.Reads log (clauseSet inner) first answer' (final.position + count) ∧
      answer'.relocate .forget = answer.relocate .forget := by
  rw [clauseSet_eq] at hrun ⊢
  refine reads_of_padded h (hasContent_enclosed finishClauses_apply fun state hopens hlt =>
      (runs_items hlt hopens (obeys_lambdaClause hinner)).mono (fun _ _ h => h.1)
        fun _ _ _ => trivial)
    (builds_enclosed finishClauses_apply) (rereads_items h hopener (obeys_lambdaClause hinner)
      fun P => Parallel.mirrorsInside_lambdaClause hinner (hmirrors P))
    (fun clauses hquiet => ?_) (clausesExpr_relocate relocation) (fun clauses span span' => ?_) hopener
    hrun hfinal hlog
  · rw [clausesReports_relocate, hquiet]
    rfl
  · unfold clausesExpr
    split <;> simp <;> rfl

theorem reads_block_of_padded (hinner : set.Nests inner)
    (hmirrors : ∀ P : Parallel set, P.NestsAlike inner)
    (hrun : block inner set.stream
      { position := first, log := .empty, history := history } = (.ok answer, final))
    (hfinal : final.log = .empty) (hlog : log.muted = 0) :
    ∃ answer', set'.Reads log (block inner) first answer' (final.position + count) ∧
      answer'.relocate .forget = answer.relocate .forget := by
  have hlt : first < set.stream.size :=
    Nat.lt_of_succ_lt (succ_lt_size_of_kind hopener TokenKind.noConfusion)
  obtain ⟨close, hcloses, hwithin, -, hposition, history, groups, middle, before, value, hitems, rfl,
    hmiddle, hsplit, hreports, hvalue, rfl⟩ :=
    exists_readsBlock hinner.statement hlt hopener hrun rfl hfinal
  have hreads := rereads_items h hopener hinner.statement (fun P => (hmirrors P).statement) hitems rfl
    rfl hmiddle hcloses.kind_eq hlog
  have hopener' : set'.stream.kind first = .opener .square :=
    (h.kind_eq (Nat.le_refl _)).trans hopener
  have hcloser' : set'.stream.kind (middle.position + count) = .closer .square := by
    rw [TokenStream.kind, h.later_eq _ hwithin.le hwithin.lt]
    exact hcloses.kind_eq
  have hgroup : Statement.group (relocation.move groups).flatten =
      (relocation.move (Statement.group groups.flatten).1, []) := by
    rw [relocation.move_flatten, Statement.relocate_group, hreports]
    rfl
  have hsplit' : splitResult? (Statement.group (relocation.move groups).flatten).1 =
      some (relocation.move before, relocation.move value) := by
    rw [hgroup, Parallel.splitResult?_relocate, hsplit]
    rfl
  refine ⟨.block (relocation.move before) (relocation.move value)
    ((set'.stream.token first).span.join (set'.stream.token (middle.position + count)).span),
    fun history => (runs_block_of_split hopener' (succ_lt_size_of_kind hopener' TokenKind.noConfusion)
      hcloser' (succ_lt_size_of_kind hcloser' TokenKind.noConfusion) hreads hsplit'
      ((value.lacksElse_relocate relocation).trans hvalue) history).mono
        (fun answer final ⟨hanswer, hfinal, hlog⟩ => ⟨hanswer, ?_, ?_⟩) fun _ _ => False.elim, ?_⟩
  · rw [hfinal, hposition, Nat.add_right_comm]
  · rw [hlog, hgroup]
    rfl
  · refine Eq.trans ?_ (Relocation.move_move relocation .forget (Expr.block before value _))
    simp [Relocation.move, Relocatable.relocate]
    rfl

/-- An operator with its left operand is not read behind line breaks. -/
theorem fails_leftSection_of_padded (hcount : 0 < count) {state : ParserState}
    (hstate : state.position = first) : set'.Fails leftSection state := by
  have hopener' : set'.stream.kind state.position = .opener .square := by
    rw [hstate]
    exact (h.kind_eq (Nat.le_refl _)).trans hopener
  refine (Reads.expect hopener' (succ_lt_size_of_kind hopener' TokenKind.noConfusion)).runs_bind
    (fun history => ?_) state.history
  have hnewline := h.newline 0 hcount
  rw [Nat.add_zero, ← hstate] at hnewline
  have hoperand : set'.Fails tokenOperand
      { position := state.position + 1, log := state.log, history := history } := by
    refine Runs.bind (.current ?_)
    rw [show (set'.stream.token (state.position + 1)).kind = .newline from hnewline]
    exact fails_unexpected
  exact hoperand.bind

end

/-- Brackets behind which an item may end are a whole expression. -/
theorem runs_expression_of_squareExpr {budget minPower : Nat} {state : ParserState}
    {returns : Expr → ParserState → Prop} {stops : Abort → ParserState → Prop}
    (hopener : set.stream.kind state.position = .opener .square)
    (h : set.Runs (squareExpr (.ofRules budget (produce budget))) state
      (fun answer final => (set.stream.kind final.position).isBoundary = true ∧ returns answer final)
      stops) :
    set.Runs (α := Expr) (produce (budget + 1) (.expression minPower)) state returns stops := by
  have hne : ∀ {kind : TokenKind}, .opener .square ≠ kind → set.stream.kind state.position ≠ kind :=
    fun hother heq => hother (hopener.symm.trans heq)
  refine runs_expression_of_atom (hne TokenKind.noConfusion) (hne TokenKind.noConfusion)
    (hne TokenKind.noConfusion) (.bind (.current ?_))
  rw [show (set.stream.token state.position).kind = .opener .square from hopener]
  exact h

end Setting

/-- Line breaks behind an opening square bracket, which leave the form of the brackets as it is, do not
matter to what the brackets are read as, wherever they stand; but for an operator with its left operand,
which is not read at all then. Where an item may end behind the brackets, they are a whole expression. -/
theorem squareExpr_of_padded {stream other : TokenStream} (balanced : stream.Balanced)
    (balanced' : other.Balanced) {relocation : Relocation} {first count budget : Nat}
    {history : List ParserEvent} {answer : Expr} {final : ParserState} {form : BracketForm}
    (h : stream.Padded other relocation first count)
    (hform : BracketForm.atIndex stream.tokens (first : Int) = .ok form)
    (hform' : BracketForm.atIndex other.tokens (first : Int) = .ok form)
    (hrun : squareExpr (.ofRules budget (produce budget)) stream
      { position := first, log := .empty, history := history } = (.ok answer, final))
    (hfinal : final.log = .empty) :
    (form ≠ .leftSection → ∃ answer', answer'.outline.sameStructure answer.outline = true ∧
      (Entry.expression.setting balanced').Reads .empty (squareExpr (.ofRules budget (produce budget)))
        first answer' (final.position + count) ∧
      ((stream.kind final.position).isBoundary = true → ∀ minPower,
        produce (budget + 1) (.expression minPower) stream
          { position := first, log := .empty, history := history } = (.ok answer, final) ∧
        (Entry.expression.setting balanced').Reads (α := Expr) .empty
          (produce (budget + 1) (.expression minPower)) first answer' (final.position + count))) ∧
    (form = .leftSection → 0 < count → ∀ history,
      (Entry.expression.setting balanced').Fails (squareExpr (.ofRules budget (produce budget)))
        { position := first, log := .empty, history := history }) := by
  let set := Entry.expression.setting balanced
  let set' := Entry.expression.setting balanced'
  have hpadded : set.stream.Padded set'.stream relocation first count := h
  obtain ⟨hlt, hopener⟩ := BracketForm.kind_of_atIndex hform
  have hinner : set.Nests (.ofRules budget (produce budget)) :=
    nests_ofRules Abort.Arises.tooDeep (obeys_produce Or.inr Abort.Arises.tooDeep budget)
  have hmirrors : ∀ P : Parallel set, P.NestsAlike (.ofRules budget (produce budget)) :=
    fun P => P.nestsAlike_ofRules Or.inr Abort.Arises.tooDeep budget
  have hreached := (obeys_squareExpr Or.inr hinner ⟨first, .empty, history⟩ hlt).returns hrun
  have hrun' := hrun
  rw [squareExpr_apply hform] at hrun
  refine ⟨fun hleft => ?_, fun hleft hcount history => ?_⟩
  · obtain ⟨answer', hreads, hsame⟩ : ∃ answer',
        set'.Reads .empty (ofForm (.ofRules budget (produce budget)) form) first answer'
          (final.position + count) ∧ answer'.relocate .forget = answer.relocate .forget := by
      cases form with
      | block => exact reads_block_of_padded hpadded hopener hinner hmirrors hrun hfinal rfl
      | lambda | handler =>
        exact reads_clauseSet_of_padded hpadded hopener hinner hmirrors hrun hfinal rfl
      | operatorSection =>
        exact reads_operatorSection_of_padded hpadded hopener hinner hmirrors hrun hfinal rfl
      | accessor => exact reads_accessor_of_padded hpadded hopener hrun hfinal rfl
      | leftSection => exact absurd rfl hleft
      | record | recordUpdate | ambiguous => cases hrun
    have hreads : set'.Reads .empty (squareExpr (.ofRules budget (produce budget))) first answer'
        (final.position + count) := fun history => by
      have hruns := hreads history
      unfold Runs at hruns ⊢
      rwa [squareExpr_apply hform']
    refine ⟨answer', @Outline.sameStructure_of_relocate_eq .forget .forget _ _
      (by rw [← Expr.outline_relocate, hsame, Expr.outline_relocate]), hreads,
      fun hboundary minPower => ⟨?_, fun history => ?_⟩⟩
    · have hruns : set.Runs (squareExpr (.ofRules budget (produce budget)))
          { position := first, log := .empty, history := history }
          (fun value last => (set.stream.kind last.position).isBoundary = true ∧
            value = answer ∧ last = final) fun _ _ => False := by
        unfold Runs
        rw [show squareExpr _ set.stream _ = _ from hrun']
        exact ⟨hboundary, rfl, rfl⟩
      obtain ⟨_, _, hproduce, rfl, rfl⟩ := (runs_expression_of_squareExpr hopener hruns).exists_ok
      exact hproduce
    · have hboundary' : (set'.stream.kind (final.position + count)).isBoundary = true := by
        rw [TokenStream.kind, show set'.stream = other from rfl,
          h.later_eq _ (hreached.progress rfl) hreached.lt]
        exact hboundary
      exact runs_expression_of_squareExpr ((h.kind_eq (Nat.le_refl _)).trans hopener)
        ((hreads history).mono (fun _ last hread => ⟨by rw [hread.2.1]; exact hboundary', hread⟩)
          fun _ _ => id)
  · subst hleft
    have hfails : set'.Fails leftSection { position := first, log := .empty, history := history } :=
      fails_leftSection_of_padded hpadded hopener hcount rfl
    unfold Fails Runs at hfails ⊢
    rw [show (Entry.expression.setting balanced').stream = other from rfl, squareExpr_apply hform']
    exact hfails

/-- Two line breaks in front of the only clause of a lambda. -/
theorem exists_squareExpr_of_padded :
    ∃ (stream other : TokenStream) (_ : stream.Balanced) (balanced' : other.Balanced) (answer : Expr)
      (final : ParserState),
      stream.Padded other (.further 2 0 3) 0 2 ∧
      BracketForm.atIndex stream.tokens (0 : Nat) = .ok .lambda ∧
      BracketForm.atIndex other.tokens (0 : Nat) = .ok .lambda ∧
      squareExpr (.ofRules 20 (produce 20)) stream .initial = (.ok answer, final) ∧
      final.log = .empty ∧
      ∃ answer', answer'.outline.sameStructure answer.outline = true ∧
        (Entry.expression.setting balanced').Reads .empty (squareExpr (.ofRules 20 (produce 20))) 0
          answer' (final.position + 2) := by
  have htest : (TokenStream.ofText? "[x: y]" "").any (fun stream =>
      (TokenStream.ofText? "[\n\n x: y]" "").any fun other =>
      decide (stream.1.Padded other.1 (.further 2 0 3) 0 2) &&
        (BracketForm.atIndex stream.1.tokens (0 : Nat)).toOption == some .lambda &&
        (BracketForm.atIndex other.1.tokens (0 : Nat)).toOption == some .lambda &&
        (squareExpr (.ofRules 20 (produce 20)) stream.1 .initial).1.toOption.isSome &&
        (squareExpr (.ofRules 20 (produce 20)) stream.1 .initial).2.log.diagnostics.isEmpty &&
        (squareExpr (.ofRules 20 (produce 20)) stream.1 .initial).2.log.muted == 0) = true := by
    decide +kernel
  simp only [Option.any_eq_true, Bool.and_eq_true, beq_iff_eq, decide_eq_true_eq] at htest
  obtain ⟨⟨stream, balanced⟩, -, ⟨other, balanced'⟩, -, ⟨⟨⟨⟨⟨hpadded, hform⟩, hform'⟩, hanswer⟩,
    hempty⟩, hmuted⟩⟩ := htest
  have hlambda : ∀ {tokens : Array Token},
      (BracketForm.atIndex tokens (0 : Nat)).toOption = some .lambda →
      BracketForm.atIndex tokens (0 : Nat) = .ok .lambda := fun {tokens} heq => by
    cases h : BracketForm.atIndex tokens (0 : Nat) <;> rw [h] at heq <;> cases heq
    rfl
  cases heq : squareExpr (.ofRules 20 (produce 20)) stream .initial with
  | mk result final =>
    rw [heq] at hanswer hempty hmuted
    cases result with
    | error => cases hanswer
    | ok answer =>
      have hlog : final.log = .empty := by
        obtain ⟨position, ⟨diagnostics, muted⟩, history⟩ := final
        obtain rfl := Array.isEmpty_iff.1 hempty
        obtain rfl : muted = 0 := hmuted
        rfl
      obtain ⟨answer', hsame, hreads, -⟩ := (squareExpr_of_padded balanced balanced' hpadded
        (hlambda hform) (hlambda hform') heq hlog).1 BracketForm.noConfusion
      exact ⟨stream, other, balanced, balanced', answer, final, hpadded, hlambda hform,
        hlambda hform', heq, hlog, answer', hsame, hreads⟩

/-- A line break in front of the operand of a section is not skipped. -/
theorem exists_unread_leftSection :
    (parseExpression "[x +]" "").toOption.isSome = true ∧
    (TokenStream.ofText? "[x +]" "").any (fun stream =>
      (TokenStream.ofText? "[\nx +]" "").any fun other =>
        (BracketForm.atIndex stream.1.tokens 0).toOption == some .leftSection &&
        (BracketForm.atIndex other.1.tokens 0).toOption == some .leftSection &&
        stream.1.tokens.toList.map Token.kind ==
          [.opener .square, .identifier, .operator, .closer .square, .endOfFile] &&
        other.1.tokens.toList.map Token.kind ==
          [.opener .square, .newline, .identifier, .operator, .closer .square, .endOfFile]) = true ∧
    (parseExpression "[\nx +]" "").toOption.isNone = true := by
  decide +kernel

end SableFrontend
