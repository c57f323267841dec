import SableFrontend.Proofs.Sentences.Inline

/-!
The grammar of types, and the types that are read. The grammar says of two places in a stream of tokens
which type stands between them (`TypeGrammar.Derives`):

    type        ::= [context "=>"] arrow
    context     ::= constraint | "(" constraint ("," constraint)* ")"
    constraint  ::= Con atom atom*
    arrow       ::= application ["->" arrow]
    application ::= "[" effects "]" [application] | atom atom*
    atom        ::= var | Con | "(" ")" | "(" type ("," type)* ")"

Of the effects only the last one may be a variable. What is read without a word belongs to the grammar
(`recognizes_typeAt`). Conversely all that belongs to it is read (`consumes_typeAt`), unless the result of
a list of effects is again a list of effects: there the parser stops.
-/

namespace SableFrontend

open TokenStream Parser

/-- The place from the first to the last token of a stretch. -/
def TokenStream.extent (stream : TokenStream) (start stop : Nat) : Span :=
  (stream.token start).span.join (stream.token (stop - 1)).span

/-- A type with a list of effects: the last entry is the row if it is a variable. -/
def TypeExpr.ofEntries (entries : List TypeExpr) (result : Option TypeExpr) (span : Span) : TypeExpr :=
  .effectful (entries.filter fun entry => entry.asRowVariable?.isNone)
    (entries.filterMap asRowVariable?).head? result span

/-- Only the last entry may be a variable. -/
def TypeExpr.RowsLast (entries : List TypeExpr) : Prop :=
  ∀ entry ∈ entries.dropLast, entry.asRowVariable? = none

/-! ### The grammar -/

namespace TypeGrammar

section

variable (stream : TokenStream) (nested : Bool) (inner : TypeRule → Nat → Nat → TypeExpr → Prop)

/-- `atom ::= var | Con | "(" ")" | "(" type ("," type)* ")"` -/
inductive Atom : Nat → Nat → TypeExpr → Prop
  | var {start : Nat} (h : stream.kind start = .identifier) :
      Atom start (start + 1) (.var (stream.token start).value (stream.token start).span)
  | con {start : Nat} (h : stream.kind start = .typeIdentifier) :
      Atom start (start + 1) (.con (stream.token start).value (stream.token start).span)
  | unit {start : Nat} (hopen : stream.kind start = .opener .round)
      (hclose : stream.kind (start + 1) = .closer .round) :
      Atom start (start + 2) (.tuple [] (stream.extent start (start + 2)))
  | round {start close : Nat} {value : TypeExpr} (hopen : stream.kind start = .opener .round)
      (h : inner .type (start + 1) close value) (hclose : stream.kind close = .closer .round) :
      Atom start (close + 1) value
  | tuple {start close : Nat} {first second : TypeExpr} {more : List TypeExpr}
      (hopen : stream.kind start = .opener .round)
      (h : stream.Listed (inner .type) (start + 1) close (first :: second :: more))
      (hclose : stream.kind close = .closer .round) :
      Atom start (close + 1) (.tuple (first :: second :: more) (stream.extent start (close + 1)))

/-- `atom atom*` -/
inductive Applied : Nat → Nat → TypeExpr → Prop
  | atom {start stop : Nat} {value : TypeExpr} (h : Atom stream inner start stop value) :
      Applied start stop value
  | app {start middle stop : Nat} {function argument : TypeExpr} (h : Applied start middle function)
      (hargument : Atom stream inner middle stop argument) :
      Applied start stop (.app function argument (stream.extent start stop))

/-- `constraint ::= Con atom atom*` -/
inductive Constrained : Nat → Nat → Constraint → Prop
  | of {start stop : Nat} {first : TypeExpr} {more : List TypeExpr}
      (hname : stream.kind start = .typeIdentifier)
      (h : Repeated (Atom stream inner) (start + 1) stop (first :: more)) :
      Constrained start stop {
        className := (stream.token start).value
        arguments := first :: more
        span := stream.extent start stop }

/-- `context ::= constraint | "(" constraint ("," constraint)* ")"` -/
inductive Context : Nat → Nat → List Constraint → Prop
  | one {start stop : Nat} {constraint : Constraint} (h : Constrained stream inner start stop constraint) :
      Context start stop [constraint]
  | round {start close : Nat} {constraints : List Constraint} (hopen : stream.kind start = .opener .round)
      (h : stream.Listed (Constrained stream inner) (start + 1) close constraints)
      (hclose : stream.kind close = .closer .round) : Context start (close + 1) constraints

/-- A list of effects, which may be empty, and of which only the last one may be a variable. -/
inductive Effects : Nat → Nat → List TypeExpr → Prop
  | none (start : Nat) : Effects start start []
  | some {start stop : Nat} {entries : List TypeExpr}
      (h : stream.Listed (inner .application) start stop entries) (hrows : TypeExpr.RowsLast entries) :
      Effects start stop entries

/-- `application ::= "[" effects "]" [application] | atom atom*`, where the result of a list of effects
is only a list of effects if they may be `nested`. -/
inductive Application : Nat → Nat → TypeExpr → Prop
  | applied {start stop : Nat} {value : TypeExpr} (h : Applied stream inner start stop value) :
      Application start stop value
  | effects {start close : Nat} {entries : List TypeExpr} (hopen : stream.kind start = .opener .square)
      (h : Effects stream inner (start + 1) close entries)
      (hclose : stream.kind close = .closer .square) :
      Application start (close + 1) (.ofEntries entries .none (stream.extent start (close + 1)))
  | result {start close stop : Nat} {entries : List TypeExpr} {result : TypeExpr}
      (hopen : stream.kind start = .opener .square) (h : Effects stream inner (start + 1) close entries)
      (hclose : stream.kind close = .closer .square)
      (hresult : Applied stream inner (close + 1) stop result) :
      Application start stop (.ofEntries entries (.some result) (stream.extent start stop))
  | chained {start close stop : Nat} {entries : List TypeExpr} {result : TypeExpr} (hnested : nested = true)
      (hopen : stream.kind start = .opener .square) (h : Effects stream inner (start + 1) close entries)
      (hclose : stream.kind close = .closer .square) (hresult : Application (close + 1) stop result) :
      Application start stop (.ofEntries entries (.some result) (stream.extent start stop))

/-- `arrow ::= application ["->" arrow]` -/
inductive Arrow : Nat → Nat → TypeExpr → Prop
  | one {start stop : Nat} {value : TypeExpr} (h : Application stream nested inner start stop value) :
      Arrow start stop value
  | arrow {start sign stop : Nat} {parameter result : TypeExpr}
      (h : Application stream nested inner start sign parameter)
      (hsign : (stream.token sign).isOperator "->" = true)
      (hresult : inner .arrow (sign + 1) stop result) :
      Arrow start stop (.arrow parameter result (stream.extent start stop))

/-- `type ::= [context "=>"] arrow` -/
inductive Whole : Nat → Nat → TypeExpr → Prop
  | plain {start stop : Nat} {value : TypeExpr} (h : Arrow stream nested inner start stop value) :
      Whole start stop value
  | qualified {start sign stop : Nat} {constraints : List Constraint} {body : TypeExpr}
      (h : Context stream inner start sign constraints)
      (hsign : (stream.token sign).isOperator "=>" = true)
      (hbody : Arrow stream nested inner (sign + 1) stop body) :
      Whole start stop (.qualified constraints body (stream.extent start stop))

end

/-- What stands between two places, nested in at most `budget` levels. -/
def Derives (stream : TokenStream) (nested : Bool) :
    (budget : Nat) → TypeRule → Nat → Nat → TypeExpr → Prop
  | 0, _ => fun _ _ _ => False
  | budget + 1, .type => Whole stream nested (Derives stream nested budget)
  | budget + 1, .arrow => Arrow stream nested (Derives stream nested budget)
  | budget + 1, .application => Application stream nested (Derives stream nested budget)

end TypeGrammar

/-! ### What is read belongs to the grammar -/

namespace TypeExpr

/-- The variables among the entries are at most one, and it is the last entry. -/
theorem rowsLast_iff {entries : List TypeExpr} :
    RowsLast entries ↔ entries.filterMap asRowVariable? = (entries.getLast?.bind asRowVariable?).toList := by
  rcases List.eq_nil_or_concat entries with rfl | ⟨before, last, rfl⟩
  · exact iff_of_true nofun rfl
  · rw [List.concat_eq_append, RowsLast, List.dropLast_concat, List.filterMap_append, List.getLast?_concat, Option.bind_some,
      ← List.filterMap_eq_nil_iff]
    cases hlast : last.asRowVariable? <;> simp [hlast]

/-- The check of the entries says nothing just if their order is right. -/
theorem checkRow_cases (entries : List TypeExpr) :
    RowsLast entries ∧ checkRow entries = pure () ∨
      ¬RowsLast entries ∧ ∃ diagnostic, checkRow entries = report diagnostic := by
  rw [rowsLast_iff]
  unfold checkRow
  split
  · next first second rest hrows =>
    refine Or.inr ⟨fun heq => ?_, _, rfl⟩
    rw [hrows] at heq
    cases hlast : entries.getLast?.bind asRowVariable? <;> rw [hlast] at heq <;> cases heq
  · next row hrows =>
    rw [hrows]
    cases hlast : entries.getLast?.bind asRowVariable? with
    | none => exact Or.inr ⟨List.cons_ne_nil _ _, _, if_pos rfl⟩
    | some last =>
      have hsome : some row = some last := by
        obtain ⟨final, hfinal, hrow⟩ := Option.bind_eq_some_iff.1 hlast
        have hmem : last ∈ entries.filterMap asRowVariable? :=
          List.mem_filterMap.2 ⟨final, List.mem_of_getLast? hfinal, hrow⟩
        rw [hrows, List.mem_singleton] at hmem
        rw [hmem]
      exact Or.inl ⟨congrArg Option.toList hsome, if_neg Bool.false_ne_true⟩
  · next hrows =>
    refine Or.inl ⟨?_, rfl⟩
    rw [hrows]
    cases hlast : entries.getLast?.bind asRowVariable? with
    | none => rfl
    | some last =>
      obtain ⟨final, hfinal, hrow⟩ := Option.bind_eq_some_iff.1 hlast
      have hmem : last ∈ entries.filterMap asRowVariable? :=
        List.mem_filterMap.2 ⟨final, List.mem_of_getLast? hfinal, hrow⟩
      rw [hrows] at hmem
      cases hmem

theorem checkRow_of_rowsLast {entries : List TypeExpr} (h : RowsLast entries) :
    checkRow entries = pure () := by
  obtain ⟨-, hcheck⟩ | ⟨hrows, -⟩ := checkRow_cases entries
  · exact hcheck
  · exact absurd h hrows

end TypeExpr

namespace TypeGrammar

variable {stream : TokenStream} {own own' spelled spelled' : Nat → Nat → TypeExpr → Prop} {start stop : Nat}
  {value : TypeExpr}

/-- What is read as a type. It belongs to its `own` production if there are no line breaks in it. Its place
in the source may leave brackets around it out; if there are no line breaks there, then there are none in
what is read, and the place is that of a stretch that is `spelled` like the type. -/
structure Read (stream : TokenStream) (own spelled : Nat → Nat → TypeExpr → Prop) (start stop : Nat)
    (value : TypeExpr) : Prop where
  inline : stream.Inline own start stop value
  spelled : ∃ first last, start ≤ first ∧ first < last ∧ last ≤ stop ∧
    value.span = stream.extent first last ∧
    (stream.Unbroken first last → stream.Unbroken start stop ∧ spelled first last value)

namespace Read

theorem lt (h : Read stream own spelled start stop value) : start < stop := by
  obtain ⟨first, last, hfirst, hlt, hlast, -⟩ := h.spelled
  omega

theorem mono (h : Read stream own spelled start stop value)
    (hown : own start stop value → own' start stop value)
    (hspelled : ∀ {first last}, spelled first last value → spelled' first last value) :
    Read stream own' spelled' start stop value := by
  obtain ⟨first, last, hfirst, hlt, hlast, hspan, hplain⟩ := h.spelled
  exact ⟨h.inline.mono hown, first, last, hfirst, hlt, hlast, hspan, fun hunbroken =>
    ⟨(hplain hunbroken).1, hspelled (hplain hunbroken).2⟩⟩

/-- The place of what has no brackets around it is that of all that is read. -/
theorem framed (h : stream.Inline own start stop value) (hlt : start < stop)
    (hspan : value.span = stream.extent start stop) (hspelled : own start stop value → spelled start stop value) :
    Read stream own spelled start stop value :=
  ⟨h, start, stop, Nat.le_refl _, hlt, Nat.le_refl _, hspan, fun hplain =>
    ⟨hplain, hspelled (h.holds hplain)⟩⟩

end Read

/-- What is a type by the grammar, nested in at most `budget` levels. -/
def Spelled (stream : TokenStream) (budget start stop : Nat) (value : TypeExpr) : Prop :=
  ∃ least ≤ budget, Derives stream false least .type start stop value

end TypeGrammar

namespace Parser

open TypeGrammar

variable {stream : TokenStream} {inner : TypeRule → Parser TypeExpr}
  {reads : TypeRule → Nat → Nat → TypeExpr → Prop} {inside outside : Nat → Nat → TypeExpr → Prop}
  {state : ParserState}

theorem recognizes_checkRow {entries : List TypeExpr} :
    stream.Recognizes (checkRow entries) fun start stop _ => start = stop ∧ TypeExpr.RowsLast entries := by
  intro state hmuted
  obtain ⟨hrows, hcheck⟩ | ⟨-, diagnostic, hcheck⟩ := TypeExpr.checkRow_cases entries
  · rw [hcheck]
    exact .pure ⟨hmuted, Nat.le_refl _, fun _ => ⟨rfl, hrows⟩⟩
  · rw [hcheck]
    have hlog : state.log.report diagnostic =
        { state.log with diagnostics := state.log.diagnostics.push diagnostic } := if_pos hmuted
    refine .report ?_
    rw [hlog, Log.count, Log.count, Array.size_push]
    exact ⟨hmuted, Nat.le_succ _, fun hquiet => absurd hquiet (Nat.succ_ne_self _)⟩

section

variable (hinner : ∀ rule, stream.Recognizes (inner rule) (Read stream (reads rule) inside))
  (hinside : ∀ {start stop value}, inside start stop value → outside start stop value)
  (hwhole : ∀ {start stop value}, Whole stream false reads start stop value → outside start stop value)

include hinner hinside hwhole

theorem yields_roundType (hmuted : state.log.muted = 0)
    (hkind : stream.kind state.position = .opener .round) :
    stream.Yields (roundType inner) state fun answer final =>
      final.log.muted = 0 ∧ state.log.count ≤ final.log.count ∧ (final.log.count = state.log.count →
        Read stream (Atom stream reads) outside state.position final.position answer) := by
  have hatom : ∀ {start stop value}, Atom stream reads start stop value → outside start stop value :=
    fun h => hwhole (.plain (.one (.applied (.atom h))))
  have hopener : stream.kind state.position ≠ .newline := by rw [hkind]; exact TokenKind.noConfusion
  refine .bind (.advance (by rw [hkind]; nofun) (.bind (.isAt (.ite (fun hclose => ?_) fun _ => ?_))))
  · replace hclose := beq_iff_eq.1 hclose
    refine .bind (.advance (by rw [hclose]; nofun) (.bind (.spanFrom (.pure ?_))))
    exact ⟨hmuted, Nat.le_refl _, fun _ => .framed ⟨by simp only; omega, fun _ => .unit hkind hclose⟩
      (by simp only; omega) rfl hatom⟩
  · refine .bind ((hinner .type).yields hmuted fun first s₁ hmuted₁ hle₁ hfirst => ?_)
    refine .bind (.isAt (.ite (fun _ => ?_) fun hcomma => ?_))
    · refine .bind (.expect nofun fun hclose => .pure ⟨hmuted₁, hle₁, fun hquiet => ?_⟩)
      have hcloser : stream.kind s₁.position ≠ .newline := by rw [hclose]; exact TokenKind.noConfusion
      obtain ⟨hinline, begins, ends, hbegins, hlt, hends, hspan, hspelled⟩ := hfirst hquiet
      refine ⟨⟨Nat.le_of_lt (Nat.lt_of_lt_of_le (Nat.lt_succ_self _) (Nat.le_trans hinline.le (Nat.le_succ _))),
        fun hplain => .round hkind (hinline.holds (hplain.part (Nat.le_succ _) (Nat.le_succ _))) hclose⟩,
        begins, ends, Nat.le_of_succ_le hbegins, hlt, Nat.le_succ_of_le hends, hspan, fun hplain => ?_⟩
      exact ⟨((hspelled hplain).1.cons hopener).concat hcloser, hinside (hspelled hplain).2⟩
    · rw [Bool.not_eq_true, Bool.not_eq_false', beq_iff_eq] at hcomma
      refine .bind ((Yields.collectBehind (Read stream (reads .type) inside) hmuted₁
        fun s hmuted hcomma => ?_).mono fun more s₂ ⟨hmuted₂, hle₂, hmore, hlisted⟩ => ?_)
      · exact .bind (.advance (by rw [hcomma]; nofun) ((hinner .type) _ hmuted))
      · refine .bind (.expect nofun fun hclose => .bind (.spanFrom (.pure
          ⟨hmuted₂, Nat.le_trans hle₁ hle₂, fun hquiet => ?_⟩)))
        obtain ⟨second, more, rfl⟩ := List.exists_cons_of_ne_nil (hmore hcomma)
        obtain ⟨hquiet₁, hquiet₂⟩ := quiet_parts hle₁ hle₂ hquiet
        have hinline := (hlisted hquiet₂ _ first (hfirst hquiet₁)).inline Read.inline
        have hlt := hinline.le
        refine .framed ⟨by simp only at hlt ⊢; omega, fun hplain => ?_⟩ (by simp only at hlt ⊢; omega) rfl hatom
        exact .tuple hkind (hinline.holds (hplain.part (Nat.le_succ _) (Nat.le_succ _))) hclose

theorem recognizes_typeAtom :
    stream.Recognizes (typeAtom inner) (Read stream (Atom stream reads) outside) := by
  have hatom : ∀ {start value}, Atom stream reads start (start + 1) value →
      value.span = (stream.token start).span →
      Read stream (Atom stream reads) outside start (start + 1) value := fun h hspan =>
    .framed ⟨Nat.le_succ _, fun _ => h⟩ (Nat.lt_succ_self _) hspan
      fun h => hwhole (.plain (.one (.applied (.atom h))))
  intro state hmuted
  refine .bind (.current ?_)
  split
  · next hkind =>
    refine .bind (.advance (by rw [show stream.kind state.position = _ from hkind]; exact TokenKind.noConfusion)
      (.pure ?_))
    exact ⟨hmuted, Nat.le_refl _, fun _ => hatom (.var hkind) rfl⟩
  · next hkind =>
    refine .bind (.advance (by rw [show stream.kind state.position = _ from hkind]; exact TokenKind.noConfusion)
      (.pure ?_))
    exact ⟨hmuted, Nat.le_refl _, fun _ => hatom (.con hkind) rfl⟩
  · next hkind => exact yields_roundType hinner hinside hwhole hmuted hkind
  · exact .unexpected

theorem recognizes_appliedType :
    stream.Recognizes (appliedType inner) (Read stream (Applied stream reads) outside) := by
  intro state hmuted
  have hatom := recognizes_typeAtom hinner hinside hwhole
  refine .bind (.current (.bind (hatom.yields hmuted fun head s₁ hmuted₁ hle₁ hhead => ?_)))
  let kept (function : TypeExpr) (final : ParserState) : Prop :=
    final.log.muted = 0 ∧ state.log.count ≤ final.log.count ∧ (final.log.count = state.log.count →
      Read stream (Applied stream reads) outside state.position final.position function)
  refine (Yields.repeatWhile kept ⟨hmuted₁, hle₁, fun hquiet => (hhead hquiet).mono .atom id⟩
    (fun _ => .isAtAny rfl) fun function s₂ ⟨hmuted₂, hle₂, hfunction⟩ _ => ?_).mono
    fun _ _ hlast => hlast.1
  refine .bind (hatom.yields hmuted₂ fun argument s₃ hmuted₃ hle₃ hargument => ?_)
  refine .bind (.spanFrom (.pure ⟨hmuted₃, Nat.le_trans hle₂ hle₃, fun hquiet => ?_⟩))
  obtain ⟨hquiet₂, hquiet₃⟩ := quiet_parts hle₂ hle₃ hquiet
  have hfunction := hfunction hquiet₂
  have hargument := hargument hquiet₃
  have hlt := Nat.lt_trans hfunction.lt hargument.lt
  refine .framed ⟨Nat.le_of_lt hlt, fun hplain => ?_⟩ hlt rfl fun h => hwhole (.plain (.one (.applied h)))
  exact .app (hfunction.inline.holds (hplain.part (Nat.le_refl _) hargument.inline.le))
    (hargument.inline.holds (hplain.part hfunction.inline.le (Nat.le_refl _)))

theorem recognizes_constraint :
    stream.Recognizes (constraint inner) (stream.Inline (Constrained stream reads)) := by
  intro state hmuted
  let kept (arguments : List TypeExpr) (final : ParserState) : Prop :=
    final.log.muted = 0 ∧ state.log.count ≤ final.log.count ∧ (final.log.count = state.log.count →
      Repeated (Read stream (Atom stream reads) outside) (state.position + 1) final.position arguments)
  have hcollect : ∀ s₁, kept [] s₁ → stream.Yields (collectWhile startsTypeAtom (typeAtom inner)) s₁
      fun arguments final => kept arguments final := by
    refine fun s₁ h₁ => (Yields.collectWhile kept h₁ (fun _ => .isAtAny rfl)
      fun arguments s₂ ⟨hmuted₂, hle₂, hatoms⟩ _ => ?_).mono fun _ _ hkept => hkept.1
    refine (recognizes_typeAtom hinner hinside hwhole).yields hmuted₂
      fun argument s₃ hmuted₃ hle₃ hargument => ⟨hmuted₃, Nat.le_trans hle₂ hle₃, fun hquiet => ?_⟩
    obtain ⟨hquiet₂, hquiet₃⟩ := quiet_parts hle₂ hle₃ hquiet
    exact (hatoms hquiet₂).concat (hargument hquiet₃)
  have hstart : kept [] { state with position := state.position + 1 } :=
    ⟨hmuted, Nat.le_refl _, fun _ => .none _⟩
  refine .bind (.expect nofun fun hname => .bind ((hcollect _ hstart).mono
    fun arguments s₁ ⟨hmuted₁, hle₁, hatoms⟩ => ?_))
  cases arguments with
  | nil => exact .bind .unexpected
  | cons first more =>
    refine .bind (.spanFrom (.pure ⟨hmuted₁, hle₁, fun hquiet => ?_⟩))
    have hinline := (hatoms hquiet).inline Read.inline
    exact ⟨Nat.le_of_succ_le hinline.le, fun hplain =>
      .of hname (hinline.holds (hplain.part (Nat.le_succ _) (Nat.le_refl _)))⟩

theorem recognizes_context : stream.Recognizes (context inner) (stream.Inline (Context stream reads)) := by
  intro state hmuted
  have hconstraint := recognizes_constraint hinner hinside hwhole
  refine .bind (.isAt (.ite (fun hopen => ?_) fun _ => ?_))
  · replace hopen := beq_iff_eq.1 hopen
    refine .bind (.advance (by rw [hopen]; nofun) ?_)
    refine .bind (hconstraint.yields hmuted fun first s₁ hmuted₁ hle₁ hfirst => ?_)
    refine .bind ((Yields.collectBehind (stream.Inline (Constrained stream reads)) hmuted₁
      fun s hmuted hcomma => ?_).mono fun more s₂ ⟨hmuted₂, hle₂, _, hlisted⟩ => ?_)
    · exact .bind (.advance (by rw [hcomma]; nofun) (hconstraint _ hmuted))
    · refine .bind (.expect nofun fun hclose => .pure ⟨hmuted₂, Nat.le_trans hle₁ hle₂, fun hquiet => ?_⟩)
      obtain ⟨hquiet₁, hquiet₂⟩ := quiet_parts hle₁ hle₂ hquiet
      have hinline := (hlisted hquiet₂ _ first (hfirst hquiet₁)).inline id
      exact ⟨Nat.le_succ_of_le (Nat.le_of_succ_le hinline.le), fun hplain =>
        .round hopen (hinline.holds (hplain.part (Nat.le_succ _) (Nat.le_succ _))) hclose⟩
  · exact .bind (hconstraint.yields hmuted fun first s₁ hmuted₁ hle₁ hfirst =>
      .pure ⟨hmuted₁, hle₁, fun hquiet => ⟨(hfirst hquiet).le, fun hplain => .one ((hfirst hquiet).holds hplain)⟩⟩)

omit hinside hwhole in
theorem recognizes_effectEntries : stream.Recognizes (effectEntries inner)
    (stream.Inline fun start stop entries => entries = [] ∧ start = stop ∨
      stream.Listed (reads .application) start stop entries) := by
  intro state hmuted
  refine .bind (.skipNewlines (.bind (.isAt (.ite (fun _ => ?_) fun _ => ?_))))
  · have hskip := stream.le_skipWhile (· == .newline) state.position
    exact .pure ⟨hmuted, Nat.le_refl _, fun _ => ⟨hskip, fun hplain =>
      Or.inl ⟨rfl, (hplain.skipWhile_eq (Nat.le_refl _)).symm⟩⟩⟩
  · refine .bind ((hinner .application).yields hmuted fun first s₁ hmuted₁ hle₁ hfirst => ?_)
    refine .bind (.skipNewlines (.bind (.mono (@Yields.collectBehind _ _ _ (stream.Inline (reads .application))
      _ hmuted₁ fun s hmuted hcomma => ?_) fun more s₂ ⟨hmuted₂, hle₂, _, hlisted⟩ => ?_)))
    · refine .bind (.advance (by rw [hcomma]; nofun) (.bind (.skipNewlines (.bind ?_))))
      exact (hinner .application).yields hmuted fun entry s₃ hmuted₃ hle₃ hentry =>
        .bind (.skipNewlines (.pure ⟨hmuted₃, hle₃, fun hquiet => (hentry hquiet).inline.behindBreaks.beforeBreaks⟩))
    · refine .pure ⟨hmuted₂, Nat.le_trans hle₁ hle₂, fun hquiet => ?_⟩
      obtain ⟨hquiet₁, hquiet₂⟩ := quiet_parts hle₁ hle₂ hquiet
      have hinline := (hlisted hquiet₂ _ first (hfirst hquiet₁).inline.behindBreaks.beforeBreaks).inline id
      exact hinline.mono Or.inr

theorem yields_effectType (hmuted : state.log.muted = 0)
    (hopen : stream.kind state.position = .opener .square) :
    stream.Yields (effectType inner) state fun answer final =>
      final.log.muted = 0 ∧ state.log.count ≤ final.log.count ∧ (final.log.count = state.log.count →
        Read stream (Application stream false reads) outside state.position final.position answer) := by
  have happlication : ∀ {start stop value}, Application stream false reads start stop value →
      outside start stop value := fun h => hwhole (.plain (.one h))
  refine .bind (.advance (by rw [hopen]; nofun) ?_)
  refine .bind ((recognizes_effectEntries hinner).yields hmuted fun entries s₁ hmuted₁ hle₁ hentries => ?_)
  refine .bind (.expect nofun fun hclose => .bind (recognizes_checkRow.yields hmuted₁
    fun _ s₂ hmuted₂ hle₂ hrows => ?_))
  have heffects : s₂.log.count = state.log.count → s₁.position + 1 = s₂.position ∧
      stream.Inline (Effects stream reads) (state.position + 1) s₁.position entries := by
    intro hquiet
    obtain ⟨hquiet₁, hquiet₂⟩ := quiet_parts hle₁ hle₂ hquiet
    obtain ⟨hplace, hrows⟩ := hrows hquiet₂
    refine ⟨hplace, (hentries hquiet₁).mono fun hentries => ?_⟩
    rcases hentries with ⟨rfl, hstart⟩ | hlisted
    · exact hstart ▸ .none _
    · exact .some hlisted hrows
  replace hle₂ := Nat.le_trans hle₁ hle₂
  refine .bind (.isAtAny (.ite (fun _ => .bind (.map ?_)) fun _ => ?_))
  · refine (recognizes_appliedType hinner hinside hwhole).yields hmuted₂
      fun result s₃ hmuted₃ hle₃ hresult => ?_
    refine .bind (.spanFrom (.pure ⟨hmuted₃, Nat.le_trans hle₂ hle₃, fun hquiet => ?_⟩))
    obtain ⟨hquiet₂, hquiet₃⟩ := quiet_parts hle₂ hle₃ hquiet
    obtain ⟨hplace, heffects⟩ := heffects hquiet₂
    have hresult : Read stream (Applied stream reads) outside (s₁.position + 1) s₃.position result :=
      hplace ▸ hresult hquiet₃
    have hle := heffects.le
    have hlt := hresult.lt
    refine .framed ⟨by omega, fun hplain => ?_⟩ (by omega) rfl happlication
    exact .result hopen (heffects.holds (hplain.part (by omega) (by omega))) hclose
      (hresult.inline.holds (hplain.part (by omega) (by omega)))
  · refine .bind (.pure (.bind (.spanFrom (.pure ⟨hmuted₂, hle₂, fun hquiet => ?_⟩))))
    obtain ⟨hplace, heffects⟩ := heffects hquiet
    have hle := heffects.le
    rw [← hplace]
    refine .framed ⟨by omega, fun hplain => ?_⟩ (by omega) rfl happlication
    exact .effects hopen (heffects.holds (hplain.part (by omega) (by omega))) hclose

theorem recognizes_typeApplication :
    stream.Recognizes (typeApplication inner) (Read stream (Application stream false reads) outside) := by
  intro state hmuted
  refine .bind (.isAt (.ite (fun hopen => ?_) fun _ => ?_))
  · exact yields_effectType hinner hinside hwhole hmuted (beq_iff_eq.1 hopen)
  · exact (recognizes_appliedType hinner hinside hwhole).yields hmuted fun answer final hmuted hle happlied =>
      ⟨hmuted, hle, fun hquiet => (happlied hquiet).mono .applied id⟩

theorem recognizes_arrowType :
    stream.Recognizes (arrowType inner) (Read stream (Arrow stream false reads) outside) := by
  intro state hmuted
  refine .bind (.current (.bind ((recognizes_typeApplication hinner hinside hwhole).yields hmuted
    fun parameter s₁ hmuted₁ hle₁ hparameter => ?_)))
  refine .bind (.isAtOperator (.ite (fun hsign => ?_) fun _ => ?_))
  · refine .bind (.advance (kind_ne_of_isOperator hsign) (.bind (.skipNewlines (.bind ?_))))
    refine (hinner .arrow).yields hmuted₁ fun result s₂ hmuted₂ hle₂ hresult => ?_
    refine .bind (.spanFrom (.pure ⟨hmuted₂, Nat.le_trans hle₁ hle₂, fun hquiet => ?_⟩))
    obtain ⟨hquiet₁, hquiet₂⟩ := quiet_parts hle₁ hle₂ hquiet
    have hparameter := hparameter hquiet₁
    have hresult : stream.Inline (reads .arrow) (s₁.position + 1) s₂.position result :=
      (hresult hquiet₂).inline.behindBreaks
    have hlt := hparameter.lt
    have hle := hresult.le
    refine .framed ⟨by omega, fun hplain => ?_⟩ (by omega) rfl fun h => hwhole (.plain h)
    exact .arrow (hparameter.inline.holds (hplain.part (by omega) (by omega))) hsign
      (hresult.holds (hplain.part (by omega) (by omega)))
  · exact .pure ⟨hmuted₁, hle₁, fun hquiet => (hparameter hquiet).mono .one id⟩

theorem recognizes_typeExpr :
    stream.Recognizes (typeExpr inner) (Read stream (Whole stream false reads) outside) := by
  intro state hmuted
  have harrow := recognizes_arrowType hinner hinside hwhole
  refine .bind (.current (.bind (.of_eq_ok rfl (.ite (fun _ => ?_) fun _ => ?_))))
  · refine .bind ((recognizes_context hinner hinside hwhole).yields hmuted
      fun constraints s₁ hmuted₁ hle₁ hcontext => ?_)
    refine .bind (.expectOperator fun hsign => .bind (.skipNewlines (.bind ?_)))
    refine harrow.yields hmuted₁ fun body s₂ hmuted₂ hle₂ hbody => ?_
    refine .bind (.spanFrom (.pure ⟨hmuted₂, Nat.le_trans hle₁ hle₂, fun hquiet => ?_⟩))
    obtain ⟨hquiet₁, hquiet₂⟩ := quiet_parts hle₁ hle₂ hquiet
    have hcontext := hcontext hquiet₁
    have hbody : stream.Inline (Arrow stream false reads) (s₁.position + 1) s₂.position body :=
      (hbody hquiet₂).inline.behindBreaks
    have hle := hcontext.le
    have hle' := hbody.le
    refine .framed ⟨by omega, fun hplain => ?_⟩ (by omega) rfl hwhole
    exact .qualified (hcontext.holds (hplain.part (by omega) (by omega))) hsign
      (hbody.holds (hplain.part (by omega) (by omega)))
  · exact harrow.yields hmuted fun answer final hmuted hle hanswer =>
      ⟨hmuted, hle, fun hquiet => (hanswer hquiet).mono .plain id⟩

end

/-- What is read as a type, without a word, is one by the grammar if it is on one line. If its place in the
source is on one line, all of it is, and at that place stands the type by the grammar. -/
theorem recognizes_typeAt_read (budget : Nat) : ∀ rule, stream.Recognizes (typeAt budget rule)
    (Read stream (Derives stream false budget rule) (Spelled stream budget)) := by
  induction budget with
  | zero => exact fun _ _ _ => .throw
  | succ budget ih =>
    have hinside : ∀ {start stop value}, Spelled stream budget start stop value →
        Spelled stream (budget + 1) start stop value := fun ⟨least, hle, h⟩ =>
      ⟨least, Nat.le_succ_of_le hle, h⟩
    have hwhole : ∀ {start stop value}, Whole stream false (Derives stream false budget) start stop value →
        Spelled stream (budget + 1) start stop value := fun h => ⟨budget + 1, Nat.le_refl _, h⟩
    rintro (_ | _ | _)
    · exact recognizes_typeExpr ih hinside hwhole
    · exact recognizes_arrowType ih hinside hwhole
    · exact recognizes_typeApplication ih hinside hwhole

/-- Among tokens without line breaks, what is read as a type, without a word, is one by the grammar. -/
theorem recognizes_typeAt (hnewline : ∀ position, stream.kind position ≠ .newline) (budget : Nat)
    (rule : TypeRule) : stream.Recognizes (typeAt budget rule) (Derives stream false budget rule) :=
  (recognizes_typeAt_read budget rule).mono fun h => h.inline.holds fun position _ _ => hnewline position

end Parser

end SableFrontend
