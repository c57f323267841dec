import SableFrontend.Proofs.Sentences.TypeReading
import SableFrontend.Proofs.Parallel.Recurrence

/-!
The types among the sources without separators. Those are answered without a word that the grammar derives
with no list of effects as the result of another one. Any other sentence of the grammar has a `]` directly
in front of a `[` (`read_iff_derives`).
-/

namespace SableFrontend

open TokenStream Parser

namespace TypeGrammar

variable {stream : TokenStream} {nested nested' : Bool} {reads reads' : TypeRule → Nat → Nat → TypeExpr → Prop}
  {start stop : Nat} {value : TypeExpr}

/-! ### Larger grammars -/

section

variable (hreads : ∀ {rule start stop value}, reads rule start stop value → reads' rule start stop value)

include hreads

theorem Atom.mono (h : Atom stream reads start stop value) : Atom stream reads' start stop value := by
  cases h with
  | var h => exact .var h
  | con h => exact .con h
  | unit hopen hclose => exact .unit hopen hclose
  | round hopen h hclose => exact .round hopen (hreads h) hclose
  | tuple hopen h hclose => exact .tuple hopen (h.mono hreads) hclose

theorem Applied.mono (h : Applied stream reads start stop value) : Applied stream reads' start stop value := by
  induction h with
  | atom h => exact .atom (h.mono hreads)
  | app _ hargument ih => exact .app ih (hargument.mono hreads)

theorem Constrained.mono {constraint : Constraint} (h : Constrained stream reads start stop constraint) :
    Constrained stream reads' start stop constraint := by
  cases h with
  | of hname h => exact .of hname (h.mono (Atom.mono hreads))

theorem Context.mono {constraints : List Constraint} (h : Context stream reads start stop constraints) :
    Context stream reads' start stop constraints := by
  cases h with
  | one h => exact .one (h.mono hreads)
  | round hopen h hclose => exact .round hopen (h.mono (Constrained.mono hreads)) hclose

theorem Effects.mono {entries : List TypeExpr} (h : Effects stream reads start stop entries) :
    Effects stream reads' start stop entries := by
  cases h with
  | none => exact .none _
  | some h hrows => exact .some (h.mono hreads) hrows

variable (hnested : nested = true → nested' = true ∨
  ∀ position, stream.kind position = .closer .square → stream.kind (position + 1) ≠ .opener .square)

include hnested

theorem Application.mono (h : Application stream nested reads start stop value) :
    Application stream nested' reads' start stop value := by
  induction h with
  | applied h => exact .applied (h.mono hreads)
  | effects hopen h hclose => exact .effects hopen (h.mono hreads) hclose
  | result hopen h hclose hresult => exact .result hopen (h.mono hreads) hclose (hresult.mono hreads)
  | chained hchain hopen h hclose _ ih =>
    rcases hnested hchain with hnested' | hapart
    · exact .chained hnested' hopen (h.mono hreads) hclose ih
    · cases ih with
      | applied hresult => exact .result hopen (h.mono hreads) hclose hresult
      | effects hopen' | result hopen' | chained _ hopen' => exact absurd hopen' (hapart _ hclose)

theorem Arrow.mono (h : Arrow stream nested reads start stop value) :
    Arrow stream nested' reads' start stop value := by
  cases h with
  | one h => exact .one (h.mono hreads hnested)
  | arrow h hsign hresult => exact .arrow (h.mono hreads hnested) hsign (hreads hresult)

theorem Whole.mono (h : Whole stream nested reads start stop value) :
    Whole stream nested' reads' start stop value := by
  cases h with
  | plain h => exact .plain (h.mono hreads hnested)
  | qualified h hsign hbody => exact .qualified (h.mono hreads) hsign (hbody.mono hreads hnested)

end

/-- Whether results of lists of effects may be lists of effects makes no difference where no `]` stands
directly in front of a `[`. -/
theorem Derives.mono {budget : Nat} {rule : TypeRule} (hnested : nested = true → nested' = true ∨
      ∀ position, stream.kind position = .closer .square → stream.kind (position + 1) ≠ .opener .square)
    (h : Derives stream nested budget rule start stop value) :
    Derives stream nested' budget rule start stop value := by
  induction budget generalizing rule start stop value with
  | zero => cases h
  | succ budget ih =>
    cases rule with
    | type => exact Whole.mono ih hnested h
    | arrow => exact Arrow.mono ih hnested h
    | application => exact Application.mono ih hnested h

/-- What is derived on some levels is derived on more. -/
theorem Derives.budget_mono {budget more : Nat} {rule : TypeRule}
    (h : Derives stream nested budget rule start stop value) (hle : budget ≤ more) :
    Derives stream nested more rule start stop value := by
  induction budget generalizing more rule start stop value with
  | zero => cases h
  | succ budget ih =>
    obtain ⟨more, rfl⟩ := Nat.exists_eq_succ_of_ne_zero (Nat.ne_of_gt (Nat.zero_lt_of_lt hle))
    have hreads : ∀ {rule start stop value}, Derives stream nested budget rule start stop value →
        Derives stream nested more rule start stop value := fun h => ih h (Nat.le_of_succ_le_succ hle)
    cases rule with
    | type => exact Whole.mono hreads Or.inl h
    | arrow => exact Arrow.mono hreads Or.inl h
    | application => exact Application.mono hreads Or.inl h

end TypeGrammar

open TypeGrammar

theorem TokenStream.isSeparator_of_all {stream : TokenStream}
    (h : stream.tokens.all (fun token => !token.kind.isSeparator) = true) (position : Nat) :
    (stream.kind position).isSeparator = false := by
  unfold kind token
  cases hget : stream.tokens[position]? with
  | none =>
    rw [Option.getD_none, stream.last_kind]
    rfl
  | some token => exact Bool.not_eq_true' _ ▸ Array.all_eq_true'.1 h token (Array.mem_of_getElem? hget)

/-- A source without separators is answered as a type, without a word, just if it is a sentence of the
grammar in which the result of a list of effects is no list of effects; the answer is the type that the
grammar derives. That is a sentence of the whole grammar, and where no `]` stands directly in front of a `[`,
all sentences of the whole grammar are answered. -/
theorem read_iff_derives {stream : TokenStream} (hplain : ∀ position, (stream.kind position).isSeparator = false)
    (value : TypeExpr) :
    ((∃ final, whole (typeAt nestingBudget .type) stream .initial = (.ok value, final) ∧
        final.log.diagnostics = #[]) ↔
      ∃ stop, Derives stream false nestingBudget .type 0 stop value ∧ stream.kind stop = .endOfFile) ∧
    (∀ stop, Derives stream false nestingBudget .type 0 stop value →
      Derives stream true nestingBudget .type 0 stop value) ∧
    ((∀ position, stream.kind position = .closer .square → stream.kind (position + 1) ≠ .opener .square) →
      ((∃ final, whole (typeAt nestingBudget .type) stream .initial = (.ok value, final) ∧
          final.log.diagnostics = #[]) ↔
        ∃ stop, Derives stream true nestingBudget .type 0 stop value ∧ stream.kind stop = .endOfFile)) := by
  have hnewline : ∀ position, stream.kind position ≠ .newline := fun position hkind => by
    have hplain := hplain position
    rw [hkind] at hplain
    cases hplain
  have hiff := @whole_iff stream _ _ value _ hplain (recognizes_typeAt hnewline nestingBudget .type)
    fun h hstop => (legible_typeAt hnewline nestingBudget).consumes h (Or.inr (Or.inr hstop))
  refine ⟨hiff, fun stop => Derives.mono nofun, fun hapart => hiff.trans ?_⟩
  exact exists_congr fun stop => and_congr_left fun _ =>
    ⟨Derives.mono nofun, Derives.mono fun _ => Or.inr hapart⟩

/-- A type with a context and effects is answered, so the grammar derives it. -/
theorem exists_read_iff_derives :
    ∃ stream value, TokenStream.ofText? "(Show a, Eq a) => [IO, e] (List a) -> ()" "" = some stream ∧
      (∀ position, (stream.1.kind position).isSeparator = false) ∧
      ∃ stop, Derives stream.1 false nestingBudget .type 0 stop value ∧ stream.1.kind stop = .endOfFile := by
  have htest : (TokenStream.ofText? "(Show a, Eq a) => [IO, e] (List a) -> ()" "").any (fun stream =>
      stream.1.tokens.all (fun token => !token.kind.isSeparator) &&
        match whole (typeAt nestingBudget .type) stream.1 .initial with
        | (answer, final) => answer.toOption.isSome && final.log.diagnostics.isEmpty) = true := by
    decide +kernel
  obtain ⟨stream, hstream, htest⟩ := (Option.any_eq_true ..).1 htest
  rw [Bool.and_eq_true] at htest
  have hplain := isSeparator_of_all htest.1
  cases hrun : whole (typeAt nestingBudget .type) stream.1 .initial with
  | mk answer final =>
    rw [hrun, Bool.and_eq_true, Array.isEmpty_iff] at htest
    cases answer with
    | error => cases htest.2.1
    | ok value =>
      exact ⟨stream, value, hstream, hplain, (read_iff_derives hplain value).1.1 ⟨final, hrun, htest.2.2⟩⟩

/-- The grammar allows a list of effects as the result of another one, and the parser does not. -/
theorem exists_derived_not_read :
    ∃ stream, TokenStream.ofText? "[A] [B] c" "" = some stream ∧
      (∀ position, (stream.1.kind position).isSeparator = false) ∧
      (∃ value stop, Derives stream.1 true nestingBudget .type 0 stop value ∧ stream.1.kind stop = .endOfFile) ∧
      ∀ value final, whole (typeAt nestingBudget .type) stream.1 .initial ≠ (.ok value, final) := by
  have htest : (TokenStream.ofText? "[A] [B] c" "").any (fun stream =>
      stream.1.tokens.all (fun token => !token.kind.isSeparator) &&
        (List.range 8).map stream.1.kind == [.opener .square, .typeIdentifier, .closer .square,
          .opener .square, .typeIdentifier, .closer .square, .identifier, .endOfFile] &&
        (whole (typeAt nestingBudget .type) stream.1 .initial).1.toOption.isNone) = true := by
    decide +kernel
  obtain ⟨stream, hstream, htest⟩ := (Option.any_eq_true ..).1 htest
  rw [Bool.and_eq_true, Bool.and_eq_true, beq_iff_eq] at htest
  obtain ⟨⟨hplain, hkinds⟩, hnone⟩ := htest
  obtain ⟨h₀, h₁, h₂, h₃, h₄, h₅, h₆, h₇, -⟩ := by
    simpa only [List.range_succ, List.range_zero, List.map_append, List.map_cons, List.map_nil, List.nil_append,
      List.cons_append, List.cons.injEq] using hkinds
  have hentry : ∀ {place}, stream.1.kind place = .typeIdentifier →
      Effects stream.1 (Derives stream.1 true 799) place (place + 1)
        [.con (stream.1.token place).value (stream.1.token place).span] := fun h =>
    .some (.one (.applied (.atom (.con h)))) nofun
  have hsentence : ∃ value, Whole stream.1 true (Derives stream.1 true 799) 0 7 value :=
    ⟨_, .plain (.one (.chained rfl h₀ (hentry h₁) h₂ (.result h₃ (hentry h₄) h₅ (.atom (.var h₆)))))⟩
  obtain ⟨value, hsentence⟩ := hsentence
  refine ⟨stream, hstream, isSeparator_of_all hplain, ⟨value, 7, hsentence, h₇⟩, fun value final hrun => ?_⟩
  rw [hrun] at hnone
  cases hnone

end SableFrontend
