import SableFrontend.Proofs.Grammar.Entry

/-!
What recovery may be relied on for. A loop over items, wherever it runs, goes forward in each of its
rounds, never past the delimiter that closes its items, and ends exactly there; so reading comes to
an end, and the closer that is asked for next is always found.

Whether a failure that was recovered from shows in the answer is another matter. Something has
always been reported, but it need not have been an error: where it was nothing but warnings about
annotations with another name than the definition after them, what was left out is left out in
silence.
-/

namespace SableFrontend

/-! ### Enclosures -/

/-- What a history shows of the loops over items, those in attempts included. A loop that has ended
stands at a token that may be expected there. -/
structure KeepsEnclosures (stream : TokenStream) (history : List ParserEvent) : Prop where
  rounds : ∀ {within start stop}, .round within start stop ∈ history →
    within.Keeps stream start stop ∧ start < stop
  skips : ∀ {within start stop}, .skipped within start stop ∈ history →
    within.Keeps stream start stop
  ends : ∀ {within stop}, .finished within stop ∈ history →
    stream.Closes within.first within.closer stop
  expects : ∀ {within stop}, .finished within stop ∈ history → ∀ (context : String) state,
    state.position = stop →
      ∃ token final, Parser.expect within.closer context stream state = (.ok token, final)

/-- A token of the kind that stands at a position may be expected there. -/
theorem Setting.exists_expect {set : Setting} {kind : TokenKind} {state : ParserState}
    (h : set.stream.kind state.position = kind) (context : String) :
    ∃ token final, Parser.expect kind context set.stream state = (.ok token, final) := by
  have hruns : set.Runs (Parser.expect kind context) state (fun _ _ => True)
      (fun _ _ => False) := by
    refine .bind (.isAt (.ite (fun _ => ?_) fun hnot => absurd (beq_iff_eq.2 h) hnot))
    refine .bind (.read (.bind (.get (.ite (fun _ => ?_) fun _ => .pure trivial))))
    exact .bind (.moveTo (.pure trivial))
  obtain ⟨token, htoken⟩ := hruns.elim (motive := fun answer _ => ∃ token, answer = .ok token)
    (fun token _ _ => ⟨token, rfl⟩) fun _ _ hfalse => hfalse.elim
  exact ⟨token, _, Prod.ext htoken rfl⟩

theorem Setting.Follows.keepsEnclosures {set : Setting} {final : ParserState}
    (h : set.Follows .initial final) : KeepsEnclosures set.stream final.history := by
  obtain ⟨events, hevents, hsound⟩ := h.events
  rw [show final.history = events from hevents.trans (List.append_nil events)]
  exact {
    rounds := fun hmem => hsound _ hmem
    skips := fun hmem => hsound _ hmem
    ends := fun hmem => hsound _ hmem
    expects := fun hmem context state hstate => by
      have hcloses : set.stream.Closes _ _ _ := hsound _ hmem
      exact Setting.exists_expect (hstate ▸ hcloses.kind_eq) context }

/-- Every loop over items that a text is read with, wherever it stands and also in attempts, goes
forward in each round, skips nothing past the token that closes its items, and ends at that token,
which is then found when it is expected. No loop goes on for ever; and every loop that was begun has
ended, unless it was left because of an integer literal with too many digits, or because the source
nests too deeply. -/
theorem Entry.keepsEnclosures_of_ofText {α : Type} (entry : Entry α) {text file : String}
    {tokens : Array Token} (h : Token.ofText text file = .ok tokens) :
    ∃ stream, TokenStream.ofTokens? tokens = some stream ∧
      KeepsEnclosures stream (runParser entry.parser tokens).2.history ∧
      (runParser entry.parser tokens).1 ≠ .error .endless ∧
      ((∃ digits, (runParser entry.parser tokens).1 = .error (.overlongInteger digits)) ∨
        .cutShort ∈ (runParser entry.parser tokens).2.history ∨
        ∀ within, (runParser entry.parser tokens).2.history.countP (·.begins within) =
          (runParser entry.parser tokens).2.history.countP (·.ends within)) := by
  obtain ⟨stream, hstream, -, balanced, hran⟩ := entry.exists_stream h
  refine ⟨stream, hstream, hran.follows.keepsEnclosures, fun hendless => ?_, ?_⟩
  · obtain ⟨harises, -⟩ := hran.arises .endless hendless
    cases harises
  · refine hran.settles.imp_right fun ⟨events, hevents, hcount⟩ => ?_
    rw [show (runParser entry.parser tokens).2.history = events from
      hevents.trans (List.append_nil events)]
    exact hcount

/-- A block of which one statement is skipped, up to the end of its line. -/
theorem Entry.exists_keepsEnclosures_of_skipped :
    ∃ tokens stream, Token.ofText "x = [a = = 1\nb]\n" "f" = .ok tokens ∧
      TokenStream.ofTokens? tokens = some stream ∧
      KeepsEnclosures stream (runParser Entry.module.parser tokens).2.history ∧
      .skipped { first := 3, level := 1, closer := .closer .square, commas := false } 5 8 ∈
        (runParser Entry.module.parser tokens).2.history := by
  have hskipped : ((Token.ofText "x = [a = = 1\nb]\n" "f").toOption.any fun tokens =>
      decide (.skipped { first := 3, level := 1, closer := .closer .square, commas := false } 5 8 ∈
        (runParser Entry.module.parser tokens).2.history)) = true := by decide +kernel
  cases h : Token.ofText "x = [a = = 1\nb]\n" "f" with
  | error _ =>
    rw [h] at hskipped
    cases hskipped
  | ok tokens =>
    rw [h] at hskipped
    obtain ⟨stream, hstream, hkeeps, -⟩ := Entry.keepsEnclosures_of_ofText Entry.module h
    exact ⟨tokens, stream, rfl, hstream, hkeeps, of_decide_eq_true hskipped⟩

/-! ### Silent failures -/

/-- The warning is the only kind of report that is not an error. -/
theorem Entry.Admits.isError_eq_false_iff {α : Type} {entry : Entry α} {diagnostic : Diagnostic}
    (h : entry.Admits diagnostic) : diagnostic.isError = false ↔ diagnostic.IsMismatch := by
  have hgrammatical : diagnostic.IsGrammatical →
      (diagnostic.isError = false ↔ diagnostic.IsMismatch) := by
    intro h
    have herror : diagnostic.isError = true := beq_iff_eq.2 h.severity_eq
    refine iff_of_false (fun hfalse => ?_) fun hmismatch => h.not_mismatch hmismatch.kind_eq
    rw [herror] at hfalse
    cases hfalse
  have hmismatch : diagnostic.IsMismatch →
      (diagnostic.isError = false ↔ diagnostic.IsMismatch) := by
    intro h
    refine iff_of_true ?_ h
    rw [Diagnostic.isError, h.severity_eq]
    rfl
  cases entry with
  | module => exact h.elim hgrammatical hmismatch
  | expression => exact h.elim hgrammatical hmismatch
  | type => exact hgrammatical h

/-- The state in which reading a text ends. -/
def Entry.final {α : Type} (entry : Entry α) (text file : String) : ParserState :=
  match Token.ofText text file with
  | .error _ => .initial
  | .ok tokens => (runParser entry.parser tokens).2

theorem Entry.final_eq {α : Type} (entry : Entry α) {text file : String} {tokens : Array Token}
    (h : Token.ofText text file = .ok tokens) :
    entry.final text file = (runParser entry.parser tokens).2 := by
  rw [final, h]

/-- A failure outside of attempts of which no error tells. -/
def Failure.isSilent (failure : Failure) : Bool :=
  failure.muted == 0 && failure.reported.all (!·.isError)

/-- What is known of the state in which reading a text ends: what has been reported is of a kind
that may be, and each failure outside of attempts has been reported. -/
theorem Entry.final_reports {α : Type} (entry : Entry α) (text file : String) :
    (∀ diagnostic ∈ (entry.final text file).log.diagnostics, entry.Admits diagnostic) ∧
      ∀ failure, .abandoned failure ∈ (entry.final text file).history → failure.muted = 0 →
        failure.reported ≠ [] ∧ ∀ diagnostic ∈ failure.reported,
          entry.Admits diagnostic ∧ diagnostic ∈ (entry.final text file).log.diagnostics := by
  unfold Entry.final
  split
  · exact ⟨fun _ hmem => absurd hmem (Array.not_mem_empty _), fun _ hmem => by cases hmem⟩
  · next tokens htokens =>
    obtain ⟨stream, -, -, balanced, hran⟩ := entry.exists_stream htokens
    obtain ⟨events, hevents, hsound⟩ := hran.follows.events
    refine ⟨hran.admits, fun failure hmem hmuted => ?_⟩
    rw [hevents, show ParserState.initial.history = [] from rfl, List.append_nil] at hmem
    exact (hsound _ hmem).2 hmuted

theorem Entry.isSilent_iff {α : Type} {entry : Entry α} {text file : String} {failure : Failure}
    (h : .abandoned failure ∈ (entry.final text file).history) :
    failure.isSilent = true ↔ failure.muted = 0 ∧ failure.reported ≠ [] ∧
      ∀ diagnostic ∈ failure.reported, diagnostic.IsMismatch := by
  have hreports := (entry.final_reports text file).2 failure h
  have herror : failure.muted = 0 → ∀ diagnostic ∈ failure.reported,
      (diagnostic.isError = false ↔ diagnostic.IsMismatch) := fun hmuted diagnostic hmem =>
    ((hreports hmuted).2 diagnostic hmem).1.isError_eq_false_iff
  simp only [Failure.isSilent, Bool.and_eq_true, beq_iff_eq, List.all_eq_true, Bool.not_eq_true']
  constructor
  · intro ⟨hmuted, hall⟩
    exact ⟨hmuted, (hreports hmuted).1, fun diagnostic hmem =>
      (herror hmuted diagnostic hmem).1 (hall diagnostic hmem)⟩
  · intro ⟨hmuted, _, hall⟩
    exact ⟨hmuted, fun diagnostic hmem => (herror hmuted diagnostic hmem).2 (hall diagnostic hmem)⟩

/-- No errors are among the reports just if all of them are warnings about annotations. -/
theorem Entry.filter_isError_eq_nil_iff {α : Type} (entry : Entry α) (text file : String) :
    (entry.final text file).log.diagnostics.toList.filter (·.isError) = [] ↔
      ∀ diagnostic ∈ (entry.final text file).log.diagnostics, diagnostic.IsMismatch := by
  have hadmits := (entry.final_reports text file).1
  simp only [List.filter_eq_nil_iff, Bool.not_eq_true, Array.mem_toList_iff]
  exact forall_congr' fun diagnostic => imp_congr_right fun hmem =>
    (hadmits diagnostic hmem).isError_eq_false_iff

/-- A module that was read comes with what was reported while it was read. -/
theorem ParseResult.diagnostics_eq {text file : String} {result : ParseResult}
    (h : parseSource text file = .ok result) (hmodule : result.module?.isSome = true) :
    result.diagnostics = (Entry.module.final text file).log.diagnostics.toList := by
  unfold parseSource at h
  cases htokens : Token.ofText text file with
  | error error =>
    rw [htokens] at h
    injection h with h
    rw [← h] at hmodule
    cases hmodule
  | ok tokens =>
    rw [htokens] at h
    dsimp only at h
    rw [Entry.module.final_eq htokens]
    split at h
    · cases h
    · next answer final _ hrun =>
      injection h with h
      rw [← h, show runParser Entry.module.parser tokens = _ from hrun]

/-- A source that is rejected has been reported on, though not always by an error. -/
theorem Entry.rejected_eq {α : Type} {entry : Entry α} {parser : Parser α} {text file : String}
    {errors : List Diagnostic} (hparser : entry.parser = Parser.whole parser)
    (h : parseWhole parser text file = .error (.rejected errors)) :
    errors = (entry.final text file).log.diagnostics.toList.filter (·.isError) ∧
      (entry.final text file).log.diagnostics ≠ #[] := by
  unfold parseWhole at h
  cases htokens : Token.ofText text file with
  | error error =>
    rw [htokens] at h
    cases h
  | ok tokens =>
    obtain ⟨stream, -, -, balanced, hran⟩ := entry.exists_stream htokens
    rw [htokens] at h
    dsimp only at h
    rw [entry.final_eq htokens]
    rw [hparser] at hran ⊢
    generalize runParser (Parser.whole parser) tokens = run at h hran
    obtain ⟨answer, final⟩ := run
    cases answer with
    | ok value =>
      dsimp only at h
      split at h
      · cases h
      · next hnone =>
        injection h with h
        injection h with h
        refine ⟨h.symm, fun hempty => hnone ?_⟩
        rw [show final.log.diagnostics = #[] from hempty]
        rfl
    | error abort =>
      obtain ⟨harises, hdeep⟩ := hran.arises abort rfl
      cases harises with
      | failed =>
        injection h with h
        injection h with h
        exact ⟨h.symm, Array.size_pos_iff.1 (hran.reports rfl)⟩
      | tooDeep => exact absurd rfl hdeep
      | overlong => cases h

/-- Where recovery is silent. No error tells of a failure just if warnings about annotations were
all that was reported in it; so the module of a source that is in order lacks nothing but what was
left out with such a warning, an expression is rejected without errors only if nothing else was
reported, and a type never is. -/
theorem isSilent_iff_isMismatch (text file : String) :
    (∀ {α : Type} (entry : Entry α) failure,
      .abandoned failure ∈ (entry.final text file).history →
        (failure.isSilent = true ↔ failure.muted = 0 ∧ failure.reported ≠ [] ∧
          ∀ diagnostic ∈ failure.reported, diagnostic.IsMismatch)) ∧
    (∀ result, parseSource text file = .ok result → result.ok = true →
      ∀ failure, .abandoned failure ∈ (Entry.module.final text file).history → failure.muted = 0 →
        failure.isSilent = true ∧ ∀ diagnostic ∈ failure.reported,
          diagnostic.IsMismatch ∧ diagnostic ∈ result.diagnostics) ∧
    (∀ errors, parseExpression text file = .error (.rejected errors) →
      (Entry.expression.final text file).log.diagnostics ≠ #[] ∧
        (errors = [] ↔ ∀ diagnostic ∈ (Entry.expression.final text file).log.diagnostics,
          diagnostic.IsMismatch)) ∧
    ∀ errors, parseType text file = .error (.rejected errors) → errors ≠ [] := by
  refine ⟨fun entry failure hmem => Entry.isSilent_iff hmem, fun result hresult hok failure hmem
    hmuted => ?_, fun errors herrors => ?_, fun errors herrors hnil => ?_⟩
  · obtain ⟨hmodule, hnone⟩ := Bool.and_eq_true_iff.1 hok
    have hdiagnostics := ParseResult.diagnostics_eq hresult hmodule
    have hmismatch := (Entry.module.filter_isError_eq_nil_iff text file).1
      (hdiagnostics ▸ List.isEmpty_iff.1 hnone)
    obtain ⟨hne, hreported⟩ := (Entry.module.final_reports text file).2 failure hmem hmuted
    have hall : ∀ diagnostic ∈ failure.reported, diagnostic.IsMismatch := fun diagnostic hmem =>
      hmismatch diagnostic (hreported diagnostic hmem).2
    refine ⟨(Entry.isSilent_iff hmem).2 ⟨hmuted, hne, hall⟩, fun diagnostic hmem =>
      ⟨hall diagnostic hmem, ?_⟩⟩
    rw [hdiagnostics, Array.mem_toList_iff]
    exact (hreported diagnostic hmem).2
  · obtain ⟨heq, hne⟩ := Entry.rejected_eq (show Entry.expression.parser = _ from rfl) herrors
    exact ⟨hne, heq ▸ Entry.expression.filter_isError_eq_nil_iff text file⟩
  · obtain ⟨heq, hne⟩ := Entry.rejected_eq (show Entry.type.parser = _ from rfl) herrors
    have hmismatch := (Entry.type.filter_isError_eq_nil_iff text file).1 (heq ▸ hnil)
    obtain ⟨diagnostic, hmem⟩ := Array.exists_mem_of_ne_empty _ hne
    have hgrammatical := (Entry.type.final_reports text file).1 diagnostic hmem
    exact Diagnostic.IsGrammatical.not_mismatch hgrammatical (hmismatch diagnostic hmem).kind_eq

/-- A definition and an expression, each left out without an error for want of a last expression,
because the annotation in them has another name than the definition after it. -/
theorem exists_isSilent_of_ok :
    (match parseSource "x = [f @ Int\ng = 1]\n" "f" with
      | .ok result => result.ok && result.module?.any (·.declarations.isEmpty)
      | .error _ => false) = true ∧
    (Entry.module.final "x = [f @ Int\ng = 1]\n" "f").history.any
      (fun | .abandoned failure => failure.isSilent | _ => false) = true ∧
    (match parseExpression "[f @ Int\ng = 1]" "f" with
      | .error (.rejected errors) => errors.isEmpty
      | _ => false) = true := by
  decide +kernel

end SableFrontend
