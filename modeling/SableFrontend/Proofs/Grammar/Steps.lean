import SableFrontend.Proofs.Grammar.Conduct

/-!
The steps that productions are made of. Each rule is about a single step, taken in a state that has
been reached, and leaves to be shown what the rest of the production does from the state after it:
a proof about a production follows the production from its first step to its last.

A token may be consumed if what it does to the delimiters is known. A plain token does nothing to
them, an opener is to be closed later on, and a closer may be consumed if its opener has been
consumed before, so that no production leaves the delimiters that it was started in.
-/

namespace SableFrontend

namespace TokenStream

variable {stream : TokenStream}

/-- Tokens that are plain may be skipped. -/
theorem within_skipWhile {isMember : TokenKind → Bool} {position : Nat}
    (hplain : ∀ kind, isMember kind = true → kind.isPlain = true) (hlt : position < stream.size) :
    stream.Within position (stream.skipWhile isMember position) ∧
      stream.opened (stream.skipWhile isMember position) = stream.opened position ∧
      isMember (stream.kind (stream.skipWhile isMember position)) = false := by
  fun_induction skipWhile stream isMember position with
  | case1 position _ hmember ih =>
    have hkind := hplain _ hmember
    have hend : stream.kind position ≠ .endOfFile := fun heq => by
      rw [heq] at hkind
      cases hkind
    have hopened := opened_succ_plain hlt hkind
    have hnext : stream.Within position (position + 1) :=
      (Within.refl hlt).succ hend (hopened ▸ List.suffix_rfl)
    obtain ⟨hwithin, hsame, hstop⟩ := ih hnext.lt
    exact ⟨hnext.trans hwithin, hsame.trans hopened, hstop⟩
  | case2 position _ hmember =>
    exact ⟨.refl hlt, rfl, Bool.eq_false_iff.2 hmember⟩
  | case3 position hge => exact absurd hlt hge

/-- Nothing is skipped in front of a token that is not in the class. -/
theorem skipWhile_eq_self {isMember : TokenKind → Bool} {position : Nat}
    (h : isMember (stream.kind position) = false) :
    stream.skipWhile isMember position = position := by
  rw [skipWhile]
  simp [h]

/-- What is skipped belongs to what may be skipped. -/
theorem isMember_of_lt_skipWhile {isMember : TokenKind → Bool} {position other : Nat}
    (hle : position ≤ other) (hlt : other < stream.skipWhile isMember position) :
    isMember (stream.kind other) = true := by
  fun_induction skipWhile stream isMember position with
  | case1 position _ hmember ih =>
    rcases Nat.eq_or_lt_of_le hle with rfl | hmore
    · exact hmember
    · exact ih hmore hlt
  | case2 | case3 => omega

end TokenStream

theorem Token.isPlain_of_isOperator {token : Token} {spelling : String}
    (h : token.isOperator spelling = true) : token.kind.isPlain = true := by
  rw [Token.isOperator, Bool.and_eq_true, beq_iff_eq] at h
  rw [h.1]
  rfl

namespace Setting

open SableFrontend.Parser

variable {set : Setting} {α β : Type} {start state : ParserState} {moved : Bool}
  {inside : List Bracket}

/-! ### Looking -/

section

variable {stops : Abort → ParserState → Prop}

theorem Runs.current {returns : Token → ParserState → Prop}
    (h : returns (set.stream.token state.position) state) :
    set.Runs current state returns stops := h

theorem Runs.peek {offset : Nat} {returns : Token → ParserState → Prop}
    (h : returns (set.stream.token (state.position + offset)) state) :
    set.Runs (peek offset) state returns stops := h

theorem Runs.previous {returns : Token → ParserState → Prop}
    (h : returns (set.stream.token (state.position - 1)) state) :
    set.Runs previous state returns stops := h

theorem Runs.isAt {kind : TokenKind} {returns : Bool → ParserState → Prop}
    (h : returns (set.stream.kind state.position == kind) state) :
    set.Runs (isAt kind) state returns stops := h

theorem Runs.isAtAny {isMember : TokenKind → Bool} {returns : Bool → ParserState → Prop}
    (h : returns (isMember (set.stream.kind state.position)) state) :
    set.Runs (isAtAny isMember) state returns stops := h

theorem Runs.isAtOperator {spelling : String} {returns : Bool → ParserState → Prop}
    (h : returns ((set.stream.token state.position).isOperator spelling) state) :
    set.Runs (isAtOperator spelling) state returns stops := h

theorem Runs.firstStop {isStop : TokenKind → Bool} {returns : Token → ParserState → Prop}
    (h : returns (set.stream.firstStop isStop 0 state.position) state) :
    set.Runs (firstStop isStop) state returns stops := h

theorem Runs.spanFrom {from' : Span} {returns : Span → ParserState → Prop}
    (h : ∀ span, returns span state) : set.Runs (spanFrom from') state returns stops := h _

theorem Runs.read {returns : TokenStream → ParserState → Prop} (h : returns set.stream state) :
    set.Runs read state returns stops := h

theorem Runs.get {returns : ParserState → ParserState → Prop} (h : returns state state) :
    set.Runs get state returns stops := h

end

/-! ### Moving -/

/-- Moving changes neither log nor history. -/
theorem Follows.moveTo (h : set.Follows start state) (position : Nat) :
    set.Follows start { state with position := position } :=
  ⟨h.muted_eq, h.reports, h.events⟩

theorem Reached.succ (h : set.Reached start moved inside state) {inside' : List Bracket}
    (hwithin : set.stream.Within start.position (state.position + 1))
    (hopened : set.stream.opened (state.position + 1) =
      inside' ++ set.stream.opened start.position) :
    set.Reached start true inside' { state with position := state.position + 1 } where
  within := hwithin
  opened_eq := hopened
  follows := h.follows.moveTo _
  settles := h.settles
  progress _ := Nat.lt_succ_of_le h.within.le

theorem Runs.moveTo {position : Nat} {returns : Unit → ParserState → Prop}
    {stops : Abort → ParserState → Prop} (h : returns () { state with position := position }) :
    set.Runs (moveTo position) state returns stops := h

theorem Runs.advance {returns : Token → ParserState → Prop} {stops : Abort → ParserState → Prop}
    (hlt : state.position + 1 < set.stream.size)
    (h : returns (set.stream.token state.position) { state with position := state.position + 1 }) :
    set.Runs advance state returns stops := by
  refine .bind (.read ?_)
  refine .bind (.get ?_)
  refine .ite (fun _ => ?_) (fun hnot => absurd hlt hnot)
  refine .bind (.moveTo ?_)
  exact .pure h

section

variable {returns : Token → ParserState → Prop} {stops : Abort → ParserState → Prop}

/-- Consuming a token that does nothing to the delimiters. -/
theorem Reached.advancePlain (h : set.Reached start moved inside state) {kind : TokenKind}
    (hkind : set.stream.kind state.position = kind) (hplain : kind.isPlain = true)
    (next : ∀ final, set.Reached start true inside final → final.position = state.position + 1 →
      returns (set.stream.token state.position) final) :
    set.Runs advance state returns stops := by
  have hend : set.stream.kind state.position ≠ .endOfFile := fun heq => by
    rw [← hkind, heq] at hplain
    cases hplain
  have hopened := TokenStream.opened_succ_plain h.lt (hkind ▸ hplain)
  have hwithin : set.stream.Within start.position (state.position + 1) :=
    h.within.succ hend (by rw [hopened]; exact h.within.last)
  exact .advance hwithin.lt (next _ (h.succ hwithin (hopened.trans h.opened_eq)) rfl)

/-- Consuming an opener: what follows it is inside of the pair, whose closer is due. -/
theorem Reached.advanceOpener (h : set.Reached start moved inside state) {bracket : Bracket}
    (hkind : set.stream.kind state.position = .opener bracket)
    (next : ∀ final, set.Reached start true (bracket :: inside) final →
      set.stream.Opens final.position (.closer bracket) → final.log = state.log →
      returns (set.stream.token state.position) final) :
    set.Runs advance state returns stops := by
  have hopened := TokenStream.opened_succ_opener h.lt hkind
  have hwithin : set.stream.Within start.position (state.position + 1) := by
    refine h.within.succ (by rw [hkind]; exact TokenKind.noConfusion) ?_
    rw [hopened]
    exact h.within.last.trans (List.suffix_cons ..)
  refine .advance hwithin.lt (next _ (h.succ hwithin ?_) ?_ rfl)
  · rw [hopened, h.opened_eq, List.cons_append]
  · exact .afterOpener bracket (Nat.succ_pos _) hkind

/-- Consuming the closer of a pair whose opener has been consumed before. -/
theorem Reached.advanceCloser {bracket : Bracket} {opened : Bracket}
    (h : set.Reached start moved (opened :: inside) state)
    (hkind : set.stream.kind state.position = .closer bracket)
    (next : ∀ final, set.Reached start true inside final →
      returns (set.stream.token state.position) final) :
    set.Runs advance state returns stops := by
  have hopened : set.stream.opened (state.position + 1) =
      inside ++ set.stream.opened start.position := by
    rw [TokenStream.opened_succ_closer h.lt hkind, h.opened_eq]
    rfl
  have hwithin : set.stream.Within start.position (state.position + 1) := by
    refine h.within.succ (by rw [hkind]; exact TokenKind.noConfusion) ?_
    rw [hopened]
    exact List.suffix_append ..
  exact .advance hwithin.lt (next _ (h.succ hwithin hopened))

end

/-- Skipping plain tokens. -/
theorem Reached.skipWhile (h : set.Reached start moved inside state) {isMember : TokenKind → Bool}
    (hplain : ∀ kind, isMember kind = true → kind.isPlain = true)
    {returns : Unit → ParserState → Prop} {stops : Abort → ParserState → Prop}
    (next : ∀ final, set.Reached start moved inside final →
      final.position = set.stream.skipWhile isMember state.position → returns () final) :
    set.Runs (skipWhile isMember) state returns stops := by
  obtain ⟨hwithin, hopened, -⟩ := TokenStream.within_skipWhile hplain h.lt
  refine .bind (.read ?_)
  refine .bind (.get ?_)
  refine .moveTo (next _ ?_ rfl)
  exact {
    within := h.within.trans hwithin
    opened_eq := hopened.trans h.opened_eq
    follows := h.follows.moveTo _
    settles := h.settles
    progress := fun hmoved => Nat.lt_of_lt_of_le (h.progress hmoved) hwithin.le }

theorem Reached.skipNewlines (h : set.Reached start moved inside state)
    {returns : Unit → ParserState → Prop} {stops : Abort → ParserState → Prop}
    (next : ∀ final, set.Reached start moved inside final →
      final.position = set.stream.skipWhile (· == .newline) state.position → returns () final) :
    set.Runs skipNewlines state returns stops := by
  refine h.skipWhile (fun kind hkind => ?_) next
  rw [beq_iff_eq.1 hkind]
  rfl

theorem Reached.skipSeparators (h : set.Reached start moved inside state) {commas : Bool}
    {returns : Unit → ParserState → Prop} {stops : Abort → ParserState → Prop}
    (next : ∀ final, set.Reached start moved inside final → returns () final) :
    set.Runs (skipSeparators commas) state returns stops :=
  h.skipWhile (fun _ hkind => TokenKind.isPlain_of_separates hkind) fun final h' _ => next final h'

/-! ### Reporting -/

theorem Follows.report (h : set.Follows start state) {diagnostic : Diagnostic}
    (hadmits : set.admits diagnostic) :
    set.Follows start { state with log := state.log.report diagnostic } where
  muted_eq := (Log.report_muted ..).trans h.muted_eq
  reports := by
    obtain ⟨reported, hreported, hall⟩ := h.reports
    by_cases hmuted : state.log.muted = 0
    · refine ⟨reported ++ [diagnostic], ?_, fun other hmem => ?_⟩
      · simp only [Log.report, hmuted, if_true, Array.toList_push, hreported, List.append_assoc]
      · rcases List.mem_append.1 hmem with hmem | hmem
        · exact hall other hmem
        · rw [List.mem_singleton.1 hmem]
          exact hadmits
    · refine ⟨reported, ?_, hall⟩
      simp only [Log.report, hmuted, if_false, hreported]
  events := by
    obtain ⟨events, hevents, hsound⟩ := h.events
    refine ⟨events, hevents, fun event hmem =>
      (hsound event hmem).mono set (Nat.le_refl _) fun other hother => ?_⟩
    unfold Log.report
    split
    · exact Array.mem_push_of_mem _ hother
    · exact hother

theorem Runs.report {diagnostic : Diagnostic} {returns : Unit → ParserState → Prop}
    {stops : Abort → ParserState → Prop}
    (h : returns () { state with log := state.log.report diagnostic }) :
    set.Runs (report diagnostic) state returns stops := h

theorem Reached.report (h : set.Reached start moved inside state) {diagnostic : Diagnostic}
    (hadmits : set.admits diagnostic) {returns : Unit → ParserState → Prop}
    {stops : Abort → ParserState → Prop}
    (next : ∀ final, set.Reached start moved inside final → returns () final) :
    set.Runs (report diagnostic) state returns stops :=
  next _ { h with follows := h.follows.report hadmits }

theorem Reached.reportError (h : set.Reached start moved inside state) {kind : DiagnosticKind}
    {message : String} {span : Span} {notes : List String} (hlexical : kind ≠ .lexError)
    (hmismatch : kind ≠ .ascriptionMismatch) {returns : Unit → ParserState → Prop}
    {stops : Abort → ParserState → Prop}
    (next : ∀ final, set.Reached start moved inside final → returns () final) :
    set.Runs (reportError kind message span notes) state returns stops :=
  h.report (set.grammatical (Diagnostic.isGrammatical_errorAt hlexical hmismatch)) next

/-! ### Giving up -/

/-- Giving up for a reason that is allowed and is not a failure. -/
theorem Reached.abort (h : set.Reached start moved inside state) {abort : Abort}
    (hallows : set.allows abort) (hne : abort ≠ .failed) : set.Stops start abort state where
  within := h.within
  follows := h.follows
  allowed := hallows
  settles heq := absurd heq hne
  reports heq := absurd heq hne

/-- Failing after something has been reported. -/
theorem Reached.fail (h : set.Reached start moved inside state)
    (hreports : start.log.muted = 0 → start.log.count < state.log.count) :
    set.Stops start .failed state where
  within := h.within
  follows := h.follows
  allowed := set.failed
  settles _ := h.settles
  reports _ := hreports

/-- Outside of attempts, a report makes the log longer. -/
theorem Follows.count_lt_report (h : set.Follows start state) (diagnostic : Diagnostic)
    (hmuted : start.log.muted = 0) : start.log.count < (state.log.report diagnostic).count := by
  have hcount := h.count_le
  rw [← h.muted_eq] at hmuted
  simp only [Log.report, hmuted, if_true, Log.count, Array.size_push] at hcount ⊢
  omega

theorem Reached.fail_report (h : set.Reached start moved inside state) {diagnostic : Diagnostic}
    (hadmits : set.admits diagnostic) :
    set.Stops start .failed { state with log := state.log.report diagnostic } := by
  have h' : set.Reached start moved inside { state with log := state.log.report diagnostic } :=
    { h with follows := h.follows.report hadmits }
  exact h'.fail (h.follows.count_lt_report diagnostic)

theorem Reached.failWith (h : set.Reached start moved inside state) {kind : DiagnosticKind}
    {message : String} {span : Span} {notes : List String} (hlexical : kind ≠ .lexError)
    (hmismatch : kind ≠ .ascriptionMismatch) {returns : α → ParserState → Prop} :
    set.Runs (failWith kind message span notes) state returns (set.Stops start) :=
  h.fail_report (set.grammatical (Diagnostic.isGrammatical_errorAt hlexical hmismatch))

theorem Reached.unexpected (h : set.Reached start moved inside state) {expected : List String}
    {context : String} {returns : α → ParserState → Prop} :
    set.Runs (unexpected expected context) state returns (set.Stops start) :=
  h.fail_report (set.grammatical
    (Diagnostic.isGrammatical_errorAt DiagnosticKind.noConfusion DiagnosticKind.noConfusion))

/-! ### Expecting a token -/

section

variable {context : String} {returns : Token → ParserState → Prop}

theorem Reached.expectPlain (h : set.Reached start moved inside state) {kind : TokenKind}
    (hplain : kind.isPlain = true)
    (next : ∀ token final, set.Reached start true inside final → returns token final) :
    set.Runs (expect kind context) state returns (set.Stops start) := by
  refine .bind (.isAt (.ite (fun hat => ?_) (fun _ => h.unexpected)))
  exact h.advancePlain (beq_iff_eq.1 hat) hplain fun final h' _ => next _ final h'

theorem Reached.expectOpener (h : set.Reached start moved inside state) {bracket : Bracket}
    (next : ∀ token final, set.Reached start true (bracket :: inside) final →
      set.stream.Opens final.position (.closer bracket) → final.log = state.log →
      returns token final) :
    set.Runs (expect (.opener bracket) context) state returns (set.Stops start) := by
  refine .bind (.isAt (.ite (fun hat => ?_) (fun _ => h.unexpected)))
  exact h.advanceOpener (beq_iff_eq.1 hat) (next _)

theorem Reached.expectCloser {bracket opened : Bracket}
    (h : set.Reached start moved (opened :: inside) state)
    (next : ∀ token final, set.Reached start true inside final → returns token final) :
    set.Runs (expect (.closer bracket) context) state returns (set.Stops start) := by
  refine .bind (.isAt (.ite (fun hat => ?_) (fun _ => h.unexpected)))
  exact h.advanceCloser (beq_iff_eq.1 hat) (next _)

theorem Reached.expectOperator (h : set.Reached start moved inside state) {spelling : String}
    (next : ∀ token final, set.Reached start true inside final → returns token final) :
    set.Runs (expectOperator spelling context) state returns (set.Stops start) := by
  refine .bind (.isAtOperator (.ite (fun hat => ?_) (fun _ => h.unexpected)))
  exact h.advancePlain rfl (Token.isPlain_of_isOperator hat) fun final h' _ => next _ final h'

end

/-- The text of a token that is expected. -/
theorem obeys_tokenValue {kind : TokenKind} (hplain : kind.isPlain = true) {context : String} :
    set.Obeys true (do return (← expect kind context).value) :=
  fun _ hlt => .bind ((Reached.refl hlt).expectPlain hplain fun _ _ h₁ => .pure h₁)

/-! ### Parts of productions -/

/-- A part of a production that keeps to the rules. -/
theorem Reached.call (h : set.Reached start moved inside state) {moved' : Bool}
    {parser : Parser α} (hparser : set.Proceeds moved' parser state)
    {returns : α → ParserState → Prop}
    (next : ∀ answer final, set.Reached start (moved || moved') inside final →
      returns answer final) : set.Runs parser state returns (set.Stops start) :=
  hparser.mono (fun answer final h' => next answer final (h.trans h'))
    (fun _ _ hstops => h.stops hstops)

theorem Reached.literalOf (h : set.Reached start moved inside state) {token : Token}
    (hmem : token ∈ set.stream.tokens) {returns : Literal → ParserState → Prop}
    (next : ∀ literal, returns literal state) :
    set.Runs (literalOf token) state returns (set.Stops start) := by
  unfold Parser.literalOf
  split
  · exact next _
  · next digits heq => exact h.abort (set.overlong hmem heq) Abort.noConfusion

end Setting

end SableFrontend
