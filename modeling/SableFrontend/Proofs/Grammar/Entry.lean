import SableFrontend.Proofs.Grammar.Source
import SableFrontend.Proofs.Token.LexedStream

/-!
The ways in which a whole source is read: as a module, as an expression, or as a type. `Entry.ran`
brings together what is known of each of them on a balanced stream, and with it what is known of
every text that can be read as tokens (`Entry.exists_stream`). A text with a module has the module
that is read from its stream (`exists_moduleSource_of_parseSource`).
-/

namespace SableFrontend

/-- The ways in which a source is read, each with what it answers. -/
inductive Entry : Type → Type
  | module : Entry Module
  | expression : Entry Expr
  | type : Entry TypeExpr

/-- How a production may be given up. -/
inductive Abort.Arises (stream : TokenStream) : Abort → Prop
  | failed : Arises stream .failed
  | tooDeep : Arises stream .tooDeep
  | overlong {token : Token} {digits : Nat} (hmem : token ∈ stream.tokens)
      (h : Literal.ofToken token = .error digits) : Arises stream (.overlongInteger digits)

namespace Entry

variable {α : Type} {stream : TokenStream}

/-- The parser of a whole source. -/
def parser : {α : Type} → Entry α → Parser α
  | _, module => Parser.moduleSource
  | _, expression => Parser.whole (Parser.produce nestingBudget (.expression 0))
  | _, type => Parser.whole (Parser.typeAt nestingBudget .type)

/-- What reading a source may report. Only where there are definitions can an annotation have
another name than the definition after it. -/
def Admits : {α : Type} → Entry α → Diagnostic → Prop
  | _, module, diagnostic => diagnostic.IsGrammatical ∨ diagnostic.IsMismatch
  | _, expression, diagnostic => diagnostic.IsGrammatical ∨ diagnostic.IsMismatch
  | _, type, diagnostic => diagnostic.IsGrammatical

/-- Reading a source outside of its productions. -/
def setting (entry : Entry α) (balanced : stream.Balanced) : Setting where
  stream := stream
  balanced := balanced
  admits := entry.Admits
  allows := Abort.Arises stream
  grammatical h := by
    cases entry with
    | module => exact Or.inl h
    | expression => exact Or.inl h
    | type => exact h
  failed := .failed
  overlong := .overlong

/-- What is known when a source has been read. -/
structure Ran (entry : Entry α) (balanced : stream.Balanced) (answer : Except Abort α)
    (final : ParserState) : Prop where
  follows : (entry.setting balanced).Follows .initial final
  settles : (∃ digits, answer = .error (.overlongInteger digits)) ∨
    ParserState.Settles .initial final
  arises : ∀ abort, answer = .error abort → Abort.Arises stream abort ∧ abort ≠ .tooDeep
  reports : answer = .error .failed → 0 < final.log.count

theorem ran_of_stops {entry : Entry α} {balanced : stream.Balanced} {abort : Abort}
    {final : ParserState} (h : (entry.setting balanced).shallow.Stops .initial abort final) :
    entry.Ran balanced (.error abort) final where
  follows := ⟨h.follows.muted_eq, h.follows.reports, h.follows.events⟩
  settles := by
    obtain ⟨harises, hne⟩ := h.allowed
    cases harises with
    | failed => exact Or.inr (h.settles rfl)
    | tooDeep => exact absurd rfl hne
    | overlong => exact Or.inl ⟨_, rfl⟩
  arises other heq := by
    cases heq
    exact h.allowed
  reports heq := by
    cases heq
    exact h.reports rfl rfl

theorem ran_of_reached {entry : Entry α} {balanced : stream.Balanced} {moved : Bool}
    {inside : List Bracket} {answer : α} {final : ParserState}
    (h : (entry.setting balanced).shallow.Reached .initial moved inside final) :
    entry.Ran balanced (.ok answer) final where
  follows := ⟨h.follows.muted_eq, h.follows.reports, h.follows.events⟩
  settles := Or.inr h.settles
  arises _ heq := by cases heq
  reports heq := by cases heq

/-- What has been reported when a source has been read. -/
theorem Ran.admits {entry : Entry α} {balanced : stream.Balanced} {answer : Except Abort α}
    {final : ParserState} (h : entry.Ran balanced answer final) :
    ∀ diagnostic ∈ final.log.diagnostics, entry.Admits diagnostic := by
  intro diagnostic hmem
  obtain ⟨reported, hreported, hadmits⟩ := h.follows.reports
  rw [← Array.mem_toList_iff, hreported] at hmem
  exact hadmits diagnostic hmem

/-- Reading a balanced stream keeps to the rules. -/
theorem ran (entry : Entry α) (balanced : stream.Balanced) :
    entry.Ran balanced (entry.parser stream .initial).1 (entry.parser stream .initial).2 := by
  -- inside of the productions nesting may be too deep, at their outside it may not
  have hdeep : (entry.setting balanced).allows .tooDeep := Abort.Arises.tooDeep
  have hruns : (entry.setting balanced).shallow.Runs entry.parser .initial
      (fun answer final => entry.Ran balanced (.ok answer) final)
      (fun abort final => entry.Ran balanced (.error abort) final) := by
    cases entry with
    | module =>
      have hwarns : (module.setting balanced).Warns := Or.inr
      exact (Setting.runs_moduleSource hwarns hdeep).mono (fun _ _ h => ran_of_reached h)
        fun _ _ h => ran_of_stops h.2
    | expression =>
      have hwarns : (expression.setting balanced).Warns := Or.inr
      have hobeys := Setting.obeys_produce hwarns hdeep nestingBudget (.expression 0)
      exact (Setting.proceeds_whole hobeys).mono (fun _ _ h => ran_of_reached h)
        fun _ _ h => ran_of_stops h
    | type =>
      have hobeys := Setting.obeys_typeAt hdeep nestingBudget .type
      exact (Setting.proceeds_whole hobeys).mono (fun _ _ h => ran_of_reached h)
        fun _ _ h => ran_of_stops h
  exact hruns.elim (fun _ _ h => h) fun _ _ h => h

/-- Reading a module does not fail. -/
theorem module_ne_failed (balanced : stream.Balanced) :
    (module.parser stream .initial).1 ≠ .error .failed := by
  have hwarns : (module.setting balanced).Warns := Or.inr
  have hruns := Setting.runs_moduleSource hwarns Abort.Arises.tooDeep
  refine hruns.elim (motive := fun answer _ => answer ≠ .error .failed)
    (fun _ _ _ heq => by cases heq) fun abort _ hquits heq => ?_
  cases heq
  exact hquits.1 rfl

/-- The stream that a text is read from. -/
theorem exists_stream (entry : Entry α) {text file : String} {tokens : Array Token}
    (h : Token.ofText text file = .ok tokens) :
    ∃ stream, TokenStream.ofTokens? tokens = some stream ∧ stream.tokens = tokens ∧
      ∃ balanced : stream.Balanced,
        entry.Ran balanced (runParser entry.parser tokens).1 (runParser entry.parser tokens).2 := by
  obtain ⟨stream, hstream, htokens, balanced⟩ := TokenStream.exists_of_ofText h
  refine ⟨stream, hstream, htokens, balanced, ?_⟩
  rw [runParser, hstream]
  exact entry.ran balanced

end Entry

/-- Parsing a source that can be read as tokens is reading a module from its stream. -/
theorem exists_moduleSource_of_parseSource {text file : String} {result : ParseResult}
    {tokens : Array Token} (hlexes : Token.ofText text file = .ok tokens)
    (h : parseSource text file = .ok result) :
    ∃ stream source final, TokenStream.ofTokens? tokens = some stream ∧ stream.tokens = tokens ∧
      stream.Balanced ∧ Parser.moduleSource stream .initial = (.ok source, final) ∧
      result.module? = some source ∧ result.diagnostics = final.log.diagnostics.toList := by
  obtain ⟨stream, hstream, htokens, balanced⟩ := TokenStream.exists_of_ofText hlexes
  have hran := Entry.module.ran balanced
  have hfailed := Entry.module_ne_failed balanced
  replace hran : Entry.module.Ran balanced (Parser.moduleSource stream .initial).1
    (Parser.moduleSource stream .initial).2 := hran
  replace hfailed : (Parser.moduleSource stream .initial).1 ≠ .error .failed := hfailed
  unfold parseSource at h
  rw [hlexes] at h
  dsimp only [runParser] at h
  rw [hstream] at h
  dsimp only at h
  cases hrun : Parser.moduleSource stream .initial with
  | mk answer final =>
    rw [hrun] at h hran hfailed
    cases answer with
    | ok source =>
      cases h
      exact ⟨stream, source, final, hstream, htokens, balanced, hrun, rfl, rfl⟩
    | error abort =>
      obtain ⟨harises, hdeep⟩ := hran.arises abort rfl
      cases harises with
      | failed => exact absurd rfl hfailed
      | tooDeep => exact absurd rfl hdeep
      | overlong => cases h

theorem parseSource_eq_ok {text file : String} {tokens : Array Token} {stream : TokenStream}
    {source : Module} {final : ParserState} (hlexes : Token.ofText text file = .ok tokens)
    (hstream : TokenStream.ofTokens? tokens = some stream)
    (hrun : Parser.moduleSource stream .initial = (.ok source, final)) :
    parseSource text file = .ok {
      module? := some source
      diagnostics := final.log.diagnostics.toList
      tokens := tokens } := by
  unfold parseSource
  rw [hlexes]
  dsimp only [runParser]
  rw [hstream]
  dsimp only
  rw [hrun]
  rfl

/-- Parsing a source as a single production is reading it from its stream, with no error reported. -/
theorem exists_whole_of_parseWhole {α : Type} {parser : Parser α} {text file : String}
    {tokens : Array Token} {stream : TokenStream} {value : α}
    (hlexes : Token.ofText text file = .ok tokens)
    (hstream : TokenStream.ofTokens? tokens = some stream)
    (h : parseWhole parser text file = .ok value) :
    ∃ final, Parser.whole parser stream .initial = (.ok value, final) ∧
      final.log.diagnostics.toList.filter (·.isError) = [] := by
  unfold parseWhole at h
  rw [hlexes] at h
  dsimp only [runParser] at h
  rw [hstream] at h
  dsimp only at h
  cases hrun : Parser.whole parser stream .initial with
  | mk answer final =>
    rw [hrun] at h
    cases answer with
    | ok given =>
      dsimp only at h
      split at h
      · next hempty =>
        cases h
        exact ⟨final, rfl, List.isEmpty_iff.1 hempty⟩
      · cases h
    | error abort => cases abort <;> cases h

/-- What is read of a source with no error reported is what the source is parsed to. -/
theorem parseWhole_of_errorless {α : Type} {parser : Parser α} {text file : String}
    {tokens : Array Token} {stream : TokenStream} {value : α} {final : ParserState}
    (hlexes : Token.ofText text file = .ok tokens)
    (hstream : TokenStream.ofTokens? tokens = some stream)
    (hrun : Parser.whole parser stream .initial = (.ok value, final))
    (herrors : final.log.diagnostics.toList.filter (·.isError) = []) :
    parseWhole parser text file = .ok value := by
  unfold parseWhole
  rw [hlexes]
  dsimp only [runParser]
  rw [hstream]
  dsimp only
  rw [hrun]
  dsimp only
  rw [herrors]
  rfl

end SableFrontend
