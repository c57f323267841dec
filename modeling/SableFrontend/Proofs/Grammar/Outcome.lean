import SableFrontend.Proofs.Grammar.Entry

/-!
What parsing a source comes to. Either there is a module, however much is wrong with it, or the
source could not be read as tokens, or it has a decimal integer with more digits than are read as a
number. Neither a failed production nor too deep nesting is ever left to the caller.

That the last case is the only one in which a number is refused rests on how numbers are spelled:
each token that is a number has digits wherever its value is taken from.
-/

namespace SableFrontend

/-! ### Overlong integers -/

/-- A decimal integer with so many digits that it is not read as a number. -/
structure Token.IsOverlong (token : Token) (digits : Nat) : Prop where
  kind_eq : token.kind = .literal .integer
  isGroup : Numeral.IsGroup Text.isAsciiDigit token.value.toList
  digits_eq : digits = (Numeral.digitsOf token.value.toList).length
  lt : Numeral.maxDecimalDigits < digits

namespace Numeral

theorem decimalValue_eq_error {written : List Char} {digits : Nat}
    (h : integerValue.decimalValue written = .error digits) :
    digits = written.length ∧ maxDecimalDigits < digits := by
  unfold integerValue.decimalValue at h
  split at h
  · cases h
  · next hlong =>
    injection h with h
    exact ⟨h.symm, h ▸ Nat.lt_of_not_le hlong⟩

theorem integerValue_eq_error {text : List Char} {digits : Nat}
    (h : integerValue text = .error digits) :
    digits = (digitsOf text).length ∧ maxDecimalDigits < digits := by
  unfold integerValue at h
  split at h
  · next heq =>
    split at h
    · cases h
    · rw [heq]
      exact decimalValue_eq_error h
  · exact decimalValue_eq_error h

theorem Radix.ne_underscore_of_ofLetter? {letter : Char} {radix : Radix}
    (h : ofLetter? letter = some radix) : letter ≠ '_' := by
  rintro rfl
  cases h

/-- A number with a radix of its own is read whatever its length. -/
theorem integerValue_radix {letter : Char} {radix : Radix} {group : List Char}
    (h : Radix.ofLetter? letter = some radix) :
    integerValue ('0' :: letter :: group) = .ok (ofDigits radix.base (digitsOf group)) := by
  have hdigits : digitsOf ('0' :: letter :: group) = '0' :: letter :: digitsOf group := by
    simp [digitsOf, Radix.ne_underscore_of_ofLetter? h]
  simp only [integerValue, hdigits, h]

/-- Only a decimal number can be too long. -/
theorem Spells.isGroup_of_error {text : List Char} {digits : Nat}
    (hspells : Spells .integer text) (h : integerValue text = .error digits) :
    IsGroup Text.isAsciiDigit text := by
  cases hspells with
  | decimal hgroup => exact hgroup
  | radix hletter =>
    rw [integerValue_radix hletter] at h
    cases h

end Numeral

theorem Literal.ofToken_eq_error {token : Token} {digits : Nat}
    (h : ofToken token = .error digits) :
    token.kind = .literal .integer ∧ Numeral.integerValue token.value.toList = .error digits := by
  unfold ofToken at h
  split at h
  · next hkind =>
    refine ⟨hkind, ?_⟩
    cases hvalue : Numeral.integerValue token.value.toList with
    | ok value =>
      rw [hvalue] at h
      cases h
    | error longer =>
      rw [hvalue] at h
      injection h with h
      rw [h]
  all_goals cases h

/-- A token of a text that is a number is spelled like one. -/
theorem Token.spells_of_isNumeric {text file : String} {tokens : Array Token}
    (hlexed : Token.ofText text file = .ok tokens) {token : Token} (hmem : token ∈ tokens)
    {kind : LiteralKind} (hkind : token.kind = .literal kind)
    (hnumeric : token.kind.isNumeric = true) : Numeral.Spells kind token.value.toList := by
  refine ((Token.readFrom_of_ofText hlexed hmem).spells kind hkind).resolve_left fun hquoted => ?_
  rw [hkind] at hquoted hnumeric
  cases kind with
  | integer | float => cases hquoted
  | text | character => cases hnumeric

/-- A token of a text that denotes nothing is a decimal integer with too many digits. -/
theorem Token.isOverlong_of_ofText {text file : String} {tokens : Array Token}
    (hlexed : Token.ofText text file = .ok tokens) {token : Token} (hmem : token ∈ tokens)
    {digits : Nat} (h : Literal.ofToken token = .error digits) : token.IsOverlong digits := by
  obtain ⟨hkind, hvalue⟩ := Literal.ofToken_eq_error h
  obtain ⟨hdigits, hlt⟩ := Numeral.integerValue_eq_error hvalue
  have hspells : Numeral.Spells .integer token.value.toList :=
    Token.spells_of_isNumeric hlexed hmem hkind (by rw [hkind]; rfl)
  exact ⟨hkind, hspells.isGroup_of_error hvalue, hdigits, hlt⟩

/-! ### Outcomes -/

/-- What a source with a fault gives: the report of the fault, and nothing else. -/
structure ParseResult.IsFaulty (result : ParseResult) : Prop where
  module_eq : result.module? = none
  tokens_eq : result.tokens = #[]
  report : ∃ diagnostic, result.diagnostics = [diagnostic] ∧ diagnostic.isError = true ∧
    diagnostic.kind.code = "E100"

/-- What a source without a fault gives: a module, its tokens, and no report of a fault. -/
structure ParseResult.IsParsed (result : ParseResult) (tokens : Array Token) : Prop where
  module_ne : result.module? ≠ none
  tokens_eq : result.tokens = tokens
  reports : ∀ diagnostic ∈ result.diagnostics, diagnostic.kind.code ≠ "E100"

/-- Only faults have their code. -/
theorem DiagnosticKind.code_ne_of_ne {kind : DiagnosticKind} (h : kind ≠ .lexError) :
    kind.code ≠ "E100" := by
  cases kind with
  | lexError => exact absurd rfl h
  | _ => decide

theorem Entry.Admits.code_ne {α : Type} {entry : Entry α} {diagnostic : Diagnostic}
    (h : entry.Admits diagnostic) : diagnostic.kind.code ≠ "E100" := by
  have hgrammatical : diagnostic.IsGrammatical → diagnostic.kind.code ≠ "E100" := fun h =>
    DiagnosticKind.code_ne_of_ne h.not_lexical
  have hmismatch : diagnostic.IsMismatch → diagnostic.kind.code ≠ "E100" := by
    intro h
    rw [h.kind_eq]
    decide
  cases entry with
  | module => exact h.elim hgrammatical hmismatch
  | expression => exact h.elim hgrammatical hmismatch
  | type => exact hgrammatical h

/-- The one way in which reading the tokens of a text as a module can be given up. -/
theorem Entry.isOverlong_of_module_eq_error {text file : String} {tokens : Array Token}
    (hlexed : Token.ofText text file = .ok tokens) {abort : Abort}
    (h : (runParser Entry.module.parser tokens).1 = .error abort) :
    ∃ token ∈ tokens, ∃ digits, abort = .overlongInteger digits ∧ token.IsOverlong digits := by
  obtain ⟨stream, hstream, htokens, balanced, hran⟩ := Entry.module.exists_stream hlexed
  obtain ⟨harises, hdeep⟩ := hran.arises abort h
  cases harises with
  | failed =>
    rw [runParser, hstream] at h
    exact absurd h (Entry.module_ne_failed balanced)
  | tooDeep => exact absurd rfl hdeep
  | @overlong token digits hmem hliteral =>
    rw [htokens] at hmem
    exact ⟨token, hmem, digits, rfl, Token.isOverlong_of_ofText hlexed hmem hliteral⟩

/-- A module is parsed from the tokens of a text, unless one of them is too long a number. -/
theorem isParsed_of_ofText {text file : String} {tokens : Array Token}
    (hlexed : Token.ofText text file = .ok tokens) :
    match parseSource text file with
    | .ok result => result.IsParsed tokens
    | .error literal => ∃ token ∈ tokens, token.IsOverlong literal.digits := by
  have hoverlong : ∀ {abort}, (runParser Entry.module.parser tokens).1 = .error abort →
      ∃ token ∈ tokens, ∃ digits, abort = .overlongInteger digits ∧ token.IsOverlong digits :=
    fun h => Entry.isOverlong_of_module_eq_error hlexed h
  obtain ⟨stream, -, -, balanced, hran⟩ := Entry.module.exists_stream hlexed
  unfold parseSource
  rw [hlexed]
  simp only [show Parser.moduleSource = Entry.module.parser from rfl]
  generalize runParser Entry.module.parser tokens = run at hoverlong hran
  obtain ⟨answer, final⟩ := run
  cases answer with
  | ok result =>
    refine { module_ne := Option.some_ne_none result, tokens_eq := rfl, reports := ?_ }
    intro diagnostic hmem
    exact (hran.admits diagnostic (Array.mem_toList_iff.1 hmem)).code_ne
  | error abort =>
    obtain ⟨token, hmem, digits, rfl, htoken⟩ := hoverlong rfl
    exact ⟨token, hmem, htoken⟩

/-- Parsing a source always comes to one of three ends. A fault leaves its report and no module; of
tokens there is a module, and none of the reports is of a fault, unless one of them is a decimal
integer with too many digits. Nothing else makes reading the tokens be given up, and each of them
that is a number is spelled like one. -/
theorem parseSource_outcome (text file : String) :
    (match Token.ofText text file, parseSource text file with
      | .error _, .ok result => result.IsFaulty
      | .error _, .error _ => False
      | .ok tokens, .ok result => result.IsParsed tokens
      | .ok tokens, .error literal => ∃ token ∈ tokens, token.IsOverlong literal.digits) ∧
    ∀ tokens, Token.ofText text file = .ok tokens →
      (∀ abort, (runParser Parser.moduleSource tokens).1 = .error abort →
        ∃ token ∈ tokens, ∃ digits, abort = .overlongInteger digits ∧ token.IsOverlong digits) ∧
      ∀ token ∈ tokens, ∀ kind, token.kind = .literal kind → token.kind.isNumeric = true →
        Numeral.Spells kind token.value.toList := by
  constructor
  · cases hlexed : Token.ofText text file with
    | error error =>
      unfold parseSource
      rw [hlexed]
      exact { module_eq := rfl, tokens_eq := rfl, report := ⟨_, rfl, rfl, rfl⟩ }
    | ok tokens =>
      have hparsed := isParsed_of_ofText hlexed
      cases hresult : parseSource text file with
      | ok result => rwa [hresult] at hparsed
      | error literal => rwa [hresult] at hparsed
  · intro tokens hlexed
    refine ⟨fun abort h => Entry.isOverlong_of_module_eq_error hlexed h, fun token hmem kind hkind
      hnumeric => ?_⟩
    exact Token.spells_of_isNumeric hlexed hmem hkind hnumeric

end SableFrontend
