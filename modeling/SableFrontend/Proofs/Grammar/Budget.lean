import SableFrontend.Proofs.Grammar.Loops
import SableFrontend.Grammar.Source

/-!
The budget for nesting. Nothing inside of a production goes on once the budget is used up: recovery and
attempts leave too deep nesting to what is around them. So what is read within a budget is read in the same
way within a greater one (`outlasts_produce`), and only a source that is too deep for the smaller one may
come to something else.
-/

namespace SableFrontend

open Setting

set_option synthInstance.maxSize 4096

variable {α β : Type}

/-- A parser does what another one does, unless the source is too deep for it. -/
class Parser.Outlasts (parser other : Parser α) : Prop where
  same_or : ∀ stream state,
    (parser stream state).1 = .error .tooDeep ∨ other stream state = parser stream state

namespace Parser.Outlasts

/-! ### Steps -/

instance refl (parser : Parser α) : parser.Outlasts parser := ⟨fun _ _ => Or.inr rfl⟩

instance bind {parser other : Parser α} {next next' : α → Parser β} [h : parser.Outlasts other]
    [hnext : ∀ answer, (next answer).Outlasts (next' answer)] :
    (parser >>= next).Outlasts (other >>= next') := by
  refine ⟨fun stream state => ?_⟩
  rw [bind_apply, bind_apply]
  rcases h.same_or stream state with hdeep | hsame
  · cases hrun : parser stream state with
    | mk result middle =>
      rw [hrun] at hdeep
      dsimp only at hdeep
      subst hdeep
      exact Or.inl rfl
  · rw [hsame]
    cases parser stream state with
    | mk result middle =>
      cases result with
      | error => exact Or.inr rfl
      | ok answer => exact (hnext answer).same_or stream middle

theorem after {parser : Parser α} {next next' : α → Parser β}
    (hnext : ∀ answer, (next answer).Outlasts (next' answer)) :
    (parser >>= next).Outlasts (parser >>= next') :=
  @bind _ _ _ _ _ _ (refl _) hnext

instance map {parser other : Parser α} {function : α → β} [parser.Outlasts other] :
    (function <$> parser).Outlasts (function <$> other) := by
  rw [map_eq_pure_bind, map_eq_pure_bind]
  infer_instance

instance ite {c : Prop} [Decidable c] {first first' second second' : Parser α}
    [hpos : first.Outlasts first'] [hneg : second.Outlasts second'] :
    (if c then first else second : Parser α).Outlasts (if c then first' else second') := by
  split
  · exact hpos
  · exact hneg

/-- A failure that is caught is not one of nesting. -/
theorem tryCatch {parser other : Parser α} {handler : Abort → Parser α}
    (h : parser.Outlasts other)
    (hhandler : ∀ stream state, (handler .tooDeep stream state).1 = .error .tooDeep) :
    (MonadExcept.tryCatch parser handler).Outlasts (MonadExcept.tryCatch other handler) := by
  refine ⟨fun stream state => ?_⟩
  rw [tryCatch_apply, tryCatch_apply]
  rcases h.same_or stream state with hdeep | hsame
  · cases hrun : parser stream state with
    | mk result middle =>
      rw [hrun] at hdeep
      dsimp only at hdeep
      subst hdeep
      exact Or.inl (hhandler stream middle)
  · rw [hsame]
    exact Or.inr rfl

/-! ### Loops, attempts and recovery -/

instance repeatWhile {test test' : Parser Bool} {step step' : α → Parser α} {start : α}
    [test.Outlasts test'] [hstep : ∀ value, (step value).Outlasts (step' value)] :
    (Parser.repeatWhile test step start).Outlasts (Parser.repeatWhile test' step' start) := by
  have hiterate : ∀ count value,
      (Parser.repeatWhile.iterate test step count value).Outlasts
        (Parser.repeatWhile.iterate test' step' count value) := by
    intro count
    induction count with
    | zero => exact fun _ => refl _
    | succ count ih =>
      intro value
      unfold Parser.repeatWhile.iterate
      infer_instance
  unfold Parser.repeatWhile
  infer_instance

instance collectWhile {test test' : Parser Bool} {parser other : Parser α} [test.Outlasts test']
    [parser.Outlasts other] :
    (Parser.collectWhile test parser).Outlasts (Parser.collectWhile test' other) := by
  unfold Parser.collectWhile
  infer_instance

instance recover {parser other : Parser α} [parser.Outlasts other] :
    (Parser.recover parser).Outlasts (Parser.recover other) :=
  ⟨fun stream state =>
    (@tryCatch _ (some <$> parser) (some <$> other) _ inferInstance fun _ _ => rfl).same_or stream state⟩

instance speculate {attempt other : Parser Bool} [attempt.Outlasts other] :
    (Parser.speculate attempt).Outlasts (Parser.speculate other) := by
  refine ⟨fun stream state => ?_⟩
  let kept (parser : Parser Bool) : Parser Bool := do
    let verdict ← parser
    rewind state
    return verdict
  have hkept : (kept attempt).Outlasts (kept other) := by
    unfold kept
    infer_instance
  exact (@tryCatch _ (kept attempt) (kept other) _ hkept fun _ _ => rfl).same_or stream
    { state with log := state.log.mute }

instance items {item other : Parser α} {closer : TokenKind} {commas : Bool} {what : String}
    [item.Outlasts other] :
    (Parser.items item closer commas what).Outlasts (Parser.items other closer commas what) := by
  have hread : ∀ within answers, (Parser.readItem item within what answers).Outlasts
      (Parser.readItem other within what answers) := by
    intro within answers
    unfold Parser.readItem
    have hnone : ∀ found : Option α, (match found with
        | none => do
          synchronize within
          return answers
        | some value => do
          let ended ← Parser.recover (endItem within what)
          if ended.isNone then synchronize within
          return value :: answers : Parser (List α)).Outlasts _ := fun _ => refl _
    exact @bind _ _ _ _ _ _ inferInstance hnone
  have hnext : ∀ within answers, (Parser.nextItem item within what answers).Outlasts
      (Parser.nextItem other within what answers) := by
    intro within answers
    unfold Parser.nextItem
    have := hread within answers
    infer_instance
  unfold Parser.items
  infer_instance

end Parser.Outlasts

namespace Parser

/-! ### Types -/

section

variable {inner inner' : TypeRule → Parser TypeExpr} [∀ rule, (inner rule).Outlasts (inner' rule)]

instance outlasts_roundType : (roundType inner).Outlasts (roundType inner') := by
  unfold roundType
  dsimp only
  infer_instance

instance outlasts_typeAtom : (typeAtom inner).Outlasts (typeAtom inner') := by
  unfold typeAtom
  refine .after fun token => ?_
  split <;> infer_instance

instance outlasts_appliedType : (appliedType inner).Outlasts (appliedType inner') := by
  unfold appliedType
  dsimp only
  infer_instance

instance outlasts_effectEntries : (effectEntries inner).Outlasts (effectEntries inner') := by
  unfold effectEntries
  infer_instance

instance outlasts_effectType : (effectType inner).Outlasts (effectType inner') := by
  unfold effectType
  dsimp only
  infer_instance

instance outlasts_typeApplication : (typeApplication inner).Outlasts (typeApplication inner') := by
  unfold typeApplication
  infer_instance

instance outlasts_arrowType : (arrowType inner).Outlasts (arrowType inner') := by
  unfold arrowType
  dsimp only
  infer_instance

instance outlasts_constraint : (constraint inner).Outlasts (constraint inner') := by
  unfold constraint
  dsimp only
  infer_instance

instance outlasts_context : (context inner).Outlasts (context inner') := by
  unfold context
  infer_instance

instance outlasts_typeExpr : (typeExpr inner).Outlasts (typeExpr inner') := by
  unfold typeExpr
  dsimp only
  infer_instance

end

/-! ### Patterns -/

section

variable {inner inner' : Parser Pattern} [inner.Outlasts inner']

instance outlasts_roundPattern : (roundPattern inner).Outlasts (roundPattern inner') := by
  unfold roundPattern
  dsimp only
  infer_instance

instance outlasts_curlyPattern : (curlyPattern inner).Outlasts (curlyPattern inner') := by
  unfold curlyPattern
  dsimp only
  infer_instance

instance outlasts_recordPatternItem :
    (recordPatternItem inner).Outlasts (recordPatternItem inner') := by
  unfold recordPatternItem
  dsimp only
  infer_instance

instance outlasts_recordPattern (constructor : Token) :
    (recordPattern inner constructor).Outlasts (recordPattern inner' constructor) := by
  unfold recordPattern
  dsimp only
  infer_instance

instance outlasts_patternAtom : (patternAtom inner).Outlasts (patternAtom inner') := by
  unfold patternAtom
  refine .after fun token => ?_
  split <;> infer_instance

instance outlasts_pattern : (pattern inner).Outlasts (pattern inner') := by
  unfold pattern
  infer_instance

end

end Parser

/-! ### Expressions and declarations -/

/-- Parsers of what may be nested, each of which outlasts another one. -/
class Nested.Outlasts (inner other : Nested) : Prop where
  pattern : inner.pattern.Outlasts other.pattern
  patternAtom : inner.patternAtom.Outlasts other.patternAtom
  typeExpr : inner.typeExpr.Outlasts other.typeExpr
  typeAtom : inner.typeAtom.Outlasts other.typeAtom
  context : inner.context.Outlasts other.context
  expression : ∀ minPower, (inner.expression minPower).Outlasts (other.expression minPower)
  operand : inner.operand.Outlasts other.operand
  statement : inner.statement.Outlasts other.statement

attribute [instance] Nested.Outlasts.pattern Nested.Outlasts.patternAtom Nested.Outlasts.typeExpr
  Nested.Outlasts.typeAtom Nested.Outlasts.context Nested.Outlasts.expression Nested.Outlasts.operand
  Nested.Outlasts.statement

namespace Parser

section

variable {inner inner' : Nested} [inner.Outlasts inner']

instance outlasts_recordItem : (recordItem inner).Outlasts (recordItem inner') := by
  unfold recordItem
  dsimp only
  infer_instance

instance outlasts_recordExpr (constructor : Token) :
    (recordExpr inner constructor).Outlasts (recordExpr inner' constructor) := by
  unfold recordExpr
  dsimp only
  infer_instance

instance outlasts_updateFields : (updateFields inner).Outlasts (updateFields inner') := by
  unfold updateFields
  dsimp only
  infer_instance

instance outlasts_patternThenColon :
    (patternThenColon inner).Outlasts (patternThenColon inner') := by
  unfold patternThenColon
  infer_instance

instance outlasts_clausePattern : (clausePattern inner).Outlasts (clausePattern inner') := by
  unfold clausePattern
  infer_instance

instance outlasts_clause : (clause inner).Outlasts (clause inner') := by
  unfold clause
  dsimp only
  infer_instance

instance outlasts_operationClause : (operationClause inner).Outlasts (operationClause inner') := by
  unfold operationClause
  dsimp only
  infer_instance

instance outlasts_lambdaClause : (lambdaClause inner).Outlasts (lambdaClause inner') := by
  unfold lambdaClause
  infer_instance

instance outlasts_clauseSet : (clauseSet inner).Outlasts (clauseSet inner') := by
  unfold clauseSet
  dsimp only
  infer_instance

instance outlasts_block : (block inner).Outlasts (block inner') := by
  unfold block
  dsimp only
  infer_instance

instance outlasts_operatorSection : (operatorSection inner).Outlasts (operatorSection inner') := by
  unfold operatorSection
  dsimp only
  infer_instance

instance outlasts_squareExpr : (squareExpr inner).Outlasts (squareExpr inner') := by
  unfold squareExpr
  refine .after fun stream => .after fun state => ?_
  dsimp only
  split <;> infer_instance

instance outlasts_roundExpr : (roundExpr inner).Outlasts (roundExpr inner') := by
  unfold roundExpr
  dsimp only
  infer_instance

instance outlasts_comprehensionClause :
    (comprehensionClause inner).Outlasts (comprehensionClause inner') := by
  unfold comprehensionClause
  infer_instance

instance outlasts_comprehension (start : Span) :
    (comprehension inner start).Outlasts (comprehension inner' start) := by
  unfold comprehension
  infer_instance

instance outlasts_listExpr (start : Span) :
    (listExpr inner start).Outlasts (listExpr inner' start) := by
  unfold listExpr
  dsimp only
  infer_instance

instance outlasts_curlyExpr : (curlyExpr inner).Outlasts (curlyExpr inner') := by
  unfold curlyExpr
  dsimp only
  infer_instance

instance outlasts_atom : (atom inner).Outlasts (atom inner') := by
  unfold atom
  refine .after fun token => ?_
  split <;> infer_instance

instance outlasts_suffix (target : Expr) :
    (suffix inner target).Outlasts (suffix inner' target) := by
  unfold suffix
  infer_instance

instance outlasts_postfixExpr : (postfixExpr inner).Outlasts (postfixExpr inner') := by
  unfold postfixExpr
  infer_instance

instance outlasts_guardedBranch (start : Span) :
    (guardedBranch inner start).Outlasts (guardedBranch inner' start) := by
  unfold guardedBranch
  infer_instance

instance outlasts_conditional (asStatement : Bool) :
    (conditional inner asStatement).Outlasts (conditional inner' asStatement) := by
  unfold conditional
  dsimp only
  infer_instance

instance outlasts_scrutinee : (scrutinee inner).Outlasts (scrutinee inner') := by
  unfold scrutinee
  infer_instance

instance outlasts_caseExpr : (caseExpr inner).Outlasts (caseExpr inner') := by
  unfold caseExpr
  dsimp only
  infer_instance

instance outlasts_application : (application inner).Outlasts (application inner') := by
  unfold application
  dsimp only
  infer_instance

instance outlasts_operand : (operand inner).Outlasts (operand inner') := by
  unfold operand
  infer_instance

instance outlasts_climb (soFar : Climb) : (climb inner soFar).Outlasts (climb inner' soFar) := by
  unfold climb
  dsimp only
  infer_instance

instance outlasts_expression (minPower : Nat) :
    (expression inner minPower).Outlasts (expression inner' minPower) := by
  unfold expression
  infer_instance

instance outlasts_definitionBody (name : Token) (patterns : List Pattern) :
    (definitionBody inner name patterns).Outlasts (definitionBody inner' name patterns) := by
  unfold definitionBody
  infer_instance

instance outlasts_annotatedDefinition (name : Token) :
    (annotatedDefinition inner name).Outlasts (annotatedDefinition inner' name) := by
  unfold annotatedDefinition
  dsimp only
  infer_instance

instance outlasts_definition : (definition inner).Outlasts (definition inner') := by
  unfold definition
  infer_instance

instance outlasts_pendingAscription :
    (pendingAscription inner).Outlasts (pendingAscription inner') := by
  unfold pendingAscription
  dsimp only
  infer_instance

instance outlasts_fieldSpec : (fieldSpec inner).Outlasts (fieldSpec inner') := by
  unfold fieldSpec
  dsimp only
  infer_instance

instance outlasts_constructorSpec : (constructorSpec inner).Outlasts (constructorSpec inner') := by
  unfold constructorSpec
  infer_instance

instance outlasts_dataItem : (dataItem inner).Outlasts (dataItem inner') := by
  unfold dataItem
  infer_instance

instance outlasts_dataDeclaration : (dataDeclaration inner).Outlasts (dataDeclaration inner') := by
  unfold dataDeclaration
  dsimp only
  infer_instance

instance outlasts_operationSpec : (operationSpec inner).Outlasts (operationSpec inner') := by
  unfold operationSpec
  dsimp only
  infer_instance

instance outlasts_effectDeclaration :
    (effectDeclaration inner).Outlasts (effectDeclaration inner') := by
  unfold effectDeclaration
  dsimp only
  infer_instance

instance outlasts_leadingContext (what : String) :
    (leadingContext inner what).Outlasts (leadingContext inner' what) := by
  unfold leadingContext
  infer_instance

instance outlasts_classMember : (classMember inner).Outlasts (classMember inner') := by
  unfold classMember
  infer_instance

instance outlasts_classDeclaration :
    (classDeclaration inner).Outlasts (classDeclaration inner') := by
  unfold classDeclaration
  dsimp only
  infer_instance

instance outlasts_instanceMember : (instanceMember inner).Outlasts (instanceMember inner') := by
  unfold instanceMember
  dsimp only
  infer_instance

instance outlasts_instanceDeclaration :
    (instanceDeclaration inner).Outlasts (instanceDeclaration inner') := by
  unfold instanceDeclaration
  dsimp only
  infer_instance

instance outlasts_plainStatement (first : Token) :
    (plainStatement inner first).Outlasts (plainStatement inner' first) := by
  unfold plainStatement
  refine .after fun token => ?_
  split <;> infer_instance

instance outlasts_statement : (statement inner).Outlasts (statement inner') := by
  unfold statement
  refine .after fun token => ?_
  split <;> infer_instance

end

/-! ### All productions -/

instance outlasts_typeAt (budget : Nat) :
    ∀ rule, (typeAt budget rule).Outlasts (typeAt (budget + 1) rule) := by
  induction budget with
  | zero => exact fun _ => ⟨fun _ _ => Or.inl rfl⟩
  | succ budget ih =>
    intro rule
    cases rule with
    | type => exact outlasts_typeExpr
    | arrow => exact outlasts_arrowType
    | application => exact outlasts_typeApplication

instance outlasts_patternAt (budget : Nat) :
    (patternAt budget).Outlasts (patternAt (budget + 1)) := by
  induction budget with
  | zero => exact ⟨fun _ _ => Or.inl rfl⟩
  | succ budget ih => exact outlasts_pattern

/-- One level more changes nothing, unless the levels did not suffice. -/
instance outlasts_produce (budget : Nat) :
    ∀ rule, (produce budget rule).Outlasts (produce (budget + 1) rule) := by
  induction budget with
  | zero => exact fun _ => ⟨fun _ _ => Or.inl rfl⟩
  | succ budget ih =>
    have hinner : (Nested.ofRules budget (produce budget)).Outlasts
        (.ofRules (budget + 1) (produce (budget + 1))) :=
      { pattern := outlasts_patternAt budget
        patternAtom := outlasts_patternAtom
        typeExpr := outlasts_typeAt budget .type
        typeAtom := outlasts_typeAtom
        context := outlasts_context
        expression := fun minPower => ih (.expression minPower)
        operand := ih .operand
        statement := ih .statement }
    intro rule
    cases rule with
    | expression minPower => exact outlasts_expression minPower
    | operand => exact outlasts_operand
    | statement => exact outlasts_statement

/-! ### Whole sources -/

/-- Too deep nesting is no answer, so what is answered is answered by what outlasts the parser. -/
theorem whole_of_outlasts {parser other : Parser α} (h : parser.Outlasts other) {stream : TokenStream}
    {state final : ParserState} {value : α} (hrun : whole parser stream state = (.ok value, final)) :
    whole other stream state = (.ok value, final) := by
  have hinside : (do
      let answer ← parser
      skipSeparators false
      if !(← isAt .endOfFile) then unexpected ["end of input"] ""
      return answer).Outlasts (do
      let answer ← other
      skipSeparators false
      if !(← isAt .endOfFile) then unexpected ["end of input"] ""
      return answer) := inferInstance
  unfold whole at hrun ⊢
  rw [bind_apply] at hrun ⊢
  split at hrun
  · next middle _ =>
    unfold boundNesting at hrun ⊢
    rw [tryCatch_apply] at hrun ⊢
    rcases hinside.same_or stream middle with hdeep | hsame
    · split at hrun
      · next hok => rw [hok] at hdeep; cases hdeep
      · next hfailed =>
        rw [hfailed] at hdeep
        cases hdeep
        cases hrun
    · rw [hsame]
      exact hrun
  · cases hrun

/-- What is read of a source within a budget is read within a greater one. -/
theorem parseWhole_of_outlasts {parser other : Parser α} (h : parser.Outlasts other)
    {text file : String} {value : α} (hparse : parseWhole parser text file = .ok value) :
    parseWhole other text file = .ok value := by
  unfold parseWhole runParser at hparse ⊢
  cases hlexes : Token.ofText text file with
  | error => rw [hlexes] at hparse; cases hparse
  | ok tokens =>
    rw [hlexes] at hparse
    dsimp only at hparse ⊢
    cases hstream : TokenStream.ofTokens? tokens with
    | none => rw [hstream] at hparse; cases hparse
    | some stream =>
      rw [hstream] at hparse
      dsimp only at hparse ⊢
      cases hrun : whole parser stream .initial with
      | mk answer final =>
        rw [hrun] at hparse
        cases answer with
        | ok value => rw [whole_of_outlasts h hrun]; exact hparse
        | error abort => cases abort <;> cases hparse

end Parser

end SableFrontend
