import SableFrontend.Grammar.Nested
import SableFrontend.Grammar.Operator
import SableFrontend.Token.BracketForm

/-!
The grammar of expressions. Binary operators are read by precedence climbing; application is
juxtaposition and binds tighter than any operator. What a pair of square brackets is, is settled
by its form before its content is read.
-/

namespace SableFrontend.Parser

/-! ### Square brackets without clauses or items -/

/-- Gives up on square brackets without a form. -/
def ambiguousBracket : Parser Expr := do
  let token ← current
  let notes :=
    if (← peek 1).kind == .closer .square then
      ["use `\x7b\x7d` for an empty list or `()` for unit"]
    else []
  failWith .ambiguousBracketForm "cannot tell which kind of `[...]` expression this is" token.span
    notes

/-- The fields that an accessor follows one after the other. -/
def accessor : Parser Expr := do
  let start := (← expect (.opener .square) "").span
  skipNewlines
  let path ← collectWhile (isAt .dot) do
    let _ ← advance
    return (← expect .identifier "in field accessor").value
  skipNewlines
  let _ ← expect (.closer .square) "to close field accessor"
  return .accessor path (← spanFrom start)

/-- An operand that is a single token. -/
def tokenOperand : Parser Expr := do
  let token ← current
  match token.kind with
  | .literal _ =>
    let _ ← advance
    return .literal (← literalOf token)
  | .identifier =>
    let _ ← advance
    return .identifier token.value token.span
  | .typeIdentifier =>
    let _ ← advance
    return .constructor token.value token.span
  | _ => unexpected ["expression"] ""

/-- An operator with its left operand. -/
def leftSection : Parser Expr := do
  let start := (← expect (.opener .square) "").span
  let left ← tokenOperand
  let op ← expect .operator ""
  let _ ← expect (.closer .square) "to close operator section"
  return .operatorSection op.value (some left) none (← spanFrom start)

/-! ### Lines of a conditional -/

/-- The tokens that end the part of a statement before its body. -/
def endsStatementHead : TokenKind → Bool
  | .assign | .bind | .atSign => true
  | _ => false

/-- Whether the next line can be another pair of a condition and a branch: it does not begin like
something else, and a colon comes before anything that makes it a statement. -/
def newlineContinuesIf : Parser Bool := do
  let stream ← read
  let next := stream.skipWhile (· == .newline) (← get).position
  let kind := stream.kind next
  if kind.isKeyword || kind.isCloser || kind.isSeparator || endsStatementHead kind ||
      kind == .endOfFile then
    return false
  let stop := stream.firstStop (fun kind => endsStatementHead kind || kind == .colon) 0 next
  return stop.kind == .colon

/-- Whether the next line begins with a token of a kind. -/
def nextLineStartsWith (kind : TokenKind) : Parser Bool := do
  let stream ← read
  return stream.kind (stream.skipWhile (· == .newline) (← get).position) == kind

/-! ### Record fields -/

/-- The fields whose names were given before. -/
def repeatedFields (seen : List String) : List FieldAssign → List FieldAssign
  | [] => []
  | field :: rest =>
    if seen.contains field.name then field :: repeatedFields seen rest
    else repeatedFields (field.name :: seen) rest

/-- Reports each field that is given more than once. -/
def checkRepeatedFields (fields : List FieldAssign) : Parser Unit :=
  (repeatedFields [] fields).forM fun field =>
    reportError .arityMismatch ("field `" ++ field.name ++ "` is given more than once") field.span
      []

/-- The kinds that can begin an argument. -/
def opensArgument : TokenKind → Bool
  | .literal _ | .identifier | .typeIdentifier | .opener _ => true
  | _ => false

/-- Whether an argument comes next. A point before a square bracket begins one only if it does not
touch the token before it. -/
def startsArgument : Parser Bool := do
  let token ← current
  if opensArgument token.kind then return true
  let next ← peek 1
  return token.kind == .dot && next.kind == .opener .square && token.touches next &&
    !(← previous).touches token

/-- Whether a suffix comes next: a point that touches the token before it. -/
def startsSuffix : Parser Bool := do
  let token ← current
  return token.kind == .dot && (← previous).touches token

section

variable (inner : Nested)

/-- An item of a record: a field with its value, a field that takes the value of a variable, or an
argument by position. -/
def recordItem : Parser (FieldAssign ⊕ Expr) := do
  let token ← current
  if token.kind == .identifier then
    let next := (← peek 1).kind
    if next == .assign then
      let _ ← advance
      let _ ← advance
      skipNewlines
      let value ← inner.expression 0
      return .inl { name := token.value, value := some value, span := ← spanFrom token.span }
    if next.separates true || next == .closer .square then
      let _ ← advance
      return .inl { name := token.value, value := none, span := token.span }
  let value ← inner.expression 0
  match value with
  | .field _ name span =>
    reportError .malformedFieldPun "a field pun must be a bare identifier" span
      ["write `" ++ name ++ " = ...` to name the field explicitly"]
    return .inl { name := name, value := some value, span := span }
  | _ => return .inr value

/-- The square brackets of a constructor, which has been read. -/
def recordExpr (constructor : Token) : Parser Expr := do
  let _ ← advance
  let entries ← items (recordItem inner) (.closer .square) true "record field"
  let _ ← expect (.closer .square) "to close record"
  let span ← spanFrom constructor.span
  let fields := entries.filterMap Sum.getLeft?
  let arguments := entries.filterMap Sum.getRight?
  match fields, arguments with
  | [], _ => return .record constructor.value arguments [] span
  | _, [] =>
    checkRepeatedFields fields
    return .record constructor.value [] fields span
  | _, argument :: _ =>
    reportError .malformedFieldPun
      ("`" ++ constructor.value ++ "[...]` mixes named fields with positional arguments")
      argument.span ["write every field as `name` or `name = value`"]
    checkRepeatedFields fields
    return .record constructor.value [] fields span

/-- The field of an entry of a record update; an argument by position is reported. -/
def updateField : FieldAssign ⊕ Expr → Parser (Option FieldAssign)
  | .inl field => return some field
  | .inr value => do
    reportError .malformedFieldPun "record update fields must be `name` or `name = value`"
      value.span []
    return none

/-- The fields of a record update in square brackets. -/
def updateFields : Parser (List FieldAssign) := do
  let _ ← expect (.opener .square) ""
  let entries ← items (recordItem inner) (.closer .square) true "record field"
  let _ ← expect (.closer .square) "to close record update"
  let fields := (← entries.mapM updateField).filterMap id
  checkRepeatedFields fields
  return fields

/-! ### Clauses -/

/-- Whether a pattern with a colon after it comes next. -/
def patternThenColon : Parser Bool :=
  speculate do
    let _ ← inner.pattern
    isAt .colon

/-- One pattern of a clause, with its colon. -/
def clausePattern : Parser Pattern := do
  let pattern ← inner.pattern
  let _ ← expect .colon "after clause pattern"
  skipNewlines
  return pattern

/-- Patterns, each with its colon, and a body. -/
def clause : Parser Clause := do
  let start := (← current).span
  let first ← clausePattern inner
  let more ← collectWhile (patternThenColon inner) (clausePattern inner)
  let body ← inner.expression 0
  return { patterns := first :: more, body := body, span := ← spanFrom start }

/-- An operation with its arguments, the name of its continuation, and a body. -/
def operationClause : Parser HandlerClause := do
  let op ← current
  if !(op.kind == .identifier || op.kind == .typeIdentifier) then
    unexpected ["operation name"] "in handler clause"
  let _ ← advance
  let arguments ← collectWhile (do return !(← isAt .pipe)) inner.patternAtom
  let _ ← advance
  let continuation ← expect .identifier "as continuation name"
  let _ ← expect .colon "after continuation"
  skipNewlines
  let body ← inner.expression 0
  return .operation op.value arguments continuation.value body (← spanFrom op.span)

/-- A clause of a lambda or a handler: a pipe before the first colon marks an operation. -/
def lambdaClause : Parser (Clause ⊕ HandlerClause) := do
  let stop ← firstStop fun kind => kind == .pipe || kind == .colon
  if stop.kind == .pipe then .inr <$> operationClause inner else .inl <$> clause inner

/-- The clause of a handler that a clause is. One for returned values binds exactly one name; any
other is reported and left out. -/
def handlerClause : Clause ⊕ HandlerClause → Parser (Option HandlerClause)
  | .inr operation => return some operation
  | .inl clause =>
    match clause.patterns with
    | [binder] =>
      if binder.isBinder then return some (.returning binder clause.body clause.span)
      else do
        reportError .unexpectedToken "handler return clause must bind a name or `_`" binder.span []
        return none
    | patterns => do
      reportError .arityMismatch
        ("handler return clause takes one pattern, found " ++ toString patterns.length)
        clause.span []
      return none

/-- Clauses in square brackets: a handler if one of them is for an operation, and else a
lambda. -/
def clauseSet : Parser Expr := do
  let start := (← expect (.opener .square) "").span
  let clauses ← items (lambdaClause inner) (.closer .square) false "clause"
  let _ ← expect (.closer .square) "to close lambda"
  let span ← spanFrom start
  if clauses.any Sum.isRight then
    let kept ← clauses.mapM handlerClause
    return .handler (kept.filterMap id) span
  return .lambda (clauses.filterMap Sum.getLeft?) span

/-! ### Blocks and sections -/

/-- The statements before the last one and the last one, if that is an expression. -/
def splitResult? (statements : List Item) : Option (List Item × Expr) :=
  match statements.getLast? with
  | some (.expression value _) => some (statements.dropLast, value)
  | _ => none

/-- Statements in square brackets, of which the last is the value of the block. -/
def block : Parser Expr := do
  let start := (← expect (.opener .square) "").span
  let reportedBefore := (← get).log.count
  let groups ← items inner.statement (.closer .square) false "statement"
  let close ← expect (.closer .square) "to close block"
  let (statements, reported) := Statement.group groups.flatten
  reported.forM report
  match splitResult? statements with
  | none =>
    if (← get).log.count == reportedBefore then
      reportError .unexpectedToken "block must end with an expression" close.span []
    throw .failed
  | some (before, value) =>
    match value with
    | .conditional _ none span =>
      reportError .missingElseBranch
        "`if` producing the value of a block needs an `else` branch" span []
    | _ => pure ()
    return .block before value (← spanFrom start)

/-- An operator, with its right operand if there is one. -/
def operatorSection : Parser Expr := do
  let start := (← expect (.opener .square) "").span
  skipNewlines
  let op ← expect .operator ""
  if ← isAt (.closer .square) then
    let _ ← advance
    return .operatorSection op.value none none (← spanFrom start)
  let right ← inner.expression 0
  skipNewlines
  let _ ← expect (.closer .square) "to close operator section"
  return .operatorSection op.value none (some right) (← spanFrom start)

/-- Square brackets, by their form. -/
def squareExpr : Parser Expr := do
  let form := BracketForm.atIndex (← read).tokens ((← get).position : Int)
  match form with
  | .ok .block => block inner
  | .ok .lambda | .ok .handler => clauseSet inner
  | .ok .operatorSection => operatorSection inner
  | .ok .leftSection => leftSection
  | .ok .accessor => accessor
  | _ => ambiguousBracket

/-! ### Round and curly brackets -/

/-- An expression in round brackets, or a tuple. -/
def roundExpr : Parser Expr := do
  let start := (← advance).span
  if ← isAt (.closer .round) then
    let _ ← advance
    return .tuple [] (← spanFrom start)
  let first ← inner.expression 0
  if !(← isAt .comma) then
    let _ ← expect (.closer .round) "to close parenthesized expression"
    return first
  let more ← collectWhile (isAt .comma) do
    let _ ← advance
    inner.expression 0
  let _ ← expect (.closer .round) "to close tuple"
  return .tuple (first :: more) (← spanFrom start)

/-- A generator or a filter of a comprehension. -/
def comprehensionClause : Parser ComprehensionClause := do
  let token ← advance
  if token.kind == .keyword .forWord then
    let pattern ← inner.pattern
    let _ ← expect (.keyword .inWord) "in generator"
    skipNewlines
    let source ← inner.expression 0
    return .generator pattern source (← spanFrom token.span)
  let condition ← inner.expression 0
  return .filter condition (← spanFrom token.span)

/-- Whether a generator or a filter comes next, line breaks aside. -/
def startsComprehensionClause : Parser Bool := do
  skipNewlines
  let kind := (← current).kind
  return kind == .keyword .forWord || kind == .keyword .ifWord

/-- The clauses and the body of a comprehension, whose opening bracket has been read. -/
def comprehension (start : Span) : Parser Expr := do
  let clauses ← collectWhile startsComprehensionClause (comprehensionClause inner)
  let _ ← expect .colon "before comprehension body"
  skipNewlines
  let body ← inner.expression 0
  skipNewlines
  let _ ← expect (.closer .curly) "to close comprehension"
  return .comprehension clauses body (← spanFrom start)

/-- A list by its elements, or by its first elements and the rest of it. -/
def listExpr (start : Span) : Parser Expr := do
  let first ← inner.expression 0
  skipNewlines
  let more ← collectWhile (isAt .comma) do
    let _ ← advance
    skipNewlines
    let element ← inner.expression 0
    skipNewlines
    return element
  let elements := first :: more
  if ← isAt .pipe then
    let _ ← advance
    skipNewlines
    let tail ← inner.expression 0
    skipNewlines
    let _ ← expect (.closer .curly) "to close list"
    let span ← spanFrom start
    return elements.foldr (fun element rest => .listCons element rest span) tail
  let _ ← expect (.closer .curly) "to close list"
  return .list elements (← spanFrom start)

/-- Curly brackets: a list or a comprehension. -/
def curlyExpr : Parser Expr := do
  let start := (← advance).span
  skipNewlines
  let kind := (← current).kind
  if kind == .closer .curly then
    let _ ← advance
    return .list [] (← spanFrom start)
  if kind == .keyword .forWord || kind == .keyword .ifWord then comprehension inner start
  else listExpr inner start

/-! ### Application -/

/-- An expression that is not an application. -/
def atom : Parser Expr := do
  let token ← current
  match token.kind with
  | .typeIdentifier =>
    let next ← peek 1
    if next.kind == .opener .square && token.touches next then
      let _ ← advance
      recordExpr inner token
    else tokenOperand
  | .opener .round => roundExpr inner
  | .opener .square => squareExpr inner
  | .opener .curly => curlyExpr inner
  | .dot =>
    if (← peek 1).kind == .opener .square then
      let _ ← advance
      let fields ← updateFields inner
      return .recordUpdateLambda fields (← spanFrom token.span)
    else unexpected ["expression"] ""
  | _ => tokenOperand

/-- One suffix: a field, or an update of fields. -/
def suffix (target : Expr) : Parser Expr := do
  let dot ← advance
  let token ← current
  if token.kind == .identifier && dot.touches token then
    let _ ← advance
    return .field target token.value (target.span.join token.span)
  if token.kind == .opener .square && dot.touches token then
    let fields ← updateFields inner
    return .recordUpdate target fields (← spanFrom target.span)
  unexpected ["field name", "`[`"] "after `.`"

/-- An atom with its suffixes. -/
def postfixExpr : Parser Expr := do
  let target ← atom inner
  repeatWhile startsSuffix (suffix inner) target

/-! ### Conditionals and cases -/

/-- A condition, a colon and a branch. -/
def guardedBranch (start : Span) : Parser GuardedBranch := do
  let condition ← inner.expression 0
  let _ ← expect .colon "after `if` condition"
  skipNewlines
  let body ← inner.expression 0
  return { condition := condition, body := body, span := ← spanFrom start }

/-- A conditional. Only as a statement may it lack the last branch. -/
def conditional (asStatement : Bool) : Parser Expr := do
  let start := (← expect (.keyword .ifWord) "").span
  let first ← guardedBranch inner start
  let more ← collectWhile (do return (← isAt .newline) && (← newlineContinuesIf)) do
    skipNewlines
    guardedBranch inner (← current).span
  let branches := first :: more
  if (← isAt (.keyword .elseWord)) ||
      ((← isAt .newline) && (← nextLineStartsWith (.keyword .elseWord))) then
    skipNewlines
    let _ ← advance
    skipNewlines
    let otherwise ← inner.expression 0
    return .conditional branches (some otherwise) (← spanFrom start)
  if !asStatement then
    reportError .missingElseBranch "`if` used as an expression needs a final `else` branch"
      (← spanFrom start) []
  return .conditional branches none (← spanFrom start)

/-- One scrutinee, with its colon. -/
def scrutinee : Parser Expr := do
  let value ← inner.expression 0
  let _ ← expect .colon "after case scrutinee"
  skipNewlines
  return value

/-- Reports a clause that has not one pattern for each scrutinee. -/
def checkArity (scrutinees : Nat) (clause : Clause) : Parser Unit :=
  if clause.patterns.length = scrutinees then pure ()
  else
    reportError .arityMismatch
      ("case clause has " ++ toString clause.patterns.length ++ " pattern(s) but there are " ++
        toString scrutinees ++ " scrutinee(s)")
      clause.span []

/-- Scrutinees and the clauses that they are matched against. -/
def caseExpr : Parser Expr := do
  let start := (← expect (.keyword .caseWord) "").span
  let first ← scrutinee inner
  let more ← collectWhile (do return !(← isAt (.opener .square))) (scrutinee inner)
  let _ ← advance
  let clauses ← items (clause inner) (.closer .square) false "case clause"
  let _ ← expect (.closer .square) "to close case clauses"
  let scrutinees := first :: more
  clauses.forM (checkArity scrutinees.length)
  return .cases scrutinees clauses (← spanFrom start)

/-- A function applied to any number of arguments, a conditional or a case. -/
def application : Parser Expr := do
  let kind := (← current).kind
  if kind == .keyword .ifWord then conditional inner false
  else if kind == .keyword .caseWord then caseExpr inner
  else
    let function ← postfixExpr inner
    repeatWhile startsArgument
      (fun function => do
        let argument ← postfixExpr inner
        return .apply function argument (function.span.join argument.span))
      function

/-! ### Operators -/

/-- An application, with the prefix operators before it. -/
def operand : Parser Expr := do
  let token ← current
  if token.kind == .operator && isPrefixOperator token.value then
    let _ ← advance
    let value ← inner.operand
    return .unary token.value value (token.span.join value.span)
  application inner

/-- Whether an operator comes next that may stand among operators of at least a power. -/
def startsOperator (minPower : Nat) : Parser Bool := do
  let token ← current
  return token.kind == .operator && minPower ≤ (Fixity.ofOperator token.value).leftPower

/-- An expression so far, with the precedence of its last operator if that does not chain. -/
structure Climb where
  left : Expr
  chained : Option Nat

/-- One more operator with its right operand. -/
def climb (soFar : Climb) : Parser Climb := do
  let op ← current
  let fixity := Fixity.ofOperator op.value
  if fixity.associativity == .none && soFar.chained == some fixity.precedence then
    failWith .unexpectedToken
      ("comparison operators cannot be chained; parenthesize before `" ++ op.value ++ "`")
      op.span []
  let _ ← advance
  skipNewlines
  let right ← inner.expression fixity.rightPower
  return {
    left := .binary soFar.left op.value right (soFar.left.span.join right.span)
    chained := if fixity.associativity == .none then some fixity.precedence else none }

/-- Operands joined by binary operators of at least a power. -/
def expression (minPower : Nat) : Parser Expr := do
  let first ← operand inner
  let whole ← repeatWhile (startsOperator minPower) (climb inner)
    { left := first, chained := none }
  return whole.left

end

end SableFrontend.Parser
