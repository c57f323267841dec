import SableFrontend.Grammar.Parser
import SableFrontend.Token.Numeral
import SableFrontend.Tree.Pattern

/-!
The grammar of patterns. Each production is given the parser of patterns one level of nesting
further in; `patternAt` ties the knot, on the number of levels that are left.
-/

namespace SableFrontend

/-- The literal that a token denotes. A decimal integer that is too long has none, and the answer
is its number of digits. -/
def Literal.ofToken (token : Token) : Except Nat Literal :=
  match token.kind with
  | .literal .integer =>
    (Numeral.integerValue token.value.toList).map fun value => .integer value token.span
  | .literal .float => .ok (.float (Numeral.floatValue token.value.toList) token.span)
  | .literal .character => .ok (.character token.value token.span)
  | _ => .ok (.text token.value token.span)

namespace Parser

/-- The literal that a token denotes. -/
def literalOf (token : Token) : Parser Literal :=
  match Literal.ofToken token with
  | .ok literal => pure literal
  | .error digits => throw (.overlongInteger digits)

/-- Whether the current token can begin a pattern atom. -/
def startsPatternAtom : Parser Bool := do
  let token ← current
  match token.kind with
  | .literal _ | .identifier | .typeIdentifier | .opener .round | .opener .curly => return true
  | _ => return token.isOperator "-" && (← peek 1).kind.isNumeric

/-- Whether a square bracket touches the current token from behind. -/
def recordBracketFollows : Parser Bool := do
  let next ← peek 1
  return next.kind == .opener .square && (← current).touches next

/-- The number after a minus sign, which has been read. -/
def negativeLiteral (sign : Token) : Parser Pattern := do
  let token ← current
  if !token.kind.isNumeric then unexpected ["numeric literal"] "after `-` in pattern"
  let _ ← advance
  let span := sign.span.join token.span
  return .literal ((← literalOf token).negate.withSpan span) span

/-- A pattern in round brackets, or a tuple. -/
def roundPattern (inner : Parser Pattern) : Parser Pattern := do
  let start := (← advance).span
  if ← isAt (.closer .round) then
    let _ ← advance
    return .tuple [] (← spanFrom start)
  let first ← inner
  if !(← isAt .comma) then
    let _ ← expect (.closer .round) "to close pattern"
    return first
  let more ← collectWhile (isAt .comma) do
    let _ ← advance
    inner
  let _ ← expect (.closer .round) "to close tuple pattern"
  return .tuple (first :: more) (← spanFrom start)

/-- A list in curly brackets: its elements, or its first elements and the rest of it. -/
def curlyPattern (inner : Parser Pattern) : Parser Pattern := do
  let start := (← advance).span
  skipNewlines
  if ← isAt (.closer .curly) then
    let _ ← advance
    return .list [] (← spanFrom start)
  let first ← inner
  skipNewlines
  let more ← collectWhile (isAt .comma) do
    let _ ← advance
    skipNewlines
    let element ← inner
    skipNewlines
    return element
  let elements := first :: more
  if ← isAt .pipe then
    let _ ← advance
    skipNewlines
    let tail ← inner
    skipNewlines
    let _ ← expect (.closer .curly) "to close list pattern"
    let span ← spanFrom start
    return elements.foldr (fun element rest => .listCons element rest span) tail
  let _ ← expect (.closer .curly) "to close list pattern"
  return .list elements (← spanFrom start)

/-- An item of a record pattern: a field, with or without a pattern of its own, or a pattern by
position. -/
def recordPatternItem (inner : Parser Pattern) : Parser (FieldPattern ⊕ Pattern) := do
  let token ← current
  if token.kind == .identifier && token.value != "_" then
    let next := (← peek 1).kind
    if next == .assign then
      let _ ← advance
      let _ ← advance
      skipNewlines
      let pattern ← inner
      return .inl { name := token.value, pattern := some pattern, span := ← spanFrom token.span }
    if next.separates true || next == .closer .square then
      let _ ← advance
      return .inl { name := token.value, pattern := none, span := token.span }
  return .inr (← inner)

/-- The square brackets of a constructor, which has been read. -/
def recordPattern (inner : Parser Pattern) (constructor : Token) : Parser Pattern := do
  let _ ← advance
  let entries ← items (recordPatternItem inner) (.closer .square) true "field pattern"
  let _ ← expect (.closer .square) "to close record pattern"
  let span ← spanFrom constructor.span
  let fields := entries.filterMap Sum.getLeft?
  let arguments := entries.filterMap Sum.getRight?
  match fields, arguments with
  | [], _ => return .constructor constructor.value arguments none span
  | _, [] => return .constructor constructor.value [] (some fields) span
  | _, argument :: _ =>
    reportError .malformedFieldPun
      ("`" ++ constructor.value ++ "[...]` mixes named fields with positional patterns")
      argument.span ["write every field as `name` or `name = pattern`"]
    return .constructor constructor.value [] (some fields) span

/-- A pattern that may stand as an argument. -/
def patternAtom (inner : Parser Pattern) : Parser Pattern := do
  let token ← current
  match token.kind with
  | .identifier =>
    let _ ← advance
    if token.value == "_" then return .wildcard token.span
    return .binding token.value token.span
  | .literal _ =>
    let _ ← advance
    return .literal (← literalOf token) token.span
  | .typeIdentifier =>
    let _ ← advance
    let next ← current
    if next.kind == .opener .square && token.touches next then recordPattern inner token
    else return .constructor token.value [] none token.span
  | .opener .round => roundPattern inner
  | .opener .curly => curlyPattern inner
  | _ =>
    if token.isOperator "-" then
      let _ ← advance
      negativeLiteral token
    else unexpected ["pattern"] ""

/-- A pattern: an atom, or a constructor with atoms as its arguments. -/
def pattern (inner : Parser Pattern) : Parser Pattern := do
  let token ← current
  if token.kind == .typeIdentifier && !(← recordBracketFollows) then
    let _ ← advance
    let arguments ← collectWhile startsPatternAtom (patternAtom inner)
    return .constructor token.value arguments none (← spanFrom token.span)
  patternAtom inner

/-- A pattern that may nest `budget` levels deep. -/
def patternAt : (budget : Nat) → Parser Pattern
  | 0 => throw .tooDeep
  | budget + 1 => pattern (patternAt budget)

end Parser

end SableFrontend
