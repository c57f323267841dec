import SableFrontend.Grammar.Parser
import SableFrontend.Tree.TypeExpr

/-!
The grammar of types, loosest first:

    type        = [context "=>"] arrow
    context     = constraint | "(" constraint ("," constraint)* ")"
    constraint  = Con atom atom*
    arrow       = application ["->" arrow]
    application = "[" effects "]" [application] | atom atom*
    atom        = var | Con | "(" ")" | "(" type ("," type)* ")"

Each production is given those one level of nesting further in; `typeAt` ties the knot, on the
number of levels that are left.
-/

namespace SableFrontend

/-- The productions of types that others nest. -/
inductive TypeRule where
  | type
  | arrow
  | application
  deriving DecidableEq, Repr

namespace TokenStream

/-- The tokens that cannot stand inside a context. -/
def endsContext : TokenKind → Bool
  | .assign | .bind | .atSign | .comma | .endOfFile => true
  | kind => kind.isSeparator

/-- Whether the sign `=>` stands at this depth from `position` on, before anything that ends a
context. -/
def arrowAhead (stream : TokenStream) (depth position : Nat) : Bool :=
  if position < stream.size then
    let token := stream.token position
    match token.kind with
    | .opener _ => stream.arrowAhead (depth + 1) (position + 1)
    | .closer _ => if depth = 0 then false else stream.arrowAhead (depth - 1) (position + 1)
    | kind =>
      if depth = 0 then
        if token.isOperator "=>" then true
        else if endsContext kind then false
        else stream.arrowAhead depth (position + 1)
      else stream.arrowAhead depth (position + 1)
  else false
termination_by stream.size - position

end TokenStream

namespace Parser

/-- Whether a context with its sign `=>` comes next. -/
def contextAhead : Parser Bool := do return (← read).arrowAhead 0 (← get).position

/-- The kinds that can begin a type atom. -/
def opensTypeAtom : TokenKind → Bool
  | .identifier | .typeIdentifier | .opener .round => true
  | _ => false

/-- Whether the current token can begin a type atom. -/
def startsTypeAtom : Parser Bool := isAtAny opensTypeAtom

section

variable (inner : TypeRule → Parser TypeExpr)

/-- A type in round brackets, or a tuple of types. -/
def roundType : Parser TypeExpr := do
  let start := (← advance).span
  if ← isAt (.closer .round) then
    let _ ← advance
    return .tuple [] (← spanFrom start)
  let first ← inner .type
  if !(← isAt .comma) then
    let _ ← expect (.closer .round) "to close type"
    return first
  let more ← collectWhile (isAt .comma) do
    let _ ← advance
    inner .type
  let _ ← expect (.closer .round) "to close tuple type"
  return .tuple (first :: more) (← spanFrom start)

/-- A type that may stand as an argument. -/
def typeAtom : Parser TypeExpr := do
  let token ← current
  match token.kind with
  | .identifier =>
    let _ ← advance
    return .var token.value token.span
  | .typeIdentifier =>
    let _ ← advance
    return .con token.value token.span
  | .opener .round => roundType inner
  | _ => unexpected ["type"] ""

/-- A type atom applied to any number of others. -/
def appliedType : Parser TypeExpr := do
  let start := (← current).span
  let head ← typeAtom inner
  repeatWhile startsTypeAtom
    (fun function => do
      let argument ← typeAtom inner
      return .app function argument (← spanFrom start))
    head

/-- The entries of an effect list, up to its closing bracket. -/
def effectEntries : Parser (List TypeExpr) := do
  skipNewlines
  if ← isAt (.closer .square) then return []
  let first ← inner .application
  skipNewlines
  let more ← collectWhile (isAt .comma) do
    let _ ← advance
    skipNewlines
    let entry ← inner .application
    skipNewlines
    return entry
  return first :: more

/-- Reports a variable that is not the last entry of an effect list, or a second one. -/
def checkRow (entries : List TypeExpr) : Parser Unit :=
  match entries.filterMap TypeExpr.asRowVariable? with
  | _ :: second :: _ =>
    report {
      Diagnostic.errorAt .invalidEffectRow "an effect list may contain at most one row variable"
        second.span [] [] with
      labels := [.primary second.span "second row variable"] }
  | [row] =>
    if (entries.getLast?.bind TypeExpr.asRowVariable?).isNone then
      reportError .invalidEffectRow
        ("row variable `" ++ row.name ++ "` must be the last entry of the effect list")
        row.span []
    else pure ()
  | [] => pure ()

/-- A list of effects, with the type of the result if one follows. -/
def effectType : Parser TypeExpr := do
  let start := (← advance).span
  let entries ← effectEntries inner
  let _ ← expect (.closer .square) "to close effect list"
  checkRow entries
  let effects := entries.filter fun entry => entry.asRowVariable?.isNone
  let row := (entries.filterMap TypeExpr.asRowVariable?).head?
  let result ← if ← startsTypeAtom then some <$> appliedType inner else pure none
  return .effectful effects row result (← spanFrom start)

/-- An application, or an effectful type. -/
def typeApplication : Parser TypeExpr := do
  if ← isAt (.opener .square) then effectType inner else appliedType inner

/-- A type with at most one arrow outside the nested types; the arrow groups to the right. -/
def arrowType : Parser TypeExpr := do
  let start := (← current).span
  let parameter ← typeApplication inner
  if ← isAtOperator "->" then
    let _ ← advance
    skipNewlines
    let result ← inner .arrow
    return .arrow parameter result (← spanFrom start)
  return parameter

/-- A type class applied to at least one type. -/
def constraint : Parser Constraint := do
  let name ← expect .typeIdentifier "as type class name"
  let arguments ← collectWhile startsTypeAtom (typeAtom inner)
  if arguments.isEmpty then
    unexpected ["type argument"] ("for constraint `" ++ name.value ++ "`")
  return { className := name.value, arguments := arguments, span := ← spanFrom name.span }

/-- One constraint, or several in round brackets. -/
def context : Parser (List Constraint) := do
  if ← isAt (.opener .round) then
    let _ ← advance
    let first ← constraint inner
    let more ← collectWhile (isAt .comma) do
      let _ ← advance
      constraint inner
    let _ ← expect (.closer .round) "to close constraint context"
    return first :: more
  return [← constraint inner]

/-- A type, with its context if it has one. -/
def typeExpr : Parser TypeExpr := do
  let start := (← current).span
  if ← contextAhead then
    let constraints ← context inner
    let _ ← expectOperator "=>" "after constraint context"
    skipNewlines
    let body ← arrowType inner
    return .qualified constraints body (← spanFrom start)
  arrowType inner

end

/-- A type that may nest `budget` levels deep. -/
def typeAt : (budget : Nat) → TypeRule → Parser TypeExpr
  | 0, _ => throw .tooDeep
  | budget + 1, .type => typeExpr (typeAt budget)
  | budget + 1, .arrow => arrowType (typeAt budget)
  | budget + 1, .application => typeApplication (typeAt budget)

end Parser

end SableFrontend
