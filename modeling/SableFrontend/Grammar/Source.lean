import SableFrontend.Grammar.Declaration
import SableFrontend.Token.Lexing

/-!
Whole sources. A module is always answered, however much of it could not be understood: what is
wrong is left among the diagnostics. A single expression or type is answered only if nothing is
wrong with it.
-/

namespace SableFrontend

/-- How many levels deep brackets, prefix operators, right operands and the like may nest. -/
def nestingBudget : Nat := 800

namespace Parser

/-- Reports that the source nests too deeply here. -/
def reportTooDeep : Parser Unit := do
  reportError .unexpectedToken "expression nested too deeply" (← current).span
    ["split the expression into smaller named definitions"]

/-- Turns too deep nesting into a reported failure. -/
def boundNesting {α : Type} (parser : Parser α) : Parser α :=
  tryCatch parser fun abort =>
    match abort with
    | .tooDeep => do
      reportTooDeep
      note .cutShort
      throw .failed
    | other => throw other

/-! ### Modules -/

/-- The name of a module, after its keyword. -/
def moduleHeader : Parser String := do
  let _ ← advance
  let first ← expect .typeIdentifier "as module name"
  let more ← collectWhile (isAt .dot) do
    let _ ← advance
    return (← expect .typeIdentifier "in module name").value
  let kind := (← current).kind
  if !(kind.isSeparator || kind == .endOfFile) then unexpected ["newline"] "after module name"
  return String.intercalate "." (first.value :: more)

/-- The header of a module, if there is one. A faulty one is skipped. -/
def optionalHeader : Parser (Option String) := do
  if ← isAt (.keyword .moduleWord) then
    let name ← recover moduleHeader
    if name.isNone then
      synchronize { first := 0, level := 0, closer := .endOfFile, commas := false }
    return name
  return none

/-- The statements that may stand at the top of a source; each other one is reported. -/
def declarationsOnly (statements : List Statement) : Parser (List Statement) :=
  statements.filterM fun statement =>
    match statement with
    | .item (.bind _ _ span) | .item (.expression _ span) => do
      reportError .unexpectedToken "expressions are not allowed at module level" span
        ["wrap the expression in a definition such as `main = ...`"]
      return false
    | _ => return true

/-- A whole module. -/
def moduleSource : Parser Module := do
  let start := (← current).span
  skipSeparators false
  let name ← optionalHeader
  let groups ← items (boundNesting (produce nestingBudget .statement)) .endOfFile false
    "declaration"
  let statements ← declarationsOnly groups.flatten
  let (found, reported) := Statement.group statements
  reported.forM report
  return {
    name := name
    declarations := found.filterMap Item.declaration?
    span := start.join (← current).span }

/-- A single production with separators around it, up to the end of the source. -/
def whole {α : Type} (parser : Parser α) : Parser α := do
  skipSeparators false
  boundNesting do
    let answer ← parser
    skipSeparators false
    if !(← isAt .endOfFile) then unexpected ["end of input"] ""
    return answer

end Parser

/-! ### Reading sources -/

/-- What parsing a source gave. The module is missing if the source has no tokens. -/
structure ParseResult where
  module? : Option Module
  diagnostics : List Diagnostic
  tokens : Array Token

namespace ParseResult

/-- The diagnostics that are errors. -/
def errors (result : ParseResult) : List Diagnostic := result.diagnostics.filter (·.isError)

/-- Whether there is a module and nothing is wrong with it. -/
def ok (result : ParseResult) : Bool := result.module?.isSome && result.errors.isEmpty

end ParseResult

/-- Runs a parser from the start of a token list. Without a final token there is nothing to run
on. -/
def runParser {α : Type} (parser : Parser α) (tokens : Array Token) :
    Except Abort α × ParserState :=
  match TokenStream.ofTokens? tokens with
  | none => (.error .failed, .initial)
  | some stream => parser stream .initial

/-- Parses a whole source, which messages call `file`. -/
def parseSource (text file : String) : Except OverlongInteger ParseResult :=
  match Token.ofText text file with
  | .error error =>
    .ok { module? := none, diagnostics := [.ofLexError error], tokens := #[] }
  | .ok tokens =>
    match runParser Parser.moduleSource tokens with
    | (.error (.overlongInteger digits), _) => .error { digits := digits }
    | (answer, final) =>
      .ok {
        module? := answer.toOption
        diagnostics := final.log.diagnostics.toList
        tokens := tokens }

/-- Why a source is not a single expression or type. -/
inductive SourceError where
  | lexical (error : LexError)
  | rejected (errors : List Diagnostic)
  | overlong (literal : OverlongInteger)

/-- Parses a source that is a single production. -/
def parseWhole {α : Type} (parser : Parser α) (text file : String) : Except SourceError α :=
  match Token.ofText text file with
  | .error error => .error (.lexical error)
  | .ok tokens =>
    match runParser (Parser.whole parser) tokens with
    | (.error (.overlongInteger digits), _) => .error (.overlong { digits := digits })
    | (answer, final) =>
      let errors := final.log.diagnostics.toList.filter (·.isError)
      match answer with
      | .ok value => if errors.isEmpty then .ok value else .error (.rejected errors)
      | .error _ => .error (.rejected errors)

/-- Parses a source that is a single expression. -/
def parseExpression (text file : String) : Except SourceError Expr :=
  parseWhole (Parser.produce nestingBudget (.expression 0)) text file

/-- Parses a source that is a single type. -/
def parseType (text file : String) : Except SourceError TypeExpr :=
  parseWhole (Parser.typeAt nestingBudget .type) text file

end SableFrontend
