import SableFrontend.Grammar.History
import SableFrontend.Token.Stream

/-!
Parsers over a token stream. A parser moves a position, reports to a log, and either answers or
gives up; position and log are kept when it gives up, so that whoever takes over knows where it
stopped and what was said. Reading never moves past the last token, which is the end of the file.
-/

namespace SableFrontend

/-- Why a parser gives up: a problem that has been reported, a source nested deeper than the
budget allows, an integer literal with too many digits, or a loop that takes more steps than there
are tokens. Only the first is recovered from inside an item. -/
inductive Abort where
  | failed
  | tooDeep
  | overlongInteger (digits : Nat)
  | endless
  deriving DecidableEq, Repr

/-- Where a parser stands, what has been reported, and what happened before, the latest first. -/
structure ParserState where
  position : Nat
  log : Log
  history : List ParserEvent

/-- Before the first token. -/
def ParserState.initial : ParserState := { position := 0, log := .empty, history := [] }

/-- A parser of `α`. -/
abbrev Parser : Type → Type :=
  ReaderT TokenStream (ExceptT Abort (StateM ParserState))

namespace TokenStream

/-- The first position, from `position` on, whose kind is not in a class. -/
def skipWhile (stream : TokenStream) (isMember : TokenKind → Bool) (position : Nat) : Nat :=
  if position < stream.size then
    if isMember (stream.kind position) then stream.skipWhile isMember (position + 1) else position
  else position
termination_by stream.size - position

/-- The first token from `position` on that no further delimiter encloses and whose kind is a stop
or a separator. The closer of the enclosing group, and the end of the file, stop the search. -/
def firstStop (stream : TokenStream) (stops : TokenKind → Bool) (depth position : Nat) : Token :=
  if position < stream.size then
    match stream.kind position with
    | .endOfFile => stream.token position
    | .closer _ =>
      if depth = 0 then stream.token position
      else stream.firstStop stops (depth - 1) (position + 1)
    | .opener _ => stream.firstStop stops (depth + 1) (position + 1)
    | kind =>
      if depth = 0 ∧ (stops kind || kind.isSeparator) = true then stream.token position
      else stream.firstStop stops depth (position + 1)
  else stream.last
termination_by stream.size - position

theorem le_skipWhile (stream : TokenStream) (isMember : TokenKind → Bool) (position : Nat) :
    position ≤ stream.skipWhile isMember position := by
  fun_induction skipWhile stream isMember position with
  | case1 _ _ _ ih => omega
  | case2 => exact Nat.le_refl _
  | case3 => exact Nat.le_refl _

end TokenStream

namespace Parser

variable {α : Type}

/-! ### Looking -/

/-- The token at the position. -/
def current : Parser Token := do return (← read).token (← get).position

/-- The token `offset` positions further on. -/
def peek (offset : Nat) : Parser Token := do return (← read).token ((← get).position + offset)

/-- The token consumed last; at the start, the first one. -/
def previous : Parser Token := do return (← read).token ((← get).position - 1)

/-- Whether the current token is of a kind. -/
def isAt (kind : TokenKind) : Parser Bool := do return (← current).kind == kind

/-- Whether the kind of the current token is in a class. -/
def isAtAny (isMember : TokenKind → Bool) : Parser Bool := do
  return isMember (← current).kind

/-- Whether the current token is the operator of that spelling. -/
def isAtOperator (spelling : String) : Parser Bool := do
  return (← current).isOperator spelling

/-- The number of delimiters around the current token. -/
def currentDepth : Parser Nat := do return (← read).depth (← get).position

/-- The first stop from the current token on that no further delimiter encloses. -/
def firstStop (stops : TokenKind → Bool) : Parser Token := do
  return (← read).firstStop stops 0 (← get).position

/-- The place from the start of `start` to the end of the token consumed last. -/
def spanFrom (start : Span) : Parser Span := do return start.join (← previous).span

/-! ### Moving -/

/-- Moves to a position. -/
def moveTo (position : Nat) : Parser Unit := modify fun state => { state with position := position }

/-- Consumes the current token; the last one stays. -/
def advance : Parser Token := do
  let stream ← read
  let state ← get
  if state.position + 1 < stream.size then moveTo (state.position + 1)
  return stream.token state.position

/-- Consumes the tokens whose kinds are in a class. -/
def skipWhile (isMember : TokenKind → Bool) : Parser Unit := do
  moveTo ((← read).skipWhile isMember (← get).position)

/-- Consumes line breaks. -/
def skipNewlines : Parser Unit := skipWhile (· == .newline)

/-- Consumes separators. -/
def skipSeparators (commas : Bool) : Parser Unit := skipWhile (·.separates commas)

/-! ### Reporting -/

/-- Adds an event to the history. -/
def note (event : ParserEvent) : Parser Unit :=
  modify fun state => { state with history := event :: state.history }

/-- Reports a diagnostic. -/
def report (diagnostic : Diagnostic) : Parser Unit :=
  modify fun state => { state with log := state.log.report diagnostic }

/-- Reports an error at one place. -/
def reportError (kind : DiagnosticKind) (message : String) (span : Span) (notes : List String) :
    Parser Unit :=
  report (.errorAt kind message span notes [])

/-- Reports an error and gives up. -/
def failWith (kind : DiagnosticKind) (message : String) (span : Span) (notes : List String) :
    Parser α := do
  reportError kind message span notes
  throw .failed

/-- Alternatives in words. -/
def joinExpected (expected : List String) : String :=
  match expected.getLast? with
  | none => ""
  | some last =>
    if expected.length = 1 then last
    else String.intercalate ", " expected.dropLast ++ " or " ++ last

/-- The message about a token that does not fit. -/
def unexpectedMessage (expected : List String) (found : Token) (context : String) : String :=
  let message := "expected " ++ joinExpected expected ++ ", found " ++ found.describe
  if context.isEmpty then message else message ++ " " ++ context

/-- Reports that the current token does not fit, and gives up. -/
def unexpected (expected : List String) (context : String) : Parser α := do
  let token ← current
  report (.errorAt .unexpectedToken (unexpectedMessage expected token context) token.span []
    expected)
  throw .failed

/-- Consumes a token of a kind. -/
def expect (kind : TokenKind) (context : String) : Parser Token := do
  if ← isAt kind then advance else unexpected [kind.describe] context

/-- Consumes the operator of that spelling. -/
def expectOperator (spelling context : String) : Parser Token := do
  if ← isAtOperator spelling then advance else unexpected ["`" ++ spelling ++ "`"] context

/-! ### Repetition -/

/-- Takes a step as long as the test says so. Every step of a grammar consumes a token, so there
are no more steps than tokens; a loop that goes on beyond that has no end. -/
def repeatWhile (test : Parser Bool) (step : α → Parser α) (start : α) : Parser α := do
  iterate (← read).size start
where
  /-- Fewer than `count` steps. -/
  iterate : (count : Nat) → α → Parser α
    | 0, _ => throw .endless
    | count + 1, value => do
      if ← test then iterate count (← step value) else return value

/-- The answers of a parser that is run as long as the test says so. -/
def collectWhile (test : Parser Bool) (parser : Parser α) : Parser (List α) := do
  let reversed ← repeatWhile test (fun answers => do return (← parser) :: answers) []
  return reversed.reverse

/-! ### Attempts and recovery -/

/-- Runs a parser; if it fails, goes on from where it stopped. -/
def recover (parser : Parser α) : Parser (Option α) := do
  let before ← get
  tryCatch (some <$> parser) fun abort =>
    match abort with
    | .failed => do
      let after ← get
      note (.abandoned {
        start := before.position
        stop := after.position
        muted := after.log.muted
        reported := after.log.since before.log })
      return none
    | other => throw other

/-- Goes back to an earlier state, of which only the history is kept. -/
def rewind (saved : ParserState) : Parser Unit :=
  modify fun state => { saved with history := state.history }

/-- The verdict of an attempt that leaves nothing behind: no report, and no move. -/
def speculate (attempt : Parser Bool) : Parser Bool := do
  let saved ← get
  set { saved with log := saved.log.mute }
  tryCatch
    (do
      let verdict ← attempt
      rewind saved
      return verdict)
    fun abort => do
      rewind saved
      match abort with
      | .failed => return false
      | other => throw other

end Parser

/-- The position from which parsing goes on after a failed item: after the next separator at
bracket depth `level`, or at the closer of the enclosing group, or at the end of the file. -/
def TokenStream.resumePosition (stream : TokenStream) (level : Nat) (commas : Bool)
    (position : Nat) : Nat :=
  if position + 1 < stream.size then
    let kind := stream.kind position
    let depth := stream.depth position
    if kind = .endOfFile ∨ depth < level ∨ (depth = level ∧ kind.isCloser = true) then position
    else if depth = level ∧ kind.separates commas = true then position + 1
    else stream.resumePosition level commas (position + 1)
  else position
termination_by stream.size - position

namespace Parser

variable {α : Type}

/-- Skips the rest of a failed item. -/
def synchronize (within : Enclosure) : Parser Unit := do
  let start := (← get).position
  let stop := (← read).resumePosition within.level within.commas start
  moveTo stop
  note (.skipped within start stop)

/-- What may follow an item. -/
def itemEnds (within : Enclosure) : List String :=
  ["newline", "`;`"] ++ (if within.commas then ["`,`"] else []) ++ [within.closer.describe]

/-- Checks that an item has ended: a separator or the closer has to follow. -/
def endItem (within : Enclosure) (what : String) : Parser Unit := do
  let kind := (← current).kind
  if kind == within.closer || kind.separates within.commas then return
  unexpected (itemEnds within) ("after " ++ what)

/-- One item in front of those already read, which stand in reverse order. A failed item is
skipped up to the next separator, and an item after which something else follows is kept. -/
def readItem (item : Parser α) (within : Enclosure) (what : String) (items : List α) :
    Parser (List α) := do
  match ← recover item with
  | none =>
    synchronize within
    return items
  | some value =>
    let ended ← recover (endItem within what)
    if ended.isNone then synchronize within
    return value :: items

/-- One item and the separators after it. -/
def nextItem (item : Parser α) (within : Enclosure) (what : String) (items : List α) :
    Parser (List α) := do
  let start := (← get).position
  let more ← readItem item within what items
  skipSeparators within.commas
  note (.round within start (← get).position)
  return more

/-- Whether another item follows. -/
def startsItem (within : Enclosure) : Parser Bool := do
  return !((← isAt within.closer) || (← isAt .endOfFile))

/-- The enclosure whose first token is the current one. -/
def enclose (closer : TokenKind) (commas : Bool) : Parser Enclosure := do
  return {
    first := (← get).position
    level := ← currentDepth
    closer := closer
    commas := commas }

/-- Items between separators, up to and not including the closer. -/
def items (item : Parser α) (closer : TokenKind) (commas : Bool) (what : String) :
    Parser (List α) := do
  let within ← enclose closer commas
  note (.entered within)
  skipSeparators commas
  let reversed ← repeatWhile (startsItem within) (nextItem item within what) []
  note (.finished within (← get).position)
  return reversed.reverse

end Parser

end SableFrontend
