import SableFrontend.Token.Lexeme

/-!
The tokens of a text. Lexemes are read one after the other, each with its place; a stack of the
delimiters that are open decides whether a line break is a token and which closer fits. Reading
stops at the first fault, and what was read before it is kept.
-/

namespace SableFrontend

/-- What reading a text gave: its tokens, the text passed over, and the fault it stopped at. A
run without a fault ends in the end-of-file token. -/
structure LexRun where
  tokens : Array Token
  trivia : Array Trivia
  error? : Option LexError
  deriving Repr

/-- The tokens of a run that met no fault. -/
def LexRun.toExcept (run : LexRun) : Except LexError (Array Token) :=
  match run.error? with
  | none => .ok run.tokens
  | some error => .error error

/-- A delimiter that is still open. -/
structure OpenBracket where
  bracket : Bracket
  span : Span
  deriving DecidableEq, Repr

/-- How far reading has come; the innermost open delimiter stands first. -/
structure LexState where
  position : Position
  opened : List OpenBracket
  tokens : Array Token
  trivia : Array Trivia

namespace LexState

/-- Before the first character. -/
def initial : LexState :=
  { position := .origin, opened := [], tokens := #[], trivia := #[] }

/-- A line break is a token at the outside and directly inside square and curly brackets. -/
def newlineSignificant (state : LexState) : Bool :=
  match state.opened with
  | [] => true
  | innermost :: _ => innermost.bracket.keepsNewlines

/-- The span of a lexeme that starts where reading has come to. A line break keeps its span on
the line that it ends. -/
def spanOf (file : String) (state : LexState) (lexeme : Lexeme) (text : List Char) : Span :=
  let span := Span.between file state.position (state.position.after text)
  match lexeme with
  | .lineBreak =>
    { span with endLine := state.position.line, endColumn := state.position.column + 1 }
  | _ => span

/-- One more token. -/
def push (state : LexState) (kind : TokenKind) (value : String) (span : Span) : LexState :=
  { state with tokens := state.tokens.push { kind := kind, value := value, span := span } }

/-- One more stretch of text passed over. -/
def skip (state : LexState) (kind : TriviaKind) (span : Span) : LexState :=
  { state with trivia := state.trivia.push { kind := kind, span := span } }

/-- Records a lexeme at its span. A closer has to fit the innermost open delimiter. -/
def record (state : LexState) (lexeme : Lexeme) (span : Span) : Except LexError LexState :=
  match lexeme with
  | .lineBreak =>
    if state.newlineSignificant then .ok (state.push .newline "\n" span)
    else .ok (state.skip .newline span)
  | .trivia kind => .ok (state.skip kind span)
  | .token kind value => .ok (state.push kind value span)
  | .opener bracket =>
    let pushed := state.push (.opener bracket) bracket.openText span
    .ok { pushed with opened := { bracket := bracket, span := span } :: state.opened }
  | .closer bracket =>
    match state.opened with
    | [] => .error { fault := .unmatchedCloser bracket, span := span }
    | innermost :: outer =>
      if innermost.bracket = bracket then
        let pushed := state.push (.closer bracket) bracket.closeText span
        .ok { pushed with opened := outer }
      else
        .error {
          fault := .mismatchedCloser bracket innermost.bracket innermost.span, span := span }

/-- Reads one lexeme, given the text from here on as its first character and the rest. -/
def step (file : String) (state : LexState) (first : Char) (rest : List Char) :
    Except LexError (LexState × Nat) :=
  match Lexeme.scan first rest with
  | .ok scanned =>
    let text := first :: rest.take scanned.extra
    match state.record scanned.lexeme (state.spanOf file scanned.lexeme text) with
    | .ok recorded =>
      .ok ({ recorded with position := state.position.after text }, scanned.extra)
    | .error error => .error error
  | .error found =>
    let text := first :: rest
    let start := state.position.after (text.take found.before)
    let stop := start.after ((text.drop found.before).take found.length)
    .error { fault := found.fault, span := Span.between file start stop }

/-- What was read, up to a fault. -/
def stopAt (state : LexState) (error : LexError) : LexRun :=
  { tokens := state.tokens, trivia := state.trivia, error? := some error }

/-- The end of the text: every delimiter has to be closed. -/
def finish (file : String) (state : LexState) : LexRun :=
  match state.opened with
  | innermost :: _ => state.stopAt { fault := .unclosed innermost.bracket, span := innermost.span }
  | [] =>
    let ended := state.push .endOfFile "" (Span.between file state.position state.position)
    { tokens := ended.tokens, trivia := ended.trivia, error? := none }

/-- Reads the text from here on. -/
def run (file : String) (state : LexState) (text : List Char) : LexRun :=
  match text with
  | [] => state.finish file
  | first :: rest =>
    match state.step file first rest with
    | .ok (next, extra) => run file next (rest.drop extra)
    | .error error => state.stopAt error
termination_by text.length
decreasing_by
  simp only [List.length_cons, List.length_drop]
  omega

end LexState

/-- Reads a whole text, which messages call `file`. -/
def LexRun.ofText (text : String) (file : String) : LexRun :=
  LexState.initial.run file text.toList

/-- The tokens of a text, or the first fault in it. -/
def Token.ofText (text : String) (file : String) : Except LexError (Array Token) :=
  (LexRun.ofText text file).toExcept

end SableFrontend
