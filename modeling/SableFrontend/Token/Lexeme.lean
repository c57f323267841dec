import SableFrontend.Token.Numeral

/-!
Lexemes: what stands at the start of a text, and how far it reaches. Reading one never looks back,
and a lexeme is never empty: `scan` is given its first character and says how many more belong
to it.
-/

namespace SableFrontend

/-- What was found. Whether a line break is a token, and whether a delimiter fits, is decided by
the delimiters that are open, so those are kept apart. -/
inductive Lexeme where
  | lineBreak
  | trivia (kind : TriviaKind)
  | token (kind : TokenKind) (value : String)
  | opener (bracket : Bracket)
  | closer (bracket : Bracket)
  deriving DecidableEq, Repr

/-- A lexeme with the number of characters that follow its first one. -/
structure ScannedLexeme where
  lexeme : Lexeme
  extra : Nat
  deriving DecidableEq, Repr

namespace Lexeme

/-! ### Character classes of lexemes -/

/-- The blank characters that separate tokens on a line. -/
def isBlank (c : Char) : Bool := c == ' ' || c == '\t' || c == '\r'

/-- The characters of operators. -/
def isOperatorChar (c : Char) : Bool := "+-*/%<>=!&|^~$?".toList.contains c

/-- The digits of unicode escapes. -/
def isHexDigit (c : Char) : Bool := Numeral.Radix.hexadecimal.isDigit c

/-- The punctuation marks other than delimiters. -/
def punctuation? (c : Char) : Option TokenKind :=
  if c == ',' then some .comma
  else if c == ':' then some .colon
  else if c == '.' then some .dot
  else if c == '@' then some .atSign
  else if c == ';' then some .semicolon
  else none

/-- The pair that a character opens. -/
def opened? (c : Char) : Option Bracket :=
  if c == '(' then some .round
  else if c == '[' then some .square
  else if c == '\x7b' then some .curly
  else none

/-- The pair that a character closes. -/
def closed? (c : Char) : Option Bracket :=
  if c == ')' then some .round
  else if c == ']' then some .square
  else if c == '\x7d' then some .curly
  else none

/-- The kind of an operator: three spellings have one of their own. -/
def operatorKind (spelling : String) : TokenKind :=
  if spelling == "=" then .assign
  else if spelling == "=!" then .bind
  else if spelling == "|" then .pipe
  else .operator

/-- The kind of a word: reserved, or told by the case of its first letter. -/
def wordKind (word : List Char) : TokenKind :=
  match Keyword.ofSpelling? (String.ofList word) with
  | some reserved => .keyword reserved
  | none => if word.head?.any Text.isUpper then .typeIdentifier else .identifier

/-! ### Comments -/

/-- Exactly three number signs open a block comment. The argument is what follows the first. -/
def opensBlock (rest : List Char) : Bool :=
  rest.take 2 == ['#', '#'] && (rest.drop 2).head? != some '#'

/-- The length of a text up to the end of its first three number signs in a row. -/
def closeOfBlock? : List Char → Option Nat
  | [] => none
  | c :: rest =>
    if c == '#' && rest.take 2 == ['#', '#'] then some 3
    else (closeOfBlock? rest).map (· + 1)

/-- A comment, of which `rest` follows the first number sign. -/
def scanComment (rest : List Char) : Except LexemeFault ScannedLexeme :=
  if opensBlock rest then
    match closeOfBlock? (rest.drop 2) with
    | some length => .ok { lexeme := .trivia .blockComment, extra := length + 2 }
    | none => .error { fault := .unterminatedComment, before := 0, length := 3 }
  else
    .ok { lexeme := .trivia .comment, extra := (rest.takeWhile (· != '\n')).length }

/-! ### Quoted literals -/

/-- The character that a one-letter escape stands for. -/
def simpleEscape? (c : Char) : Option Char :=
  if c == 'n' then some '\n'
  else if c == 't' then some '\t'
  else if c == 'r' then some '\r'
  else if c == '0' then some '\x00'
  else if c == '\\' then some '\\'
  else if c == '"' then some '"'
  else if c == '\'' then some '\''
  else none

/-- The code points that are characters. -/
def isScalar (code : Nat) : Bool := code ≤ 0x10FFFF && !(0xD800 ≤ code && code ≤ 0xDFFF)

/-- An escape by code point, of which `text` follows the opening brace: the character, and how
many characters of `text` belong to the escape. `before` characters of the literal precede the
backslash. -/
def scanCodePoint (before : Nat) (text : List Char) : Except LexemeFault (Char × Nat) :=
  let digits := text.takeWhile isHexDigit
  if (text.drop digits.length).head? != some '\x7d' || digits.length < 1 || 6 < digits.length then
    .error { fault := .malformedUnicodeEscape, before := before, length := digits.length + 3 }
  else
    let code := Numeral.ofDigits 16 digits
    if isScalar code then .ok (Char.ofNat code, digits.length + 1)
    else .error { fault := .notAScalar code, before := before, length := digits.length + 4 }

/-- An escape, of which `rest` follows the backslash: the character, and how many characters of
`rest` belong to the escape. -/
def scanEscape (before : Nat) (rest : List Char) : Except LexemeFault (Char × Nat) :=
  match rest with
  | [] => .error { fault := .unterminatedText, before := 0, length := before + 1 }
  | c :: more =>
    if c == '\n' then .error { fault := .unterminatedText, before := 0, length := before + 1 }
    else
      match simpleEscape? c with
      | some denoted => .ok (denoted, 1)
      | none =>
        if c == 'u' && more.head? == some '\x7b' then
          (scanCodePoint before (more.drop 1)).map fun found => (found.1, found.2 + 2)
        else .error { fault := .unknownEscape c, before := before, length := 2 }

/-- The rest of a string literal of which `read` characters have been read: the text that it
denotes, and the length of the whole literal. -/
def scanTextFrom (read : Nat) (rest : List Char) : Except LexemeFault (List Char × Nat) :=
  match rest with
  | [] => .error { fault := .unterminatedText, before := 0, length := read }
  | c :: more =>
    if c == '\n' then .error { fault := .unterminatedText, before := 0, length := read }
    else if c == '"' then .ok ([], read + 1)
    else if c == '\\' then do
      let (denoted, length) ← scanEscape read more
      let (text, whole) ← scanTextFrom (read + 1 + length) (more.drop length)
      return (denoted :: text, whole)
    else do
      let (text, whole) ← scanTextFrom (read + 1) more
      return (c :: text, whole)
termination_by rest.length
decreasing_by all_goals simp_all; try omega

/-- A string literal, of which `rest` follows the opening quote. -/
def scanText (rest : List Char) : Except LexemeFault ScannedLexeme := do
  let (text, whole) ← scanTextFrom 1 rest
  return { lexeme := .token (.literal .text) (String.ofList text), extra := whole - 1 }

/-- The end of a character literal of which `read` characters have been read. -/
def closeCharacter (c : Char) (read : Nat) (rest : List Char) :
    Except LexemeFault ScannedLexeme :=
  if rest.head? == some '\'' then
    .ok { lexeme := .token (.literal .character) (String.singleton c), extra := read }
  else .error { fault := .unterminatedCharacter, before := 0, length := read }

/-- A character literal, of which `rest` follows the opening quote. -/
def scanCharacter (rest : List Char) : Except LexemeFault ScannedLexeme :=
  match rest with
  | [] => .error { fault := .unterminatedCharacter, before := 0, length := 1 }
  | c :: more =>
    if c == '\n' then .error { fault := .unterminatedCharacter, before := 0, length := 1 }
    else if c == '\'' then .error { fault := .emptyCharacter, before := 0, length := 2 }
    else if c == '\\' then do
      let (denoted, length) ← scanEscape 1 more
      closeCharacter denoted (length + 2) (more.drop length)
    else closeCharacter c 2 more

/-! ### One lexeme -/

/-- A numeral that starts with `first`. -/
def scanNumber (first : Char) (rest : List Char) : Except LexemeFault ScannedLexeme := do
  let text := first :: rest
  let shape ← Numeral.read text
  return {
    lexeme := .token (.literal shape.kind) (String.ofList (text.take shape.length))
    extra := shape.length - 1 }

/-- The longest run of characters of a class, as a lexeme. -/
def scanRun (isMember : Char → Bool) (first : Char) (rest : List Char)
    (lexemeOf : List Char → Lexeme) : ScannedLexeme :=
  let more := rest.takeWhile isMember
  { lexeme := lexemeOf (first :: more), extra := more.length }

/-- A single character that is a lexeme of its own. -/
def scanMark (first : Char) : Except LexemeFault ScannedLexeme :=
  match opened? first, closed? first, punctuation? first with
  | some bracket, _, _ => .ok { lexeme := .opener bracket, extra := 0 }
  | none, some bracket, _ => .ok { lexeme := .closer bracket, extra := 0 }
  | none, none, some kind => .ok { lexeme := .token kind (String.singleton first), extra := 0 }
  | none, none, none => .error { fault := .illegalCharacter first, before := 0, length := 1 }

/-- The lexeme at the start of a text, given as its first character and the rest. -/
def scan (first : Char) (rest : List Char) : Except LexemeFault ScannedLexeme :=
  if first == '\n' then .ok { lexeme := .lineBreak, extra := 0 }
  else if isBlank first then .ok (scanRun isBlank first rest fun _ => .trivia .blank)
  else if first == '#' then scanComment rest
  else if first == '"' then scanText rest
  else if first == '\'' then scanCharacter rest
  else if Text.isDigit first then scanNumber first rest
  else if Text.isWordStart first then
    .ok (scanRun Text.isWordChar first rest fun word => .token (wordKind word) (String.ofList word))
  else if isOperatorChar first then
    .ok (scanRun isOperatorChar first rest fun spelling =>
      .token (operatorKind (String.ofList spelling)) (String.ofList spelling))
  else scanMark first

end Lexeme

end SableFrontend
