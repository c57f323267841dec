import SableFrontend.Token.Lexeme

/-!
Highlighting rules. A rule recognises a stretch at the start of a text and gives it a category.
The rules of a state are tried in order and the first that applies wins, so an early rule may take
text that a later one would divide otherwise.
-/

namespace SableFrontend.Highlight

/-- The categories of highlighted text. -/
inductive Category where
  | text
  | lineEnd
  | multilineComment
  | lineComment
  | string
  | stringEscape
  | character
  | hexadecimal
  | binary
  | octal
  | float
  | integer
  | declarationKeyword
  | keyword
  | pseudoKeyword
  | operator
  | className
  | clauseHead
  | name
  | punctuation
  | error
  deriving DecidableEq, Repr

namespace Category

/-- The dotted name of a category. -/
def dottedName : Category → String
  | text => "Text"
  | lineEnd => "Text.Whitespace"
  | multilineComment => "Comment.Multiline"
  | lineComment => "Comment.Single"
  | string => "Literal.String"
  | stringEscape => "Literal.String.Escape"
  | character => "Literal.String.Char"
  | hexadecimal => "Literal.Number.Hex"
  | binary => "Literal.Number.Bin"
  | octal => "Literal.Number.Oct"
  | float => "Literal.Number.Float"
  | integer => "Literal.Number.Integer"
  | declarationKeyword => "Keyword.Declaration"
  | keyword => "Keyword"
  | pseudoKeyword => "Keyword.Pseudo"
  | operator => "Operator"
  | className => "Name.Class"
  | clauseHead => "Name.Variable"
  | name => "Name"
  | punctuation => "Punctuation"
  | error => "Error"

/-- Whether a category is one of comments. -/
def isComment : Category → Bool
  | multilineComment | lineComment => true
  | _ => false

/-- Whether a category is one of string and character literals. -/
def isQuoted : Category → Bool
  | string | stringEscape | character => true
  | _ => false

/-- Whether a category is one of reserved words. -/
def isReserved : Category → Bool
  | declarationKeyword | keyword => true
  | _ => false

end Category

/-- A recogniser: given the character before a text, how many characters at its start belong to a
stretch, if there is one. -/
abbrev Recognizer : Type := Option Char → List Char → Option Nat

/-! ### Recognisers -/

/-- A character of a class, and as many more of a second class as follow. -/
def run? (isFirst isMore : Char → Bool) : List Char → Option Nat
  | [] => none
  | c :: rest => if isFirst c then some ((rest.takeWhile isMore).length + 1) else none

/-- A given text. -/
def literal? (spelling : String) (text : List Char) : Option Nat :=
  if spelling.toList.isPrefixOf text then some spelling.length else none

/-- ASCII digits and underscores, beginning with a digit. -/
def digits? : List Char → Option Nat :=
  run? Text.isAsciiDigit fun c => Text.isAsciiDigit c || c == '_'

/-- A block comment: opened by exactly three number signs, up to the next three. -/
def blockComment? : List Char → Option Nat
  | '#' :: rest =>
    if Lexeme.opensBlock rest then (Lexeme.closeOfBlock? (rest.drop 2)).map (· + 3) else none
  | _ => none

/-- A number sign and the rest of its line. -/
def lineComment? : List Char → Option Nat :=
  run? (· == '#') (· != '\n')

/-- An escape by code point: one to six hexadecimal digits in braces. -/
def codePointEscape? : List Char → Option Nat
  | '\\' :: 'u' :: '\x7b' :: rest =>
    let count := ((rest.take 6).takeWhile Lexeme.isHexDigit).length
    if 0 < count && (rest.drop count).head? == some '\x7d' then some (count + 4) else none
  | _ => none

/-- An escape by one letter. -/
def letterEscape? : List Char → Option Nat
  | '\\' :: c :: _ => if (Lexeme.simpleEscape? c).isSome then some 2 else none
  | _ => none

/-- A character literal. Any character but the quote and the backslash may stand in it. -/
def character? : List Char → Option Nat
  | '\'' :: rest =>
    let length? :=
      match rest with
      | '\\' :: _ => (codePointEscape? rest).or (letterEscape? rest)
      | c :: _ => if c == '\'' then none else some 1
      | [] => none
    length?.bind fun length =>
      if (rest.drop length).head? == some '\'' then some (length + 2) else none
  | _ => none

/-- A numeral with a radix prefix. -/
def radix? (letter : Char) (radix : Numeral.Radix) : List Char → Option Nat
  | '0' :: c :: rest =>
    if c == letter || c == letter.toUpper then
      (run? radix.isDigit (fun c => radix.isDigit c || c == '_') rest).map (· + 2)
    else none
  | _ => none

/-- A point with digits after it. -/
def fraction? : List Char → Option Nat
  | '.' :: rest => (digits? rest).map (· + 1)
  | _ => none

/-- The letter of an exponent, a sign if there is one, and digits. -/
def exponent? : List Char → Option Nat
  | c :: rest =>
    if c == 'e' || c == 'E' then
      let sign := if rest.head? == some '+' || rest.head? == some '-' then 1 else 0
      (digits? (rest.drop sign)).map (· + (sign + 1))
    else none
  | [] => none

/-- Digits, a fraction if there is one, and an exponent. -/
def scientific? (text : List Char) : Option Nat := do
  let whole ← digits? text
  let fraction := (fraction? (text.drop whole)).getD 0
  let exponent ← exponent? (text.drop (whole + fraction))
  return whole + fraction + exponent

/-- Digits and a fraction. -/
def decimal? (text : List Char) : Option Nat := do
  let whole ← digits? text
  let fraction ← fraction? (text.drop whole)
  return whole + fraction

/-- A reserved word of a class, as a word of its own. -/
def reserved? (isMember : Keyword → Bool) (before : Option Char) (text : List Char) : Option Nat :=
  if before.any Text.isWordChar then none
  else
    (Keyword.all.find? fun word =>
      isMember word && word.spelling.toList.isPrefixOf text &&
        !(text.drop word.spelling.length).head?.any Text.isWordChar).map (·.spelling.length)

/-- Words that begin declarations. -/
def isDeclarationWord : Keyword → Bool
  | .dataWord | .effectWord | .typeclassWord | .instanceWord | .moduleWord => true
  | _ => false

/-- Two operator characters or more. -/
def longOperator? (text : List Char) : Option Nat :=
  let length := (text.takeWhile Lexeme.isOperatorChar).length
  if 2 ≤ length then some length else none

/-- An operator character that is one by itself; the pipe is left to punctuation. -/
def shortOperator? : List Char → Option Nat :=
  run? (fun c => Lexeme.isOperatorChar c && c != '|') fun _ => false

/-- The characters of names, which are ASCII only. -/
def isNameChar (c : Char) : Bool :=
  Text.isAsciiUpper c || Text.isAsciiLower c || Text.isAsciiDigit c || c == '_'

/-- A name that begins with a lower-case letter or an underscore. -/
def name? : List Char → Option Nat :=
  run? (fun c => Text.isAsciiLower c || c == '_') isNameChar

/-- A name that begins with an upper-case letter. -/
def className? : List Char → Option Nat := run? Text.isAsciiUpper isNameChar

/-- A name with a colon after it, white space aside. -/
def clauseHead? (text : List Char) : Option Nat :=
  (name? text).filter fun length =>
    ((text.drop length).dropWhile Text.isSpace).head? == some ':'

/-- A single punctuation mark. -/
def punctuation? : List Char → Option Nat :=
  run? (fun c => "(),;.[]\x7b\x7d:|".toList.contains c) fun _ => false

/-! ### Rules -/

/-- What highlighting is inside of. -/
inductive State where
  | root
  | string
  deriving DecidableEq, Repr

/-- A recogniser with the category of what it recognises and the state after it. -/
structure Rule where
  recognize : Recognizer
  category : Category
  next : State

/-- A rule that does not look back and stays in its state. -/
def Rule.plain (recognize : List Char → Option Nat) (category : Category) (state : State) : Rule :=
  { recognize := fun _ => recognize, category := category, next := state }

/-- The rules outside string literals. -/
def rootRules : List Rule := [
  .plain (run? Text.isSpace Text.isSpace) .text .root,
  .plain blockComment? .multilineComment .root,
  .plain lineComment? .lineComment .root,
  .plain (literal? "\"") .string .string,
  .plain character? .character .root,
  .plain (radix? 'x' .hexadecimal) .hexadecimal .root,
  .plain (radix? 'b' .binary) .binary .root,
  .plain (radix? 'o' .octal) .octal .root,
  .plain scientific? .float .root,
  .plain decimal? .float .root,
  .plain digits? .integer .root,
  { recognize := reserved? isDeclarationWord, category := .declarationKeyword, next := .root },
  { recognize := reserved? (!isDeclarationWord ·), category := .keyword, next := .root },
  .plain (literal? "@") .pseudoKeyword .root,
  .plain (literal? "=!") .pseudoKeyword .root,
  .plain longOperator? .operator .root,
  .plain shortOperator? .operator .root,
  .plain className? .className .root,
  .plain clauseHead? .clauseHead .root,
  .plain name? .name .root,
  .plain punctuation? .punctuation .root]

/-- The rules inside a string literal. -/
def stringRules : List Rule := [
  .plain codePointEscape? .stringEscape .string,
  .plain letterEscape? .stringEscape .string,
  .plain
    (run? (fun c => c != '"' && c != '\\' && c != '\n') fun c => c != '"' && c != '\\' && c != '\n')
    .string .string,
  .plain (literal? "\"") .string .root]

/-- The rules of a state. -/
def State.rules : State → List Rule
  | root => rootRules
  | string => stringRules

end SableFrontend.Highlight
