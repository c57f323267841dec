import SableFrontend.Source.Span

/-!
Tokens. A kind says which class a token belongs to, so the classes that the grammar asks about
(literals, openers, closers, separators) are patterns on the kind. Text that the reader of a
source passes over is kept as trivia: tokens and trivia together cover the whole source.
-/

namespace SableFrontend

/-- The reserved words. -/
inductive Keyword where
  | ifWord
  | elseWord
  | caseWord
  | dataWord
  | effectWord
  | typeclassWord
  | instanceWord
  | forWord
  | inWord
  | moduleWord
  deriving DecidableEq, Repr

/-- The three pairs of delimiters. -/
inductive Bracket where
  | round
  | square
  | curly
  deriving DecidableEq, Repr

/-- The kinds of literal. -/
inductive LiteralKind where
  | integer
  | float
  | text
  | character
  deriving DecidableEq, Repr

/-- The kind of a token. -/
inductive TokenKind where
  | keyword (word : Keyword)
  | literal (kind : LiteralKind)
  | identifier
  | typeIdentifier
  | operator
  | assign
  | bind
  | opener (bracket : Bracket)
  | closer (bracket : Bracket)
  | comma
  | colon
  | pipe
  | dot
  | atSign
  | newline
  | semicolon
  | endOfFile
  deriving DecidableEq, Repr

/-- A token: its kind, its text (of a quoted literal the text it denotes) and its place. -/
structure Token where
  kind : TokenKind
  value : String
  span : Span
  deriving DecidableEq, Repr

/-- The kinds of text that is passed over. -/
inductive TriviaKind where
  | blank
  | newline
  | comment
  | blockComment
  deriving DecidableEq, Repr

/-- Text passed over, with its place. -/
structure Trivia where
  kind : TriviaKind
  span : Span
  deriving DecidableEq, Repr

namespace Keyword

/-- The spelling of a reserved word. -/
def spelling : Keyword → String
  | ifWord => "if"
  | elseWord => "else"
  | caseWord => "case"
  | dataWord => "data"
  | effectWord => "effect"
  | typeclassWord => "typeclass"
  | instanceWord => "instance"
  | forWord => "for"
  | inWord => "in"
  | moduleWord => "module"

/-- Every reserved word. -/
def all : List Keyword :=
  [ifWord, elseWord, caseWord, dataWord, effectWord, typeclassWord, instanceWord, forWord,
    inWord, moduleWord]

/-- The reserved word of that spelling. -/
def ofSpelling? (word : String) : Option Keyword := all.find? (·.spelling == word)

theorem mem_all (word : Keyword) : word ∈ all := by cases word <;> decide

theorem ofSpelling?_spelling (word : Keyword) : ofSpelling? word.spelling = some word := by
  cases word <;> decide

end Keyword

namespace Bracket

/-- The opening delimiter. -/
def openText : Bracket → String
  | round => "("
  | square => "["
  | curly => "\x7b"

/-- The closing delimiter. -/
def closeText : Bracket → String
  | round => ")"
  | square => "]"
  | curly => "\x7d"

/-- Inside round brackets a line break is blank; inside the others it separates items. -/
def keepsNewlines : Bracket → Bool
  | round => false
  | square => true
  | curly => true

end Bracket

namespace TriviaKind

/-- The name of a kind of trivia. -/
def name : TriviaKind → String
  | blank => "whitespace"
  | newline => "newline"
  | comment => "comment"
  | blockComment => "block_comment"

end TriviaKind

namespace TokenKind

/-- The name of a kind in token listings. -/
def name : TokenKind → String
  | keyword .ifWord => "IF"
  | keyword .elseWord => "ELSE"
  | keyword .caseWord => "CASE"
  | keyword .dataWord => "DATA"
  | keyword .effectWord => "EFFECT"
  | keyword .typeclassWord => "TYPECLASS"
  | keyword .instanceWord => "INSTANCE"
  | keyword .forWord => "FOR"
  | keyword .inWord => "IN"
  | keyword .moduleWord => "MODULE"
  | literal .integer => "INTEGER_LIT"
  | literal .float => "FLOAT_LIT"
  | literal .text => "STRING_LIT"
  | literal .character => "CHAR_LIT"
  | identifier => "IDENTIFIER"
  | typeIdentifier => "TYPE_IDENTIFIER"
  | operator => "OPERATOR"
  | assign => "ASSIGN"
  | bind => "BIND"
  | opener .round => "LPAREN"
  | opener .square => "LBRACKET"
  | opener .curly => "LBRACE"
  | closer .round => "RPAREN"
  | closer .square => "RBRACKET"
  | closer .curly => "RBRACE"
  | comma => "COMMA"
  | colon => "COLON"
  | pipe => "PIPE"
  | dot => "DOT"
  | atSign => "AT"
  | newline => "NEWLINE"
  | semicolon => "SEMICOLON"
  | endOfFile => "EOF"

/-- Every kind. -/
def all : List TokenKind :=
  Keyword.all.map keyword ++
    [literal .integer, literal .float, literal .text, literal .character, identifier,
      typeIdentifier, operator, assign, bind, opener .round, closer .round, opener .square,
      closer .square, opener .curly, closer .curly, comma, colon, pipe, dot, atSign, newline,
      semicolon, endOfFile]

/-- The kind of that name. -/
def ofName? (name : String) : Option TokenKind := all.find? (·.name == name)

/-- The separators of items: a line break and the semicolon. -/
def isSeparator : TokenKind → Bool
  | newline | semicolon => true
  | _ => false

/-- The separators of items, the comma included where `commas` is set. -/
def separates (kind : TokenKind) (commas : Bool) : Bool :=
  kind.isSeparator || (commas && kind == comma)

/-- The opening delimiters. -/
def isOpener : TokenKind → Bool
  | opener _ => true
  | _ => false

/-- The closing delimiters. -/
def isCloser : TokenKind → Bool
  | closer _ => true
  | _ => false

/-- The literals. -/
def isLiteral : TokenKind → Bool
  | literal _ => true
  | _ => false

/-- The reserved words. -/
def isKeyword : TokenKind → Bool
  | keyword _ => true
  | _ => false

/-- The literals that denote numbers. -/
def isNumeric : TokenKind → Bool
  | literal .integer | literal .float => true
  | _ => false

/-- What a message calls any token of this kind. -/
def describe : TokenKind → String
  | keyword word => "`" ++ word.spelling ++ "`"
  | literal .integer => "integer literal"
  | literal .float => "float literal"
  | literal .text => "string literal"
  | literal .character => "character literal"
  | identifier => "identifier"
  | typeIdentifier => "type or constructor name"
  | operator => "operator"
  | assign => "`=`"
  | bind => "`=!`"
  | opener bracket => "`" ++ bracket.openText ++ "`"
  | closer bracket => "`" ++ bracket.closeText ++ "`"
  | comma => "`,`"
  | colon => "`:`"
  | pipe => "`|`"
  | dot => "`.`"
  | atSign => "`@`"
  | newline => "newline"
  | semicolon => "`;`"
  | endOfFile => "end of file"

theorem mem_all (kind : TokenKind) : kind ∈ all := by
  cases kind with
  | keyword word => cases word <;> decide
  | literal kind => cases kind <;> decide
  | opener bracket => cases bracket <;> decide
  | closer bracket => cases bracket <;> decide
  | _ => decide

end TokenKind

namespace Token

/-- What a message calls this very token. -/
def describe (token : Token) : String :=
  match token.kind with
  | .newline | .endOfFile | .literal .text | .literal .character => token.kind.describe
  | _ => "`" ++ token.value ++ "`"

/-- Whether no blank and no comment stands between two tokens. -/
def touches (left right : Token) : Bool := left.span.touches right.span

/-- Whether the token is the operator of that spelling. -/
def isOperator (token : Token) (spelling : String) : Bool :=
  token.kind == .operator && token.value == spelling

end Token

end SableFrontend
