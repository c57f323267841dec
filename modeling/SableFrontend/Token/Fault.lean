import SableFrontend.Text.Quoted
import SableFrontend.Token.Basic

/-!
What can be wrong with a text that is to be read as tokens. A fault is a cause; its wording is in
one place, and its place in the text is kept beside it.
-/

namespace SableFrontend

/-- The causes for which a text has no tokens. -/
inductive LexFault where
  | illegalCharacter (c : Char)
  | unterminatedComment
  | unterminatedText
  | unterminatedCharacter
  | emptyCharacter
  | malformedUnicodeEscape
  | notAScalar (code : Nat)
  | unknownEscape (c : Char)
  | missingRadixDigits
  | misplacedUnderscore
  | missingExponentDigits
  | malformedNumber
  | unmatchedCloser (closing : Bracket)
  | mismatchedCloser (closing opened : Bracket) (place : Span)
  | unclosed (opened : Bracket)
  deriving DecidableEq, Repr

namespace LexFault

/-- A number in upper-case hexadecimal digits, without leading zeros. -/
def hexText (n : Nat) : String :=
  String.ofList ((Nat.toDigits 16 n).map Char.toUpper)

/-- The wording of a fault. -/
def message : LexFault → String
  | illegalCharacter c => "illegal character " ++ Text.Quoted.encode (String.singleton c)
  | unterminatedComment => "unterminated block comment"
  | unterminatedText => "unterminated string literal"
  | unterminatedCharacter => "unterminated character literal"
  | emptyCharacter => "empty character literal"
  | malformedUnicodeEscape => "invalid unicode escape; expected \\u\x7bHEX\x7d"
  | notAScalar code => "invalid unicode scalar value U+" ++ hexText code
  | unknownEscape c => "invalid escape sequence: \\" ++ String.singleton c
  | missingRadixDigits => "missing digits after radix prefix"
  | misplacedUnderscore => "misplaced `_` in numeric literal"
  | missingExponentDigits => "missing digits in exponent"
  | malformedNumber => "invalid numeric literal"
  | unmatchedCloser closing => "unmatched closing `" ++ closing.closeText ++ "`"
  | mismatchedCloser closing opened place =>
    "mismatched closing `" ++ closing.closeText ++ "`; `" ++ opened.openText ++ "` opened at " ++
      place.label ++ " is closed by `" ++ opened.closeText ++ "`"
  | unclosed opened => "unclosed `" ++ opened.openText ++ "`"

end LexFault

/-- A fault at its place in the text. -/
structure LexError where
  fault : LexFault
  span : Span
  deriving DecidableEq, Repr

/-- A fault inside one lexeme: how many characters of the lexeme precede the faulty stretch, and
how long the stretch is. -/
structure LexemeFault where
  fault : LexFault
  before : Nat
  length : Nat
  deriving DecidableEq, Repr

end SableFrontend
