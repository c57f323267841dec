import SableFrontend.Number.Binary64
import SableFrontend.Text.CharClass
import SableFrontend.Token.Fault

/-!
Numerals: how a numeric literal is written, and which whole number an integer literal denotes.

A numeral is made of groups of digits, in which single underscores may stand between digits. A
radix is announced by `0x`, `0b` or `0o`; a decimal numeral may have a fraction and an exponent.
-/

namespace SableFrontend.Numeral

/-! ### Digit groups -/

/-- The radixes that a prefix can announce. -/
inductive Radix where
  | hexadecimal
  | binary
  | octal
  deriving DecidableEq, Repr

namespace Radix

/-- The radix that the letter after a leading zero announces. -/
def ofLetter? (c : Char) : Option Radix :=
  if c == 'x' || c == 'X' then some hexadecimal
  else if c == 'b' || c == 'B' then some binary
  else if c == 'o' || c == 'O' then some octal
  else none

/-- The number of digits of a radix. -/
def base : Radix → Nat
  | hexadecimal => 16
  | binary => 2
  | octal => 8

/-- The digits of a radix. -/
def isDigit : Radix → Char → Bool
  | hexadecimal, c => Text.isAsciiDigit c || ('a' ≤ c && c ≤ 'f') || ('A' ≤ c && c ≤ 'F')
  | binary, c => c == '0' || c == '1'
  | octal, c => '0' ≤ c && c ≤ '7'

end Radix

/-- The digits and underscores at the start of a text. -/
def groupOf (isDigit : Char → Bool) (text : List Char) : List Char :=
  text.takeWhile fun c => isDigit c || c == '_'

/-- Whether two underscores stand side by side. -/
def hasDoubleUnderscore : List Char → Bool
  | '_' :: '_' :: _ => true
  | _ :: rest => hasDoubleUnderscore rest
  | [] => false

/-- Whether an underscore stands at an end of a group or beside another one. -/
def isMisgrouped (group : List Char) : Bool :=
  group.head? == some '_' || group.getLast? == some '_' || hasDoubleUnderscore group

/-! ### Malformed numerals -/

/-- How far a malformed numeral runs on: through word characters, and through points that a digit
follows. -/
def junkLength : List Char → Nat
  | [] => 0
  | c :: rest =>
    if Text.isWordChar c then junkLength rest + 1
    else if c == '.' && rest.head?.any Text.isDigit then junkLength rest + 1
    else 0

/-- A fault of the numeral of which `length` characters have been read and `rest` has not. -/
def faultAt (fault : LexFault) (length : Nat) (rest : List Char) : LexemeFault :=
  { fault := fault, before := 0, length := length + junkLength rest }

/-- The end of a numeral: no word character may follow it. -/
def checkEnd (length : Nat) (rest : List Char) : Except LexemeFault Unit :=
  if rest.head?.any Text.isWordChar then .error (faultAt .malformedNumber length rest) else .ok ()

/-- The grouping of the digits read last. -/
def checkGroup (group : List Char) (length : Nat) (rest : List Char) : Except LexemeFault Unit :=
  if isMisgrouped group then .error (faultAt .misplacedUnderscore length rest) else .ok ()

/-! ### Reading a numeral -/

/-- What a numeral looks like: its kind and its length. -/
structure Shape where
  kind : LiteralKind
  length : Nat
  deriving DecidableEq, Repr

/-- A numeral with a radix prefix; `body` is the text after the prefix. -/
def readRadix (radix : Radix) (body : List Char) : Except LexemeFault Shape := do
  let group := groupOf radix.isDigit body
  let length := group.length + 2
  let rest := body.drop group.length
  if group.all (· == '_') then .error (faultAt .missingRadixDigits length rest)
  checkGroup group length rest
  checkEnd length rest
  return { kind := .integer, length := length }

/-- The digits after a point, if the point belongs to the numeral: a digit has to follow it. -/
def fraction? : List Char → Option (List Char)
  | '.' :: rest =>
    if rest.head?.any Text.isDigit then some (groupOf Text.isAsciiDigit rest) else none
  | _ => none

/-- The length of the letter and the sign of an exponent, if one starts here. -/
def exponentMark? : List Char → Option Nat
  | c :: rest =>
    if c == 'e' || c == 'E' then
      some (if rest.head? == some '+' || rest.head? == some '-' then 2 else 1)
    else none
  | [] => none

/-- The fraction at the start of `text`, of a numeral of which `length` characters have been
read: the new kind and length. -/
def readFraction (length : Nat) (text : List Char) : Except LexemeFault Shape :=
  match fraction? text with
  | none => .ok { kind := .integer, length := length }
  | some group => do
    let newLength := length + 1 + group.length
    checkGroup group newLength (text.drop (group.length + 1))
    return { kind := .float, length := newLength }

/-- The exponent at the start of `text`, of a numeral whose shape so far is known. -/
def readExponent (soFar : Shape) (text : List Char) : Except LexemeFault Shape :=
  match exponentMark? text with
  | none => .ok soFar
  | some mark => do
    let digits := text.drop mark
    if !digits.head?.any Text.isDigit then
      .error (faultAt .missingExponentDigits soFar.length text)
    let group := groupOf Text.isAsciiDigit digits
    let newLength := soFar.length + mark + group.length
    checkGroup group newLength (digits.drop group.length)
    return { kind := .float, length := newLength }

/-- A decimal numeral. -/
def readDecimal (text : List Char) : Except LexemeFault Shape := do
  let whole := groupOf Text.isAsciiDigit text
  checkGroup whole whole.length (text.drop whole.length)
  let upToFraction ← readFraction whole.length (text.drop whole.length)
  let shape ← readExponent upToFraction (text.drop upToFraction.length)
  checkEnd shape.length (text.drop shape.length)
  return shape

/-- The numeral at the start of a text that starts with a digit. -/
def read (text : List Char) : Except LexemeFault Shape :=
  match text with
  | '0' :: letter :: body =>
    match Radix.ofLetter? letter with
    | some radix => readRadix radix body
    | none => readDecimal text
  | _ => readDecimal text

/-! ### The number denoted -/

/-- The value of a digit of any radix up to sixteen. -/
def digitValue (c : Char) : Nat :=
  if 'a' ≤ c then c.toNat - 87 else if 'A' ≤ c then c.toNat - 55 else c.toNat - 48

/-- The number that digits denote in a base. -/
def ofDigits (base : Nat) (digits : List Char) : Nat :=
  digits.foldl (fun number c => number * base + digitValue c) 0

/-- The digits of a group, its underscores left out. -/
def digitsOf (group : List Char) : List Char := group.filter (· != '_')

/-- The longest decimal integer literal that is read as a number, counted in digits. -/
def maxDecimalDigits : Nat := 4300

/-- The number that an integer literal denotes. A decimal one must not be longer than
`maxDecimalDigits`; otherwise the answer is its number of digits. -/
def integerValue (text : List Char) : Except Nat Nat :=
  match digitsOf text with
  | '0' :: letter :: body =>
    match Radix.ofLetter? letter with
    | some radix => .ok (ofDigits radix.base body)
    | none => decimalValue ('0' :: letter :: body)
  | digits => decimalValue digits
where
  /-- The number of a decimal literal of bounded length. -/
  decimalValue (digits : List Char) : Except Nat Nat :=
    if digits.length ≤ maxDecimalDigits then .ok (ofDigits 10 digits) else .error digits.length

/-- The exponent of a float literal, of which `text` follows the letter. -/
def exponentValue (text : List Char) : Int :=
  match text with
  | '-' :: digits => -(ofDigits 10 digits : Int)
  | '+' :: digits => (ofDigits 10 digits : Int)
  | digits => (ofDigits 10 digits : Int)

/-- The number that a float literal denotes: its digits as a whole number, times the power of ten
given by the exponent and the number of digits after the point, rounded to the nearest. -/
def floatValue (text : List Char) : Binary64 :=
  let written := digitsOf text
  let isMark (c : Char) : Bool := c == 'e' || c == 'E'
  let significand := written.takeWhile fun c => !isMark c
  let exponent := exponentValue ((written.dropWhile fun c => !isMark c).drop 1)
  let whole := significand.takeWhile (· != '.')
  let fraction := (significand.dropWhile (· != '.')).drop 1
  Binary64.ofDecimal (ofDigits 10 (whole ++ fraction)) (exponent - (fraction.length : Int))

end SableFrontend.Numeral

namespace SableFrontend

/-- A decimal integer with too many digits, which is neither read nor written. -/
structure OverlongInteger where
  digits : Nat
  deriving DecidableEq, Repr

/-- Whether an integer has too many digits to be written. -/
def OverlongInteger.ofInt? (value : Int) : Option OverlongInteger :=
  if value.natAbs < Nat.pow 10 Numeral.maxDecimalDigits then none
  else some { digits := (toString value.natAbs).length }

/-- The wording of the error. -/
def OverlongInteger.message (literal : OverlongInteger) : String :=
  "Exceeds the limit (" ++ toString Numeral.maxDecimalDigits ++
    " digits) for integer string conversion: value has " ++ toString literal.digits ++
    " digits; use sys.set_int_max_str_digits() to increase the limit"

end SableFrontend
