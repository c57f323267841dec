import SableFrontend.Token.Lexeme
import SableFrontend.Toml.Value

/-!
The parts of TOML that do not nest: blanks and comments, strings, numbers, dates and times, and
keys. A reader is given the text from here on and answers what it read and what is left.
-/

namespace SableFrontend.Toml

/-- Why a text is not read as a TOML document: it is malformed, it holds a decimal integer with
too many digits, or its values nest too deeply. -/
inductive Fault where
  | malformed
  | overlongInteger (literal : OverlongInteger)
  | tooDeep
  deriving DecidableEq, Repr

/-! ### Blanks and comments -/

/-- The blanks of a line. -/
def isBlank (c : Char) : Bool := c == ' ' || c == '\t'

/-- Blanks and line breaks. -/
def isBlankOrNewline (c : Char) : Bool := isBlank c || c == '\n'

/-- Control characters, of which none but the tabulator may stand in comments and strings. -/
def isControl (c : Char) : Bool := (c.toNat < 32 && c != '\t') || c.toNat == 127

/-- Control characters other than the line break. -/
def isControlInLines (c : Char) : Bool := isControl c && c != '\n'

/-- Drops the blanks at the start of a text. -/
def skipBlanks (text : List Char) : List Char := text.dropWhile isBlank

/-- Drops a comment at the start of a text. -/
def skipComment (text : List Char) : Except Fault (List Char) :=
  match text with
  | '#' :: rest =>
    if (rest.takeWhile (· != '\n')).any isControl then .error .malformed
    else .ok (rest.dropWhile (· != '\n'))
  | _ => .ok text

/-- Drops blanks, line breaks and comments. -/
def skipLayout (text : List Char) : Except Fault (List Char) :=
  match _hdrop : text.dropWhile isBlankOrNewline with
  | '#' :: rest =>
    if (rest.takeWhile (· != '\n')).any isControl then .error .malformed
    else skipLayout (rest.dropWhile (· != '\n'))
  | other => .ok other
termination_by text.length
decreasing_by
  have hlength := (List.dropWhile_suffix (l := text) isBlankOrNewline).length_le
  have hmore := (List.dropWhile_suffix (l := rest) (· != '\n')).length_le
  simp only [_hdrop, List.length_cons] at hlength
  omega

/-! ### Strings -/

/-- The character of a one-letter escape. -/
def escaped? (c : Char) : Option Char :=
  if c == 'b' then some '\x08'
  else if c == 't' then some '\t'
  else if c == 'n' then some '\n'
  else if c == 'f' then some '\x0c'
  else if c == 'r' then some '\r'
  else if c == '"' then some '"'
  else if c == '\\' then some '\\'
  else none

/-- The character of an escape by `count` hexadecimal digits, which `text` begins with. -/
def readCodePoint (count : Nat) (text : List Char) :
    Except Fault (List Char × List Char) :=
  let digits := text.take count
  if digits.length = count ∧ digits.all Lexeme.isHexDigit = true then
    let code := Numeral.ofDigits 16 digits
    if Lexeme.isScalar code then .ok ([Char.ofNat code], text.drop count) else .error .malformed
  else .error .malformed

/-- A line break that a backslash takes out of a multi-line string, with the blanks before it and
all layout after it. At the end of the text nothing is left to take. -/
def skipLineEnd (text : List Char) : Except Fault (List Char × List Char) :=
  match skipBlanks text with
  | [] => .ok ([], [])
  | '\n' :: rest => .ok ([], rest.dropWhile isBlankOrNewline)
  | _ => .error .malformed

/-- What an escape stands for, of which `text` follows the backslash. -/
def readEscape (multiline : Bool) (text : List Char) :
    Except Fault (List Char × List Char) :=
  match text with
  | [] => .error .malformed
  | c :: rest =>
    if multiline && isBlankOrNewline c then skipLineEnd text
    else if c == 'u' then readCodePoint 4 rest
    else if c == 'U' then readCodePoint 8 rest
    else
      match escaped? c with
      | some denoted => .ok ([denoted], rest)
      | none => .error .malformed

/-- The rest of a string in double quotes, up to its end: one quote, or three in a multi-line
string. At most `fuel` characters and escapes are read. -/
def readBasicFrom (multiline : Bool) :
    (fuel : Nat) → List Char → Except Fault (List Char × List Char)
  | 0, _ => .error .malformed
  | _ + 1, [] => .error .malformed
  | fuel + 1, c :: rest =>
    if c == '"' then
      if !multiline then .ok ([], rest)
      else if rest.take 2 == ['"', '"'] then .ok ([], rest.drop 2)
      else (readBasicFrom multiline fuel rest).map fun more => ('"' :: more.1, more.2)
    else if c == '\\' then do
      let (denoted, left) ← readEscape multiline rest
      let (more, left) ← readBasicFrom multiline fuel left
      return (denoted ++ more, left)
    else if (if multiline then isControlInLines c else isControl c) then .error .malformed
    else (readBasicFrom multiline fuel rest).map fun more => (c :: more.1, more.2)

/-- A string in double quotes, whose opening has been read. -/
def readBasic (multiline : Bool) (text : List Char) :
    Except Fault (List Char × List Char) :=
  readBasicFrom multiline (text.length + 1) text

/-- A string in single quotes on one line, whose opening quote has been read. -/
def readLiteral (text : List Char) : Except Fault (List Char × List Char) :=
  let content := text.takeWhile (· != '\'')
  match text.drop content.length with
  | [] => .error .malformed
  | _ :: rest => if content.any isControl then .error .malformed else .ok (content, rest)

/-- The text before the first three single quotes in a row, and what follows them. -/
def splitAtQuotes? : List Char → Option (List Char × List Char)
  | [] => none
  | c :: rest =>
    if c == '\'' && rest.take 2 == ['\'', '\''] then some ([], rest.drop 2)
    else (splitAtQuotes? rest).map fun found => (c :: found.1, found.2)

/-- Up to two more quotes belong to a multi-line string that ends in more than three. -/
def closingQuotes (quote : Char) (content rest : List Char) : List Char × List Char :=
  let extra := ((rest.take 2).takeWhile (· == quote)).length
  (content ++ List.replicate extra quote, rest.drop extra)

/-- A multi-line string, whose three opening quotes have been read. A line break right after them
does not belong to it. -/
def readMultiline (quote : Char) (text : List Char) :
    Except Fault (List Char × List Char) := do
  let text := if text.head? == some '\n' then text.drop 1 else text
  if quote == '"' then
    let (content, rest) ← readBasic true text
    return closingQuotes quote content rest
  else
    match splitAtQuotes? text with
    | none => .error .malformed
    | some (content, rest) =>
      if content.any isControlInLines then .error .malformed
      else return closingQuotes quote content rest

/-- A string, whose first quote has been read. -/
def readString (quote : Char) (rest : List Char) : Except Fault (String × List Char) := do
  let (content, left) ←
    if rest.take 2 == [quote, quote] then readMultiline quote (rest.drop 2)
    else if quote == '"' then readBasic false rest
    else readLiteral rest
  return (String.ofList content, left)

/-! ### Keys -/

/-- The characters of keys without quotes. -/
def isBareKeyChar (c : Char) : Bool :=
  Text.isAsciiUpper c || Text.isAsciiLower c || Text.isAsciiDigit c || c == '-' || c == '_'

/-- One part of a key. -/
def readKeyPart (text : List Char) : Except Fault (String × List Char) :=
  match text with
  | [] => .error .malformed
  | c :: rest =>
    if isBareKeyChar c then
      .ok (String.ofList (text.takeWhile isBareKeyChar), text.dropWhile isBareKeyChar)
    else if c == '\'' then (readLiteral rest).map fun read => (String.ofList read.1, read.2)
    else if c == '"' then (readBasic false rest).map fun read => (String.ofList read.1, read.2)
    else .error .malformed

/-- A key: parts with points between them, and the blanks after it. There are at most `fuel`
parts. -/
def readKeyFrom : (fuel : Nat) → List Char → Except Fault (List String × List Char)
  | 0, _ => .error .malformed
  | fuel + 1, text => do
    let (part, left) ← readKeyPart text
    match skipBlanks left with
    | '.' :: more =>
      let (parts, left) ← readKeyFrom fuel (skipBlanks more)
      return (part :: parts, left)
    | left => return ([part], left)

/-- A key with the blanks after it. -/
def readKey (text : List Char) : Except Fault (List String × List Char) :=
  readKeyFrom (text.length + 1) text

/-! ### Numbers -/

/-- How many characters at the start of a text are digits of a class, with single underscores
between them. -/
def groupLength (isDigit : Char → Bool) : List Char → Nat
  | [] => 0
  | c :: rest =>
    if isDigit c then groupLength isDigit rest + 1
    else if c == '_' && rest.head?.any isDigit then
      match rest with
      | [] => 0
      | _ :: more => groupLength isDigit more + 2
    else 0

/-- The length of digits at the start of a text, of which the first is no underscore. -/
def digits? (isDigit : Char → Bool) (text : List Char) : Option Nat :=
  if text.head?.any isDigit then some (groupLength isDigit text) else none

/-- An integer with a radix prefix: its radix and its length. -/
def radixInteger? : List Char → Option (Numeral.Radix × Nat)
  | '0' :: letter :: rest =>
    if letter == 'x' || letter == 'b' || letter == 'o' then do
      let radix ← Numeral.Radix.ofLetter? letter
      let length ← digits? radix.isDigit rest
      return (radix, length + 2)
    else none
  | _ => none

/-- The length of a sign. -/
def signLength : List Char → Nat
  | '+' :: _ | '-' :: _ => 1
  | _ => 0

/-- The length of the whole part of a decimal number: a zero alone, or digits without a leading
zero. -/
def wholeLength? (text : List Char) : Option Nat :=
  match text with
  | '0' :: _ => some 1
  | _ => digits? Text.isAsciiDigit text

/-- The length of a fraction, or zero. -/
def fractionLength : List Char → Nat
  | '.' :: rest => ((digits? Text.isAsciiDigit rest).map (· + 1)).getD 0
  | _ => 0

/-- The length of an exponent, or zero. -/
def exponentLength : List Char → Nat
  | c :: rest =>
    if c == 'e' || c == 'E' then
      let sign := signLength rest
      ((digits? Text.isAsciiDigit (rest.drop sign)).map (· + (sign + 1))).getD 0
    else 0
  | [] => 0

/-- The value of a number without its sign, and whether it has one that is negative. -/
def decimalValue (negative : Bool) (isFloat : Bool) (text : List Char) : Except Fault Value :=
  if isFloat then
    let value := Numeral.floatValue text
    .ok (.float (if negative then value.negate else value))
  else
    let digits := Numeral.digitsOf text
    if digits.length ≤ Numeral.maxDecimalDigits then
      let value : Int := Numeral.ofDigits 10 digits
      .ok (.integer (if negative then -value else value))
    else .error (.overlongInteger { digits := digits.length })

/-- A number at the start of a text, if there is one. -/
def number? (text : List Char) : Option (Except Fault (Value × List Char)) :=
  match radixInteger? text with
  | some (radix, length) =>
    let digits := Numeral.digitsOf ((text.take length).drop 2)
    some (.ok (.integer (Numeral.ofDigits radix.base digits), text.drop length))
  | none =>
    let sign := signLength text
    let unsigned := text.drop sign
    (wholeLength? unsigned).map fun whole =>
      let fraction := fractionLength (unsigned.drop whole)
      let exponent := exponentLength (unsigned.drop (whole + fraction))
      let length := whole + fraction + exponent
      (decimalValue (text.head? == some '-') (0 < fraction + exponent) (unsigned.take length)).map
        fun value => (value, unsigned.drop length)

/-- The numbers that are written as words. -/
def specialFloat? (text : List Char) : Option (Except Fault (Value × List Char)) :=
  let sign := signLength text
  let word := (text.drop sign).take 3
  if word == ['i', 'n', 'f'] then
    some (.ok (.float ⟨text.head? == some '-', Binary64.infinity⟩, text.drop (sign + 3)))
  else if word == ['n', 'a', 'n'] then some (.ok (.notANumber, text.drop (sign + 3)))
  else none

/-! ### Dates and times -/

/-- A number of exactly `count` digits between two bounds. -/
def field? (count low high : Nat) (text : List Char) : Option (Nat × List Char) :=
  let digits := text.take count
  let value := Numeral.ofDigits 10 digits
  if digits.length = count ∧ digits.all Text.isAsciiDigit = true ∧ low ≤ value ∧ value ≤ high then
    some (value, text.drop count)
  else none

/-- The rest of a text after a given character. -/
def after? (c : Char) : List Char → Option (List Char)
  | d :: rest => if d == c then some rest else none
  | [] => none

/-- A fraction of a second in millionths; further digits do not count. -/
def microseconds (digits : List Char) : Nat :=
  Numeral.ofDigits 10 ((digits ++ List.replicate 6 '0').take 6)

/-- A time of day at the start of a text. -/
def time? (text : List Char) : Option (TimeOfDay × List Char) := do
  let (hour, left) ← field? 2 0 23 text
  let (minute, left) ← field? 2 0 59 (← after? ':' left)
  let (second, left) ← field? 2 0 59 (← after? ':' left)
  let digits :=
    match left with
    | '.' :: rest => rest.takeWhile Text.isAsciiDigit
    | _ => []
  return (⟨hour, minute, second, microseconds digits⟩,
    if digits.isEmpty then left else left.drop (digits.length + 1))

/-- A distance from universal time in minutes, if one is given. -/
def offset? (text : List Char) : Option (Int × List Char) :=
  match text with
  | 'Z' :: rest | 'z' :: rest => some (0, rest)
  | sign :: rest =>
    if sign == '+' || sign == '-' then do
      let (hour, left) ← field? 2 0 23 rest
      let (minute, left) ← field? 2 0 59 (← after? ':' left)
      let distance : Int := hour * 60 + minute
      return (if sign == '-' then -distance else distance, left)
    else none
  | [] => none

/-- A date at the start of a text. -/
def date? (text : List Char) : Option (Date × List Char) := do
  let (year, left) ← field? 4 0 9999 text
  let (month, left) ← field? 2 1 12 (← after? '-' left)
  let (day, left) ← field? 2 1 31 (← after? '-' left)
  return (⟨year, month, day⟩, left)

/-- The time of day after a date, if there is one. -/
def timeAfterDate? (text : List Char) : Option (TimeOfDay × List Char) :=
  match text with
  | separator :: rest =>
    if separator == 'T' || separator == 't' || separator == ' ' then time? rest else none
  | [] => none

/-- A date with what follows it: a time of day, which may have an offset, or nothing. -/
def withDate (date : Date) (text : List Char) : Moment × List Char :=
  match timeAfterDate? text with
  | none => (.date date, text)
  | some (time, left) =>
    match offset? left with
    | none => (.dateTime date time none, left)
    | some (offset, left) => (.dateTime date time (some offset), left)

/-- A date or a time at the start of a text, if there is one. The day has to exist. -/
def moment? (text : List Char) : Option (Except Fault (Value × List Char)) :=
  match date? text with
  | some (date, left) =>
    let (moment, left) := withDate date left
    some (if date.isReal then .ok (.moment moment, left) else .error .malformed)
  | none => (time? text).map fun (time, left) => .ok (.moment (.time time), left)

end SableFrontend.Toml
