import SableFrontend.Text.CharTable

/-!
Character classes of the language. ASCII is decided by rule and everything above it by the
tables, so the common case needs no search and the lemmas about ASCII need no table.
-/

namespace SableFrontend.Text

/-- Upper-case letter of ASCII. -/
def isAsciiUpper (c : Char) : Bool := 'A' ≤ c && c ≤ 'Z'

/-- Lower-case letter of ASCII. -/
def isAsciiLower (c : Char) : Bool := 'a' ≤ c && c ≤ 'z'

/-- Decimal digit of ASCII: the only digits that a number may be written with. -/
def isAsciiDigit (c : Char) : Bool := '0' ≤ c && c ≤ '9'

/-- The characters that the tables do not cover. -/
def isAscii (c : Char) : Bool := c.toNat < 128

/-- A letter of any script, of whatever case or none. -/
def isLetter (c : Char) : Bool :=
  if isAscii c then isAsciiUpper c || isAsciiLower c else inTable letterRuns c.toNat

/-- A digit of any script. Superscript and circled digits count, fractions do not. -/
def isDigit (c : Char) : Bool :=
  if isAscii c then isAsciiDigit c else inTable digitRuns c.toNat

/-- A letter, or a character with a numeric value. -/
def isAlphanumeric (c : Char) : Bool :=
  isLetter c || (if isAscii c then isAsciiDigit c else inTable numericRuns c.toNat)

/-- An upper-case letter. Titlecase letters are not upper case. -/
def isUpper (c : Char) : Bool :=
  if isAscii c then isAsciiUpper c else inTable uppercaseRuns c.toNat

/-- A character that may be shown as itself inside quotes. The space is the one separator that
may. -/
def isPrintable (c : Char) : Bool :=
  if isAscii c then ' ' ≤ c && c ≤ '~' else inTable printableRuns c.toNat

/-- White space of any script, with the four information separators of ASCII. -/
def isSpace (c : Char) : Bool :=
  let n := c.toNat
  (9 ≤ n && n ≤ 13) || (28 ≤ n && n ≤ 32) || n == 0x85 || n == 0xA0 || n == 0x1680 ||
    (0x2000 ≤ n && n ≤ 0x200A) || n == 0x2028 || n == 0x2029 || n == 0x202F || n == 0x205F ||
    n == 0x3000

/-- A character that may continue a word: alphanumeric or the underscore. -/
def isWordChar (c : Char) : Bool := isAlphanumeric c || c == '_'

/-- A character that may open a word: a letter or the underscore. -/
def isWordStart (c : Char) : Bool := isLetter c || c == '_'

theorem isWordChar_of_isWordStart {c : Char} (h : isWordStart c = true) :
    isWordChar c = true := by
  simp only [isWordStart, isWordChar, isAlphanumeric, Bool.or_eq_true] at h ⊢
  exact h.imp_left Or.inl

theorem isAsciiDigit_isAscii {c : Char} (h : isAsciiDigit c = true) : isAscii c = true := by
  simp only [isAsciiDigit, isAscii, Bool.and_eq_true, decide_eq_true_eq] at h ⊢
  exact Nat.lt_of_le_of_lt (show c.toNat ≤ 57 from h.2) (by decide)

end SableFrontend.Text
