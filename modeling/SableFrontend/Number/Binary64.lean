/-!
Floating-point numbers of 64 bits, as data. A number is its sign and the other 63 bits read as a
natural number, which grows with the absolute value; nothing here depends on the arithmetic of the
machine. The main operation is rounding a decimal number to the nearest of them.
-/

namespace SableFrontend

/-- A 64-bit floating-point number: the sign bit, and the remaining bits as a number. -/
structure Binary64 where
  negative : Bool
  magnitude : Nat
  deriving DecidableEq, Repr

namespace Binary64

/-- The weight of the lowest exponent bit. -/
def exponentUnit : Nat := Nat.pow 2 52

/-- The bits of infinity; smaller magnitudes are finite. -/
def infinity : Nat := 2047 * exponentUnit

/-- All 64 bits as a number. -/
def bits (x : Binary64) : Nat := (if x.negative then Nat.pow 2 63 else 0) + x.magnitude

/-- The opposite number; zero has one, too. -/
def negate (x : Binary64) : Binary64 := { x with negative := !x.negative }

/-- Equality of the numbers denoted: the two zeros are equal. -/
def sameValue (x y : Binary64) : Bool :=
  x.magnitude == y.magnitude && (x.negative == y.negative || x.magnitude == 0)

@[simp] theorem negate_negate (x : Binary64) : x.negate.negate = x := by
  simp [negate]

@[simp] theorem sameValue_self (x : Binary64) : x.sameValue x = true := by
  simp [sameValue]

/-! ### Rounding -/

/-- The quotient rounded to the nearest number, a half to the even one. -/
def roundQuotient (numerator denominator : Nat) : Nat :=
  let quotient := numerator / denominator
  let rest := numerator % denominator
  if denominator < 2 * rest || (2 * rest == denominator && quotient % 2 == 1) then quotient + 1
  else quotient

/-- A fraction times a power of two, as a fraction. -/
def scale (numerator denominator : Nat) (exponent : Int) : Nat × Nat :=
  if 0 ≤ exponent then (numerator * Nat.pow 2 exponent.toNat, denominator)
  else (numerator, denominator * Nat.pow 2 (-exponent).toNat)

/-- The exponent of the last binary place that is kept of a fraction: 53 places where the number
is large enough, and never a place below the smallest number. -/
def lastPlace (numerator denominator : Nat) : Int :=
  let guess : Int := (numerator.log2 : Int) - (denominator.log2 : Int) - 52
  let (n, d) := scale numerator denominator (-guess)
  max (-1074) (if n < d * exponentUnit then guess - 1 else guess)

/-- The magnitude nearest to a positive fraction, a half going to the even one. The exponent field
counts places from the smallest, and the leading bit of a long significand counts into it. -/
def magnitudeOfRatio (numerator denominator : Nat) : Nat :=
  let place := lastPlace numerator denominator
  let (n, d) := scale numerator denominator (-place)
  min infinity ((place + 1074).toNat * exponentUnit + roundQuotient n d)

/-- The magnitude nearest to `digits * 10 ^ exponent`. Numbers far outside the range are settled
before any large power is formed. -/
def magnitudeOfDecimal (digits : Nat) (exponent : Int) : Nat :=
  if digits = 0 then 0
  else
    let size : Int := ((Nat.toDigits 10 digits).length : Int) + exponent
    if 310 < size then infinity
    else if size < -330 then 0
    else if 0 ≤ exponent then magnitudeOfRatio (digits * Nat.pow 10 exponent.toNat) 1
    else magnitudeOfRatio digits (Nat.pow 10 (-exponent).toNat)

/-- The number nearest to `digits * 10 ^ exponent`. -/
def ofDecimal (digits : Nat) (exponent : Int) : Binary64 :=
  { negative := false, magnitude := magnitudeOfDecimal digits exponent }

end Binary64

end SableFrontend
