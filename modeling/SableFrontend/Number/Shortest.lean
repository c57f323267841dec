import SableFrontend.Number.Binary64

/-!
The shortest decimal text of a floating-point number: as few digits as identify the number among
all of its format, and of those the digits nearest to it. Texts are positional for moderate
exponents and scientific beyond.
-/

namespace SableFrontend.Binary64

/-! ### Shortest digits -/

/-- The significand and the exponent of a finite magnitude. -/
def decompose (magnitude : Nat) : Nat × Int :=
  let field := magnitude / exponentUnit
  let fraction := magnitude % exponentUnit
  if field = 0 then (fraction, -1074) else (fraction + exponentUnit, (field : Int) - 1075)

/-- The numbers that round to a magnitude, in quarters of its last place: the number itself, the
ends of the interval around it, and whether the ends belong to it. -/
structure RoundingInterval where
  low : Nat
  value : Nat
  high : Nat
  closed : Bool
  exponent : Int

/-- The rounding interval of a finite magnitude. Below a power of two the gap is half as wide. -/
def roundingInterval (magnitude : Nat) : RoundingInterval :=
  let (significand, exponent) := decompose magnitude
  let narrow := significand == exponentUnit && exponentUnit < magnitude
  { low := 4 * significand - (if narrow then 1 else 2)
    value := 4 * significand
    high := 4 * significand + 2
    closed := significand % 2 == 0
    exponent := exponent - 2 }

/-- The positive fraction `10 ^ power`. -/
def powerOfTen (power : Int) : Nat × Nat :=
  if 0 ≤ power then (Nat.pow 10 power.toNat, 1) else (1, Nat.pow 10 (-power).toNat)

/-- Two numbers to compare: `quarters` in the units of the interval, and `digits * 10 ^ power`,
brought to one denominator. -/
def onOneScale (exponent : Int) (quarters : Nat) (digits : Nat) (power : Int) : Nat × Nat :=
  let (n, d) := scale quarters 1 exponent
  let (tenN, tenD) := powerOfTen power
  (n * tenD, digits * tenN * d)

/-- Whether `digits * 10 ^ power` rounds to the number of the interval. -/
def RoundingInterval.contains (interval : RoundingInterval) (digits : Nat) (power : Int) : Bool :=
  let (low, x) := onOneScale interval.exponent interval.low digits power
  let (high, y) := onOneScale interval.exponent interval.high digits power
  if interval.closed then low ≤ x && y ≤ high else low < x && y < high

/-- The power of ten just above the number. -/
def RoundingInterval.decimalSize (interval : RoundingInterval) : Int :=
  let guess : Int := (((interval.value.log2 : Int) + interval.exponent) * 30103) / 100000
  let isAbove (power : Int) : Bool :=
    let (value, ten) := onOneScale interval.exponent interval.value 1 power
    value < ten
  if isAbove guess then guess
  else if isAbove (guess + 1) then guess + 1
  else guess + 2

/-- The number with `count` digits that rounds to the interval's number, if there is one: the
nearer of the two neighbours, and of equally near ones the even one. -/
def RoundingInterval.digits? (interval : RoundingInterval) (size : Int) (count : Nat) :
    Option (Nat × Int) :=
  let power := size - (count : Int)
  let (value, unit) := onOneScale interval.exponent interval.value 1 power
  let below := value / unit
  let rest := value % unit
  let lowerFirst := 2 * rest < unit || (2 * rest == unit && below % 2 == 0)
  let candidates := if lowerFirst then [below, below + 1] else [below + 1, below]
  (candidates.find? fun digits => interval.contains digits power).map (·, power)

/-- The shortest digits of a positive finite magnitude, as a whole number and a power of ten. -/
def shortestDigits (magnitude : Nat) : Nat × Int :=
  let interval := roundingInterval magnitude
  let size := interval.decimalSize
  ((List.range 17).findSome? fun k => interval.digits? size (k + 1)).getD (0, 0)

/-! ### Text -/

/-- The exponents that are written positionally: from `minPositional`, below `maxPositional`. -/
def minPositional : Int := -4

/-- The first exponent that is too large to be written positionally. -/
def maxPositional : Int := 16

/-- An exponent with its sign and at least two digits. -/
def exponentText (exponent : Int) : String :=
  let digits := toString exponent.natAbs
  (if exponent < 0 then "-" else "+") ++ (if exponent.natAbs < 10 then "0" ++ digits else digits)

/-- `digits` with the point after the first `point` of them, in positional notation. -/
def positional (digits : List Char) (point : Int) : String :=
  if point ≤ 0 then
    "0." ++ String.ofList (List.replicate (-point).toNat '0' ++ digits)
  else if point < (digits.length : Int) then
    String.ofList (digits.take point.toNat) ++ "." ++ String.ofList (digits.drop point.toNat)
  else
    String.ofList (digits ++ List.replicate (point.toNat - digits.length) '0') ++ ".0"

/-- `digits` with the point after the first, and an exponent. -/
def scientific (digits : List Char) (exponent : Int) : String :=
  match digits with
  | [] => ""
  | [digit] => String.singleton digit ++ "e" ++ exponentText exponent
  | digit :: more =>
    String.singleton digit ++ "." ++ String.ofList more ++ "e" ++ exponentText exponent

/-- The text of a magnitude. -/
def magnitudeText (magnitude : Nat) : String :=
  if magnitude = 0 then "0.0"
  else if magnitude < infinity then
    let (number, power) := shortestDigits magnitude
    let all := Nat.toDigits 10 number
    let point : Int := (all.length : Int) + power
    let digits := (all.reverse.dropWhile (· == '0')).reverse
    if minPositional ≤ point - 1 && point - 1 < maxPositional then positional digits point
    else scientific digits (point - 1)
  else "inf"

/-- The text of a number. -/
def text (x : Binary64) : String :=
  (if x.negative then "-" else "") ++ magnitudeText x.magnitude

end SableFrontend.Binary64
