import ShellExpr.Double.Parts

/-!
# The written form of reals

A real is written with the fewest digits that read back to it.  From 10 ^ 16 on and below
10 ^ -4 it has an exponent, in between it has a point and at least one digit on both sides of it.
-/

namespace ShellExpr.Double

/-! ### The fewest digits that read back

The decimals that read back to the double `m · 2 ^ q` fill an interval around it, whose ends lie
half way to the neighbouring doubles and belong to it when `m` is even.  For one digit, two
digits and so on, the two decimals next to the double are tried; the first grid with a hit gives
the digits, and of two hits the nearer one.  If any decimal of a grid lies in the interval then
so does one of the two next to the double, so no shorter decimal reads back. -/

/-- The decimal `digits · 10 ^ exponent`. -/
structure Decimal where
  digits : Nat
  exponent : Int
deriving DecidableEq, Repr

/-- The interval of the numbers that read back to a double, in quarters of its last place:
`low`, `value` and `high` times `scale`. -/
structure Interval where
  low : Nat
  value : Nat
  high : Nat
  closed : Bool

/-- The interval around `mantissa · 2 ^ exponent`.  Below a power of two the doubles lie twice as
close together, so the lower end is nearer there. -/
def Interval.around (mantissa : Nat) (exponent : Int) : Interval where
  low := 4 * mantissa - (if mantissa = Nat.pow 2 52 ∧ -1074 < exponent then 1 else 2)
  value := 4 * mantissa
  high := 4 * mantissa + 2
  closed := mantissa % 2 == 0

/-- Numerator and denominator of `n · 2 ^ exponent / 10 ^ place`. -/
def onGrid (n : Nat) (exponent place : Int) : Nat × Nat :=
  (n * Nat.pow 2 exponent.toNat * Nat.pow 10 (-place).toNat,
    Nat.pow 2 (-exponent).toNat * Nat.pow 10 place.toNat)

/-- The place of the leading digit of `n · 2 ^ exponent`, for a positive `n`. -/
def leadingPlace (n : Nat) (exponent : Int) : Int :=
  let (top, bottom) := onGrid n exponent (-400)
  (Nat.toDigits 10 (top / bottom)).length - 401

/-- The better of the two decimals next to the double on the grid of `place`, if one of them
reads back.  Of two that are equally near it is the upper one. -/
def nearestOnGrid (interval : Interval) (exponent place : Int) : Option Nat :=
  let (value, unit) := onGrid interval.value exponent place
  let (low, _) := onGrid interval.low exponent place
  let (high, _) := onGrid interval.high exponent place
  let below := value / unit
  let above := below + 1
  let belowHits := low < below * unit || (interval.closed && low == below * unit)
  let aboveHits := above * unit < high || (interval.closed && high == above * unit)
  match belowHits, aboveHits with
  | true, true => some (if value - below * unit < above * unit - value then below else above)
  | true, false => some below
  | false, true => some above
  | false, false => none

/-- A decimal without zeros at its end. -/
def Decimal.stripZeros (decimal : Decimal) : Decimal :=
  if 0 < decimal.digits ∧ decimal.digits % 10 = 0 then
    stripZeros ⟨decimal.digits / 10, decimal.exponent + 1⟩
  else decimal
termination_by decimal.digits
decreasing_by omega

/-- Tries the grids from `place` downwards, `tries` of them and then the last one. -/
def searchGrid (interval : Interval) (exponent : Int) : Nat → Int → Decimal
  | 0, place =>
    let (value, unit) := onGrid interval.value exponent place
    ⟨value / unit, place⟩
  | tries + 1, place =>
    match nearestOnGrid interval exponent place with
    | some digits => ⟨digits, place⟩
    | none => searchGrid interval exponent tries (place - 1)

/-- The shortest decimal that reads back to `mantissa · 2 ^ exponent`, for a positive mantissa. -/
def shortest (mantissa : Nat) (exponent : Int) : Decimal :=
  let interval := Interval.around mantissa exponent
  let quarter := exponent - 2
  (searchGrid interval quarter 17 (leadingPlace interval.value quarter)).stripZeros

/-! ### Digits as text -/

/-- `digits` with a point behind the place of the ones, where `leading` is the place of the
first digit. -/
def positional (digits : List Char) (leading : Int) : List Char :=
  if leading < 0 then
    '0' :: '.' :: List.replicate (-leading - 1).toNat '0' ++ digits
  else
    let ones := leading.toNat + 1
    let fraction := digits.drop ones
    digits.take ones ++ List.replicate (ones - digits.length) '0' ++
      '.' :: (if fraction.isEmpty then ['0'] else fraction)

/-- `digits` with a point behind the first one and the exponent `leading`. -/
def scientific (digits : List Char) (leading : Int) : List Char :=
  let fraction := digits.drop 1
  let tail := if fraction.isEmpty then [] else '.' :: fraction
  let sign := if leading < 0 then ['-'] else []
  digits.take 1 ++ tail ++ 'e' :: sign ++ Nat.toDigits 10 leading.natAbs

/-- The written form of `mantissa · 2 ^ exponent`. -/
def writtenMagnitude (mantissa : Nat) (exponent : Int) : List Char :=
  if mantissa = 0 then ['0', '.', '0']
  else
    let decimal := shortest mantissa exponent
    let digits := Nat.toDigits 10 decimal.digits
    let leading := decimal.exponent + digits.length - 1
    if -4 ≤ leading ∧ leading < 16 then positional digits leading
    else scientific digits leading

/-- The written form of a real. -/
def written (x : Float) : String :=
  match parts x with
  | .nan => "NaN"
  | .infinite negative => if negative then "-inf" else "inf"
  | .finite negative mantissa exponent =>
    String.ofList ((if negative then ['-'] else []) ++ writtenMagnitude mantissa exponent)

end ShellExpr.Double
