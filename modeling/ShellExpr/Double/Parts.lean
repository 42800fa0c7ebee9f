import ShellExpr.Integer

/-!
# Doubles by sign, mantissa and exponent

A finite double is `± m · 2 ^ q` with natural `m < 2 ^ 53` and `-1074 ≤ q`.  The exact functions of
the language on reals (the remainder, the truncation to an integer and the written form) are
computed on these numbers.
-/

namespace ShellExpr.Double

/-- A double by its kind. -/
inductive Parts where
  | nan
  | infinite (negative : Bool)
  /-- The number `mantissa · 2 ^ exponent` with a sign in front. -/
  | finite (negative : Bool) (mantissa : Nat) (exponent : Int)
deriving DecidableEq, Repr

def parts (x : Float) : Parts :=
  let bits := x.toBits.toNat
  let negative := bits / Nat.pow 2 63 == 1
  let field : Nat := bits / Nat.pow 2 52 % Nat.pow 2 11
  let fraction := bits % Nat.pow 2 52
  if field = 2047 then
    if fraction = 0 then .infinite negative else .nan
  else if field = 0 then .finite negative fraction (-1074)
  else .finite negative (Nat.pow 2 52 + fraction) ((field : Int) - 1075)

/-- The double `± mantissa · 2 ^ exponent`, for numbers that are doubles. -/
def ofParts (negative : Bool) (mantissa : Nat) (exponent : Int) : Float :=
  let excess := mantissa.log2 - 52
  let low := mantissa / Nat.pow 2 excess
  let lift := min (52 - low.log2) (exponent + excess + 1074).toNat
  let full := low * Nat.pow 2 lift
  let field := if full < Nat.pow 2 52 then 0 else (exponent + excess - lift + 1075).toNat
  let sign := if negative then Nat.pow 2 63 else 0
  Float.ofBits (UInt64.ofNat (sign + field * Nat.pow 2 52 + full % Nat.pow 2 52))

/-! ### Exact arithmetic -/

/-- The double nearest to an integer. -/
def ofInteger (n : Int64) : Float :=
  Float.ofInt n.toInt

/-- The integer part of a finite double, towards zero. -/
def truncate? (x : Float) : Option Int :=
  match parts x with
  | .finite negative mantissa exponent =>
    let whole := mantissa * Nat.pow 2 exponent.toNat / Nat.pow 2 (-exponent).toNat
    some (if negative then -whole else whole)
  | _ => none

/-- The integer part of a double, when 64 bits hold it. -/
def toInteger? (x : Float) : Option Int64 :=
  (truncate? x).bind Integer.ofInt?

/-- What is left of `x` after taking away `y` as often as it fits, with the sign of `x`. -/
def remainder (x y : Float) : Float :=
  match parts x, parts y with
  | .finite negative m p, .finite _ n q =>
    if n = 0 then 0.0 / 0.0
    else
      let unit := min p q
      ofParts negative (m * Nat.pow 2 (p - unit).toNat % (n * Nat.pow 2 (q - unit).toNat)) unit
  | .finite .., .infinite _ => x
  | _, _ => 0.0 / 0.0

/-- The order of two doubles, where there is one: the zeros are equal, and a NaN has no place. -/
def compare? (x y : Float) : Option Ordering :=
  if x == y then some .eq
  else if x < y then some .lt
  else if y < x then some .gt
  else none

end ShellExpr.Double
