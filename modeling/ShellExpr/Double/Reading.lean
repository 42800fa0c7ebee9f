import ShellExpr.Integer

/-!
# Reading reals

The texts that stand for a real: a word for infinity or for no number, or digits with an optional
point and an optional exponent.  The number read is the double nearest to the decimal.
-/

namespace ShellExpr.Double

def infinity : Float := 1.0 / 0.0

/-- The double nearest to `mantissa · 10 ^ exponent`.  A decimal with its leading digit beyond
place 310 is above every double, one with its leading digit below place -330 rounds to zero. -/
def ofDecimal (mantissa : Nat) (exponent : Int) : Float :=
  let leading := (Nat.toDigits 10 mantissa).length + exponent
  if mantissa = 0 then 0.0
  else if 310 < leading then infinity
  else if leading < -330 then 0.0
  else OfScientific.ofScientific mantissa (exponent < 0) exponent.natAbs

/-- Digits with an optional point among or next to them, and an optional exponent. -/
def readDecimal? (cs : List Char) : Option Float :=
  let (whole, afterWhole) := Text.spanDigits cs
  let (fraction, rest) := match afterWhole with
    | '.' :: cs => Text.spanDigits cs
    | cs => ([], cs)
  if whole.isEmpty && fraction.isEmpty then none
  else
    let value (exponent : Int) := ofDecimal (Text.digitsValue (whole ++ fraction))
      (exponent - fraction.length)
    match rest with
    | [] => some (value 0)
    | 'e' :: cs => (Integer.readSigned? cs).map value
    | 'E' :: cs => (Integer.readSigned? cs).map value
    | _ => none

/-- A real without its sign. -/
def readMagnitude? (cs : List Char) : Option Float :=
  let word := String.ofList (cs.map Char.toLower)
  if word = "inf" ∨ word = "infinity" then some infinity
  else if word = "nan" then some (0.0 / 0.0)
  else readDecimal? cs

/-- The real that a whole text stands for. -/
def read? : List Char → Option Float
  | '+' :: cs => readMagnitude? cs
  | '-' :: cs => (readMagnitude? cs).map fun x => -x
  | cs => readMagnitude? cs

end ShellExpr.Double
