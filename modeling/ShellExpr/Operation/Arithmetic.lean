import ShellExpr.Operation.Broadcast
import ShellExpr.Text.Basic
import ShellExpr.Value.Conversion

/-!
# Arithmetic

The rules of `+ - * / % ^` between two values.  Between integers the result is the exact one or
an overflow; a real on either side widens the other.  Multiplication repeats texts too, and is the
only rule that may have no result.
-/

namespace ShellExpr.Operation

/-- Two numbers, both integers or both widened to doubles. -/
inductive Numbers where
  | ints (a b : Int64)
  | reals (x y : Float)

def numbers? : Value → Value → Option Numbers
  | .int a, .int b => some (.ints a b)
  | left, right =>
    match left.toFloat?, right.toFloat? with
    | some x, some y => some (.reals x y)
    | _, _ => none

/-- An exact result, or an overflow where 64 bits do not hold it. -/
def exact (n : Int) : Value :=
  match Integer.ofInt? n with
  | some result => .int result
  | none => Failure.overflow

/-- Addition, and joining of two texts or two tuples. -/
def add (left right : Value) : Value :=
  match left, right with
  | .str a, .str b => .str (a ++ b)
  | .tuple a, .tuple b => .tuple (a.concat b)
  | left, right =>
    match numbers? left right with
    | some (.ints a b) => exact (a.toInt + b.toInt)
    | some (.reals x y) => .real (x + y)
    | none => Failure.unsupported .add left right

def sub (left right : Value) : Value :=
  match numbers? left right with
  | some (.ints a b) => exact (a.toInt - b.toInt)
  | some (.reals x y) => .real (x - y)
  | none => Failure.unsupported .sub left right

/-- How often a text is repeated: never for a negative count. -/
def repeatCount (n : Int64) : Nat :=
  n.toInt.toNat

/-- The size of a repetition in bytes. -/
def repeatedSize (count : Int64) (text : String) : Nat :=
  repeatCount count * text.utf8ByteSize

/-- The text `count` times over.  Sizes that 64 bits do not hold are an overflow.  Of the sizes that
they hold a text has only those below 2 ^ 63: where it should have any other one, the program breaks
off. -/
def repeatText (count : Int64) (text : String) : Option Value :=
  if repeatedSize count text < Nat.pow 2 63 then
    some (.str (if text.isEmpty then "" else Text.repeatOnto "" text (repeatCount count)))
  else if repeatedSize count text < Nat.pow 2 64 then none
  else some Failure.overflow

/-- Multiplication, and repetition of a text. -/
def mul : Rule
  | .int n, .str text => repeatText n text
  | .str text, .int n => repeatText n text
  | left, right =>
    match numbers? left right with
    | some (.ints a b) => some (exact (a.toInt * b.toInt))
    | some (.reals x y) => some (.real (x * y))
    | none => some (Failure.unsupported .mul left right)

/-- Division, between integers towards zero. -/
def div (left right : Value) : Value :=
  match numbers? left right with
  | some (.ints a b) =>
    if b = 0 then Failure.divisionByZero else exact (a.toInt.tdiv b.toInt)
  | some (.reals x y) => if y == 0.0 then Failure.divisionByZero else .real (x / y)
  | none => Failure.unsupported .div left right

/-- The remainder of the division towards zero.  It overflows where the quotient does. -/
def rem (left right : Value) : Value :=
  match numbers? left right with
  | some (.ints a b) =>
    if b = 0 then Failure.divisionByZero
    else if Integer.Fits (a.toInt.tdiv b.toInt) then exact (a.toInt.tmod b.toInt)
    else Failure.overflow
  | some (.reals x y) => if y == 0.0 then Failure.divisionByZero else .real (Double.remainder x y)
  | none => Failure.unsupported .rem left right

/-- The power, which is always a real. -/
def pow (left right : Value) : Value :=
  match left.toFloat?, right.toFloat? with
  | some base, some exponent => .real (Float.pow base exponent)
  | _, _ => Failure.unsupported .pow left right

end ShellExpr.Operation
