import ShellExpr.Value.Failure

/-!
# Bits, truth and containers

The rules of `& | << >>` between two integers, of `&& ||` between two numbers, and of `++`, `:` and
`,`, which build texts, lists and tuples.
-/

namespace ShellExpr.Operation

/-! ### Bits -/

def bitAnd (left right : Value) : Value :=
  match left, right with
  | .int a, .int b => .int (a &&& b)
  | left, right => Failure.unsupported .bitAnd left right

def bitOr (left right : Value) : Value :=
  match left, right with
  | .int a, .int b => .int (a ||| b)
  | left, right => Failure.unsupported .bitOr left right

/-- The places to shift by, if 64 bits have that many. -/
def shiftAmount? (n : Int64) : Option Nat :=
  if 0 ≤ n.toInt ∧ n.toInt < 64 then some n.toInt.toNat else none

/-- Shifts to the left.  Bits beyond the top are lost. -/
def shl (left right : Value) : Value :=
  match left, right with
  | .int a, .int b =>
    match shiftAmount? b with
    | some amount => .int (a <<< Int64.ofNat amount)
    | none => Failure.shiftOutOfRange
  | left, right => Failure.unsupported .shl left right

/-- Shifts to the right and keeps the sign. -/
def shr (left right : Value) : Value :=
  match left, right with
  | .int a, .int b =>
    match shiftAmount? b with
    | some amount => .int (a >>> Int64.ofNat amount)
    | none => Failure.shiftOutOfRange
  | left, right => Failure.unsupported .shr left right

/-! ### Truth -/

def and (left right : Value) : Value :=
  if left.isNumeric && right.isNumeric then .ofBool (left.truthy && right.truthy)
  else Failure.unsupported .and left right

def or (left right : Value) : Value :=
  if left.isNumeric && right.isNumeric then .ofBool (left.truthy || right.truthy)
  else Failure.unsupported .or left right

/-- The negation of an integer, over the items of a list. -/
def not : Value → Value
  | .int n => .ofBool (n == 0)
  | v => Failure.operation v.kind.name [] "!" Failure.unsupportedDetail

/-! ### Texts, lists and tuples -/

/-- Joins two texts or two tuples. -/
def concat (left right : Value) : Value :=
  match left, right with
  | .str a, .str b => .str (a ++ b)
  | .tuple a, .tuple b => .tuple (a.concat b)
  | left, right => Failure.unsupported .concat left right

/-- A new first item of a list. -/
def cons (left right : Value) : Value :=
  match right with
  | .list items => .list (left :: items)
  | right => Failure.unsupported .cons left right

/-- A new first element of a tuple.  Any other value counts as a tuple of itself, lists too. -/
def zip (left right : Value) : Value :=
  match right with
  | .tuple items => .tuple (items.push left)
  | right => .tuple ((Tuple.ofList [right]).push left)

end ShellExpr.Operation
