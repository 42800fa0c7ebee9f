import ShellExpr.Operation.Broadcast
import ShellExpr.Operation.Logic
import ShellExpr.Value.Conversion

/-!
# The rules of the builtin functions

The functions of numbers and `not` go over the items of a list.  Most functions hand a failure on;
those about kinds and containers take it as the value it is.
-/

namespace ShellExpr.Builtin

/-- A function of doubles as a function of numbers, over the items of a list. -/
def onReals (rule : Builtin) (f : Float → Float) : Value → Value :=
  mapLeaves fun v =>
    match v.toFloat? with
    | some x => .real (f x)
    | none => Failure.unsupportedArgument rule v

def absRule : Value → Value :=
  mapLeaves fun v =>
    match v with
    | .int n =>
      match Integer.ofInt? n.toInt.natAbs with
      | some result => .int result
      | none => Failure.overflow
    | .real r => .real r.abs
    | v => Failure.unsupportedArgument .abs v

/-- A size as an integer, as large as 64 bits allow. -/
def sizeValue (n : Nat) : Value :=
  .int (Int64.ofNat (min n (Nat.pow 2 63 - 1)))

/-- The number of characters, items or elements. -/
def lenRule : Value → Value
  | .str text => sizeValue text.length
  | .list items => sizeValue items.length
  | .tuple items => sizeValue items.length
  | .error message => .error message
  | v => Failure.unsupportedArgument .len v

/-- The first character, item or element. -/
def headRule : Value → Value
  | .str text =>
    match text.toList with
    | c :: _ => .str (String.singleton c)
    | [] => Failure.emptyContainer
  | .list items => items.head?.getD Failure.emptyContainer
  | .tuple items => items.head?.getD Failure.emptyContainer
  | .error message => .error message
  | v => Failure.unsupportedArgument .head v

/-- Everything behind the first character, item or element. -/
def tailRule : Value → Value
  | .str text =>
    match text.toList with
    | _ :: rest => .str (String.ofList rest)
    | [] => Failure.emptyContainer
  | .list items =>
    match items with
    | _ :: rest => .list rest
    | [] => Failure.emptyContainer
  | .tuple items =>
    match items.tail? with
    | some rest => .tuple rest
    | none => Failure.emptyContainer
  | .error message => .error message
  | v => Failure.unsupportedArgument .tail v

/-- A conversion that turns its fatal error into a failure and hands failures on. -/
def converting {α : Type} (convert : Value → Except FatalError α) (wrap : α → Value) :
    Value → Value
  | .error message => .error message
  | v =>
    match convert v with
    | .ok result => wrap result
    | .error fatal => .error fatal.message

def errorRule : Value → Value
  | .error message => .error message
  | v => .error v.text

def assertRule (v : Value) : Value :=
  if v.truthy && !v.isError then v else Failure.assertionFailed

/-- What a builtin makes of its argument. -/
def call : Builtin → Value → Value
  | abs => absRule
  | assert => assertRule
  | cos => onReals .cos Float.cos
  | error => errorRule
  | exp => onReals .exp Float.exp
  | head => headRule
  | int => converting Value.toInt .int
  | isError => fun v => .ofBool v.isError
  | len => lenRule
  | list => fun v => .list v.toList
  | ln => onReals .ln Float.log
  | not => mapLeaves Operation.not
  | real => converting Value.toReal .real
  | sin => onReals .sin Float.sin
  | sqrt => onReals .sqrt Float.sqrt
  | str => converting Value.toText .str
  | tail => tailRule
  | tuple => fun v => .tuple v.toTuple
  | type => fun v => .str v.kind.name

end ShellExpr.Builtin
