import ShellExpr.Value.Failure
import ShellExpr.Value.Ordering

/-!
# Comparison

The rules of `= != < > <= >=` and of `<=>`.  All seven rest on the order of two values.  Values
that have none because of their kinds make the comparison fail with a value; elements deep inside
containers make it fail fatally.
-/

namespace ShellExpr.Operation

/-- What comes of comparing two values: an order, or a failure as the result. -/
inductive Comparison where
  | ordered (order : Ordering)
  | failed (failure : Value)

/-- Functions and failures do not compare. -/
def isComparable : Value → Bool
  | .func _ | .error _ => false
  | _ => true

/-- Compares for the operator `op`, which failures name. -/
def comparison (op : Operator) (left right : Value) : Except FatalError Comparison :=
  if isComparable left && isComparable right &&
      (left.kind == right.kind || (left.isNumeric && right.isNumeric)) then
    match left.compare right with
    | .ok (some order) => .ok (.ordered order)
    | .ok none => .ok (.failed Failure.unordered)
    | .error fatal => .error fatal
  else .ok (.failed (Failure.unsupported op left right))

/-- Orders as integers. -/
def sign : Ordering → Int64
  | .lt => -1
  | .eq => 0
  | .gt => 1

/-- The three-way comparison. -/
def compare (left right : Value) : Except FatalError Value :=
  match comparison .compare left right with
  | .ok (.ordered order) => .ok (.int (sign order))
  | .ok (.failed failure) => .ok failure
  | .error fatal => .error fatal

/-- Whether a relation holds of two values in this order.  Other operators are no relations. -/
def holds? (op : Operator) (order : Ordering) : Option Bool :=
  match op with
  | .equal => some order.isEq
  | .notEqual => some order.isNe
  | .less => some order.isLT
  | .greater => some order.isGT
  | .lessEqual => some order.isLE
  | .greaterEqual => some order.isGE
  | _ => none

/-- A relation as a truth value. -/
def relation (op : Operator) (left right : Value) : Except FatalError Value :=
  match comparison op left right with
  | .ok (.ordered order) =>
    match holds? op order with
    | some answer => .ok (.ofBool answer)
    | none => .error (.grammar (.notRelational op))
  | .ok (.failed failure) => .ok failure
  | .error fatal => .error fatal

end ShellExpr.Operation
