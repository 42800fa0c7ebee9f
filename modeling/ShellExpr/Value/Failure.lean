import ShellExpr.Operator
import ShellExpr.Text.Basic
import ShellExpr.Value.Basic

/-!
# Failures as values

The messages of the failures that operators and builtins yield as values.
-/

namespace ShellExpr.Failure

def divisionByZero : Value := .error "Division by zero"
def overflow : Value := .error "Integer overflow"
def shiftOutOfRange : Value := .error "Shift amount out of range"
def sizeMismatch : Value := .error "List size mismatch"
def unordered : Value := .error "Values are unordered"
def emptyContainer : Value := .error "Empty container"
def assertionFailed : Value := .error "Assertion failed"

/-- The detail of an operation failure about which there is nothing more to say. -/
def unsupportedDetail : String := "operation not supported"

/-- An operation failure: what failed, the kind of the object it was asked of, the operator and,
where there are any, the kinds of the arguments. -/
def operation (primary : String) (arguments : List String) (operator detail : String) : Value :=
  let message := "Operation Error: " ++ detail ++ "\n\twith primary object's type: " ++ primary ++
    "\n\tOperator: (" ++ operator ++ ")"
  let suffix :=
    if arguments.isEmpty then "" else "\n\tArguments: " ++ Text.joinWith ", " arguments
  .error (message ++ suffix)

/-- An operator between two values that it does not take. -/
def unsupported (op : Operator) (left right : Value) : Value :=
  operation left.kind.name [right.kind.name] op.symbol unsupportedDetail

/-- A builtin called with a value that it does not take. -/
def unsupportedArgument (rule : Builtin) (argument : Value) : Value :=
  operation Kind.func.name [argument.kind.name] rule.name unsupportedDetail

end ShellExpr.Failure
