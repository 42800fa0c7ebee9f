import ShellExpr.Operator
import ShellExpr.Value.Basic

/-!
# Fatal errors

The failures that end an evaluation, as opposed to the failures that are values.  Each is a cause;
its wording is `FatalError.message`.
-/

namespace ShellExpr

/-- What is wrong with the form of a line or of an expression.  Columns count the bytes of the
text from one. -/
inductive GrammarError where
  /-- A line stops behind a backslash. -/
  | openEscape
  /-- A closing delimiter other than the one that is due. -/
  | mismatched (expected found : Char) (column : Nat)
  /-- A closing delimiter in a word. -/
  | unmatchedAt (found : Char) (column : Nat)
  /-- A delimited span that the line does not close. -/
  | unclosed (close : Char)
  /-- A text that is no atom of an expression. -/
  | unexpected (text : String) (column : Nat)
  /-- A closing parenthesis too many in an expression. -/
  | unmatchedClose
  /-- A closing parenthesis too few in an expression. -/
  | missingClose
  /-- An argument group with nothing in it. -/
  | emptyGroup
  /-- Structure in the place of an operand. -/
  | notAnOperand (text : String)
  /-- Operands that no operator took. -/
  | leftovers (count : Nat)
  | notRelational (op : Operator)
  /-- An operator whose meaning needs the bindings around it. -/
  | needsEnvironment (op : Operator)
deriving DecidableEq, Repr

inductive FatalError where
  | grammar (cause : GrammarError)
  | typeMismatch (expected found : Kind)
  | invalidConversion (source target : Kind)
  /-- An operator or an applied name with too few operands below it. -/
  | stackUnderflow (operator : String)
  | notAssignable (op : Operator)
  | unknownVariable (name : String)
  | emptyExpression
deriving DecidableEq, Repr

def GrammarError.details : GrammarError → String
  | openEscape => "line ends inside an escape sequence"
  | mismatched expected found column =>
    s!"expected '{expected}' but found '{found}' at column {column}"
  | unmatchedAt found column => s!"unmatched '{found}' at column {column}"
  | unclosed close => s!"missing '{close}' before the end of the line"
  | unexpected text column => s!"unexpected '{text}' at column {column}"
  | unmatchedClose => "unmatched ')'"
  | missingClose => "missing ')'"
  | emptyGroup => "empty argument group '()'"
  | notAnOperand text => s!"'{text}' cannot be used as an operand"
  | leftovers count => s!"{count} operand(s) are not consumed by any operator"
  | notRelational op => s!"({op.symbol}) is not a relational operator"
  | needsEnvironment op => s!"({op.symbol}) needs a variable environment"

def FatalError.message : FatalError → String
  | grammar cause => "Grammar Error: " ++ cause.details
  | typeMismatch expected found =>
    s!"Type mismatch: expected {expected.name}, found {found.name}"
  | invalidConversion source target =>
    s!"Invalid conversion from {source.name} to {target.name}"
  | stackUnderflow operator => s!"Stack underflow: ({operator}) is missing an operand"
  | notAssignable op => s!"Cannot assign with ({op.symbol}): the left operand is not a variable"
  | unknownVariable name => s!"Unknown variable '{name}'"
  | emptyExpression => "Grammar Error: empty expression"

end ShellExpr
