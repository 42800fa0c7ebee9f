import ShellExpr.Double.Written
import ShellExpr.Operator
import ShellExpr.Text.Quoted

/-!
# Atoms

The smallest parts of an expression: literals, names, operators and parentheses.
-/

namespace ShellExpr

inductive Atom where
  | real (r : Float)
  | int (n : Int64)
  | str (text : String)
  | identifier (name : String)
  | operator (op : Operator)
  | opening
  | closing
  | blank
deriving DecidableEq

/-- The text of an atom.  Texts in an expression are quoted. -/
def Atom.text : Atom → String
  | real r => Double.written r
  | int n => Integer.written n
  | str text => Text.quote text
  | identifier name => name
  | operator op => op.symbol
  | opening => "("
  | closing => ")"
  | blank => " "

end ShellExpr
