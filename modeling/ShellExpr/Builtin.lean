/-!
# Builtin functions

The names of the functions that an expression can use without defining them.
-/

namespace ShellExpr

inductive Builtin where
  | abs | assert | cos | error | exp | head | int | isError | len | list | ln | not | real | sin
  | sqrt | str | tail | tuple | type
deriving DecidableEq, Repr

namespace Builtin

/-- Every builtin once, in the order of their names. -/
def all : List Builtin :=
  [abs, assert, cos, error, exp, head, int, isError, len, list, ln, not, real, sin, sqrt, str,
    tail, tuple, type]

def name : Builtin → String
  | abs => "abs"
  | assert => "assert"
  | cos => "cos"
  | error => "error"
  | exp => "exp"
  | head => "head"
  | int => "int"
  | isError => "is_error"
  | len => "len"
  | list => "list"
  | ln => "ln"
  | not => "not"
  | real => "real"
  | sin => "sin"
  | sqrt => "sqrt"
  | str => "str"
  | tail => "tail"
  | tuple => "tuple"
  | type => "type"

def ofName? (text : String) : Option Builtin :=
  all.find? fun b => b.name == text

end Builtin

end ShellExpr
