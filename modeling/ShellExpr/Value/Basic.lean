import ShellExpr.Builtin
import ShellExpr.Environment
import ShellExpr.Value.Tuple

/-!
# Values

The values of the expression language: integers of 64 bits, doubles, texts, lists, tuples,
functions, and failures that travel as values.

A function is known by a number given to it when it is made.  Copies keep the number, so two
functions are the same exactly when their numbers agree.
-/

namespace ShellExpr

/-- The kinds of values. -/
inductive Kind where
  | int | real | str | list | tuple | func | error
deriving DecidableEq, Repr

namespace Kind

def name : Kind → String
  | int => "Int"
  | real => "Real"
  | str => "Str"
  | list => "List"
  | tuple => "Tuple"
  | func => "Func"
  | error => "Error"

end Kind

mutual

inductive Value where
  | int (n : Int64)
  | real (r : Float)
  | str (text : String)
  | list (items : List Value)
  | tuple (items : Tuple Value)
  | func (f : Func)
  /-- A failure with its message. -/
  | error (message : String)

/-- A function of one argument with the number that identifies it. -/
inductive Func where
  | builtin (id : Nat) (rule : Builtin)
  /-- Ignores its argument. -/
  | constant (id : Nat) (value : Value)
  /-- Evaluates `body` with `parameter` bound on top of the bindings captured in `scope`. -/
  | lambda (id : Nat) (parameter body : String) (scope : Environment Value)

end

namespace Func

def id : Func → Nat
  | builtin id _ => id
  | constant id _ => id
  | lambda id _ _ _ => id

/-- Whether one function is a copy of the other. -/
def sameAs (f g : Func) : Bool :=
  f.id == g.id

end Func

namespace Value

def kind : Value → Kind
  | int _ => .int
  | real _ => .real
  | str _ => .str
  | list _ => .list
  | tuple _ => .tuple
  | func _ => .func
  | error _ => .error

def isNumeric : Value → Bool
  | int _ | real _ => true
  | _ => false

/-- Scalars pair with every element of a list: the numbers and the texts. -/
def isScalar : Value → Bool
  | int _ | real _ | str _ => true
  | _ => false

def isError : Value → Bool
  | error _ => true
  | _ => false

/-- The message of a failure. -/
def message? : Value → Option String
  | error message => some message
  | _ => none

/-- Numbers other than zero, texts and containers with something in them, all functions and all
failures count as true. -/
def truthy : Value → Bool
  | int n => n != 0
  | real r => !(r == 0.0)
  | str text => !text.isEmpty
  | list items => !items.isEmpty
  | tuple items => !items.isEmpty
  | func _ | error _ => true

/-- The truth values are the integers one and zero. -/
def ofBool (b : Bool) : Value :=
  .int (if b then 1 else 0)

end Value

end ShellExpr
