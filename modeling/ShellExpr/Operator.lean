/-!
# Operators

The binary operators of the expression language: symbol, binding strength and grouping.

An operator has two strengths, one for the moment it arrives and one for the time it waits for
its right operand.  They differ for assignment alone: a waiting `<-` has the strength of `;`, so
its right operand runs to the end of the statement.
-/

namespace ShellExpr

/-- How operators of equal strength group. -/
inductive Associativity where
  | left
  | right
deriving DecidableEq, Repr

/-- The binary operators, from the tightest to the loosest. -/
inductive Operator where
  | apply | cons | assign | pow
  | mul | div | rem
  | add | sub | concat
  | less | greater | equal | notEqual | lessEqual | greaterEqual | compare
  | bitAnd | bitOr | and | or
  | shl | shr
  | zip | abstract | sequence
deriving DecidableEq, Repr

namespace Operator

/-- Every operator once, in the order of the table. -/
def all : List Operator :=
  [apply, cons, assign, pow, mul, div, rem, add, sub, concat, less, greater, equal, notEqual,
    lessEqual, greaterEqual, compare, bitAnd, bitOr, and, or, shl, shr, zip, abstract, sequence]

/-! ### Symbols -/

/-- The text of an operator in an expression. -/
def symbol : Operator → String
  | apply => "$"
  | cons => ":"
  | assign => "<-"
  | pow => "^"
  | mul => "*"
  | div => "/"
  | rem => "%"
  | add => "+"
  | sub => "-"
  | concat => "++"
  | less => "<"
  | greater => ">"
  | equal => "="
  | notEqual => "!="
  | lessEqual => "<="
  | greaterEqual => ">="
  | compare => "<=>"
  | bitAnd => "&"
  | bitOr => "|"
  | and => "&&"
  | or => "||"
  | shl => "<<"
  | shr => ">>"
  | zip => ","
  | abstract => "->"
  | sequence => ";"

/-- The operator with exactly this text. -/
def ofSymbol? (text : String) : Option Operator :=
  all.find? fun op => op.symbol == text

theorem ofSymbol?_symbol (op : Operator) : ofSymbol? op.symbol = some op := by
  cases op <;> decide

theorem symbol_of_ofSymbol? {text : String} {op : Operator} (h : ofSymbol? text = some op) :
    op.symbol = text := by
  have found := List.find?_some h
  simpa using found

theorem symbol_injective {a b : Operator} (h : a.symbol = b.symbol) : a = b := by
  have both := ofSymbol?_symbol a
  rw [h, ofSymbol?_symbol b] at both
  exact (Option.some.inj both).symm

/-! ### Binding strength and grouping -/

/-- Strength of an arriving operator. -/
def precedence : Operator → Nat
  | apply => 100
  | cons => 90
  | assign => 85
  | pow => 80
  | mul | div | rem => 70
  | add | sub | concat => 60
  | less | greater | equal | notEqual | lessEqual | greaterEqual | compare => 50
  | bitAnd | bitOr | and | or => 40
  | shl | shr => 30
  | zip => 20
  | abstract => 10
  | sequence => 0

/-- Strength of an operator that waits for its right operand. -/
def waitingPrecedence : Operator → Nat
  | assign => 0
  | op => op.precedence

def associativity : Operator → Associativity
  | apply | cons | assign | abstract => .right
  | _ => .left

/-- Whether the waiting operator `top` is applied before the arriving one takes its left operand. -/
def appliesBefore (top incoming : Operator) : Bool :=
  match incoming.associativity with
  | .left => incoming.precedence ≤ top.waitingPrecedence
  | .right => incoming.precedence < top.waitingPrecedence

end Operator

end ShellExpr
