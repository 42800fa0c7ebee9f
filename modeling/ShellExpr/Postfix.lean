import ShellExpr.Atom

/-!
# Expressions in postfix order

The items of an expression whose operators stand behind their operands, and the roles that tokens
play in the infix expression it comes from.
-/

namespace ShellExpr

/-- One item of a postfix expression over tokens of any type. -/
inductive Postfix (α : Type) where
  | operand (token : α)
  /-- Takes the two operands in front of it. -/
  | operator (op : Operator)
  /-- Applies `head` to the `arity` operands in front of it. -/
  | apply (head : α) (arity : Nat)
deriving DecidableEq

namespace Postfix

/-- The same item over other tokens. -/
def map {α β : Type} (f : α → β) : Postfix α → Postfix β
  | operand token => operand (f token)
  | operator op => operator op
  | apply head arity => apply (f head) arity

/-- The text of an item.  An application shows its head. -/
def text : Postfix String → String
  | operand token => token
  | operator op => op.symbol
  | apply head _ => head

end Postfix

/-! ### Roles of tokens -/

inductive Role where
  | operator (op : Operator)
  | opening
  | closing
  | operand
deriving DecidableEq, Repr

/-- Tokens that play a role in an infix expression. -/
class Symbol (α : Type) where
  role : α → Role

/-- A text is an operator or a parenthesis by its exact spelling. -/
instance : Symbol String where
  role text :=
    if text = "(" then .opening
    else if text = ")" then .closing
    else
      match Operator.ofSymbol? text with
      | some op => .operator op
      | none => .operand

/-- A text with its role, so that the role is found once only. -/
structure Classified where
  text : String
  role : Role
deriving DecidableEq, Repr

def Classified.ofText (text : String) : Classified :=
  ⟨text, Symbol.role text⟩

instance : Symbol Classified where
  role := Classified.role

instance : Symbol Atom where
  role
    | .operator op => .operator op
    | .opening => .opening
    | .closing => .closing
    | .real _ | .int _ | .str _ | .identifier _ | .blank => .operand

end ShellExpr
