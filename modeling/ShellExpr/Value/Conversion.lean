import ShellExpr.Double.Reading
import ShellExpr.FatalError
import ShellExpr.Text.Basic
import ShellExpr.Value.Display

/-!
# Conversions between kinds

Numbers and texts convert into each other, a text where it stands for a number between blanks.
Every value converts to a container: one that is none is its only element.
-/

namespace ShellExpr.Value

/-- The number as a double. -/
def toFloat? : Value → Option Float
  | int n => some (Double.ofInteger n)
  | real r => some r
  | _ => none

def toInt (v : Value) : Except FatalError Int64 :=
  let found := match v with
    | int n => some n
    | real r => Double.toInteger? r
    | str text => Integer.read? (Text.trim text.toList)
    | _ => none
  match found with
  | some n => .ok n
  | none => .error (.invalidConversion v.kind .int)

def toReal (v : Value) : Except FatalError Float :=
  let found := match v with
    | int n => some (Double.ofInteger n)
    | real r => some r
    | str text => Double.read? (Text.trim text.toList)
    | _ => none
  match found with
  | some r => .ok r
  | none => .error (.invalidConversion v.kind .real)

def toText (v : Value) : Except FatalError String :=
  match v with
  | int _ | real _ | str _ => .ok v.text
  | _ => .error (.invalidConversion v.kind .str)

def toList : Value → List Value
  | list items => items
  | tuple items => items.toList
  | v => [v]

def toTuple : Value → Tuple Value
  | tuple items => items
  | list items => Tuple.ofList items
  | v => Tuple.ofList [v]

/-- The function itself, or the constant function numbered `id`. -/
def toFunc (id : Nat) : Value → Func
  | func f => f
  | v => .constant id v

/-- Succeeds when the value is of the wanted kind. -/
def expect (wanted : Kind) (v : Value) : Except FatalError Unit :=
  if v.kind = wanted then .ok () else .error (.typeMismatch wanted v.kind)

end ShellExpr.Value
