import ShellExpr.Value.Failure

/-!
# Broadcasting over lists

Operators between scalars extend to lists.  Two lists of one length combine item by item, a list
and a scalar combine the scalar with every item, and nested lists go the same way.  A failure on
either side is the result, the left one first, so failures are never buried in new ones.

A rule may have no result, where it breaks the program off.  Then lists in which it meets such
values have none either.
-/

namespace ShellExpr

mutual

/-- Replaces every leaf of a nested list that is not a failure. -/
def mapLeaves (f : Value → Value) : Value → Value
  | .list items => .list (mapItems f items)
  | .error message => .error message
  | v => f v
termination_by structural v => v

def mapItems (f : Value → Value) : List Value → List Value
  | [] => []
  | v :: rest => mapLeaves f v :: mapItems f rest
termination_by structural vs => vs

end

/-- What an operator makes of two values, if there is a result. -/
abbrev Rule : Type :=
  Value → Value → Option Value

/-- A rule with a result for all values. -/
def Rule.total (rule : Value → Value → Value) : Rule := fun left right =>
  some (rule left right)

mutual

/-- Replaces every leaf of a nested list that is not a failure, if there is a result for each. -/
def mapLeaves? (f : Value → Option Value) : Value → Option Value
  | .list items => (mapItems? f items).map .list
  | .error message => some (.error message)
  | v => f v
termination_by structural v => v

def mapItems? (f : Value → Option Value) : List Value → Option (List Value)
  | [] => some []
  | v :: rest => do
    let w ← mapLeaves? f v
    let ws ← mapItems? f rest
    pure (w :: ws)
termination_by structural vs => vs

end

theorem mapItems?_eq (f : Value → Option Value) (items : List Value) :
    mapItems? f items = items.mapM (mapLeaves? f) := by
  induction items with
  | nil => rfl
  | cons v rest ih => simp [mapItems?, ih]

mutual

/-- The operator with this rule between values that are no lists and no failures. -/
def broadcast? (rule : Rule) : Rule
  | .error message, _ => some (.error message)
  | .list xs, right =>
    match right with
    | .error message => some (.error message)
    | .list ys =>
      if xs.length = ys.length then (broadcastItems? rule xs ys).map .list
      else some Failure.sizeMismatch
    | right =>
      if right.isScalar then mapLeaves? (fun x => rule x right) (.list xs)
      else rule (.list xs) right
  | left, right =>
    match right with
    | .error message => some (.error message)
    | .list ys =>
      if left.isScalar then mapLeaves? (fun y => rule left y) (.list ys)
      else rule left (.list ys)
    | right => rule left right
termination_by structural left => left

def broadcastItems? (rule : Rule) : List Value → List Value → Option (List Value)
  | x :: xs, y :: ys => do
    let z ← broadcast? rule x y
    let zs ← broadcastItems? rule xs ys
    pure (z :: zs)
  | _, _ => some []
termination_by structural left => left

end

theorem broadcastItems?_eq (rule : Rule) (xs ys : List Value) :
    broadcastItems? rule xs ys = (xs.zip ys).mapM fun pair => broadcast? rule pair.1 pair.2 := by
  induction xs generalizing ys with
  | nil => cases ys <;> rfl
  | cons x xs ih =>
    cases ys with
    | nil => rfl
    | cons y ys => simp [broadcastItems?, ih]

end ShellExpr
