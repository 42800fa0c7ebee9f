import ShellExpr.Double.Parts
import ShellExpr.FatalError

/-!
# Equality and order of values

Two values compare when they are of one kind or both numbers, and otherwise do not: that is a
fatal mismatch, also deep inside containers.  Lists and tuples are ordered by the first pair of
elements that is not equal, and a proper beginning comes first.  A function is ordered with its
own copies alone, a failure with nothing but itself.
-/

namespace ShellExpr

/-- The mismatch of two values that do not compare. -/
def mismatch (left right : Value) : FatalError :=
  .typeMismatch left.kind right.kind

/-! ### Equality -/

mutual

/-- Equality of values.  Functions and failures equal nothing. -/
def Value.equals : Value → Value → Except FatalError Bool
  | .int a, .int b => .ok (a == b)
  | .int a, .real y => .ok (Double.ofInteger a == y)
  | .real x, .int b => .ok (x == Double.ofInteger b)
  | .real x, .real y => .ok (x == y)
  | .str a, .str b => .ok (a == b)
  | .list xs, .list ys => if xs.length = ys.length then equalItems xs ys else .ok false
  | .tuple xs, .tuple ys => equalElements xs ys
  | .func _, .func _ => .ok false
  | .error _, .error _ => .ok false
  | a, b => .error (mismatch a b)
termination_by structural v => v

/-- Item by item, up to the first pair that is not equal. -/
def equalItems : List Value → List Value → Except FatalError Bool
  | [], [] => .ok true
  | x :: xs, y :: ys =>
    match Value.equals x y with
    | .ok true => equalItems xs ys
    | decided => decided
  | _, _ => .ok false
termination_by structural vs => vs

/-- Element by element, up to the first pair that is not equal. -/
def equalElements : Tuple Value → Tuple Value → Except FatalError Bool
  | .empty, .empty => .ok true
  | .node x xs, .node y ys =>
    match Value.equals x y with
    | .ok true => equalElements xs ys
    | decided => decided
  | _, _ => .ok false
termination_by structural vs => vs

end

/-! ### Order -/

mutual

/-- The order of two values, where they have one. -/
def Value.compare : Value → Value → Except FatalError (Option Ordering)
  | .int a, .int b => .ok (some (Ord.compare a b))
  | .int a, .real y => .ok (Double.compare? (Double.ofInteger a) y)
  | .real x, .int b => .ok (Double.compare? x (Double.ofInteger b))
  | .real x, .real y => .ok (Double.compare? x y)
  | .str a, .str b => .ok (some (Ord.compare a b))
  | .list xs, .list ys => compareItems xs ys
  | .tuple xs, .tuple ys => compareElements xs ys
  | .func f, .func g => .ok (if f.sameAs g then some .eq else none)
  | .error _, .error _ => .ok none
  | a, b => .error (mismatch a b)
termination_by structural v => v

def compareItems : List Value → List Value → Except FatalError (Option Ordering)
  | [], [] => .ok (some .eq)
  | [], _ :: _ => .ok (some .lt)
  | _ :: _, [] => .ok (some .gt)
  | x :: xs, y :: ys =>
    match Value.compare x y with
    | .ok (some .eq) => compareItems xs ys
    | decided => decided
termination_by structural vs => vs

def compareElements : Tuple Value → Tuple Value → Except FatalError (Option Ordering)
  | .empty, .empty => .ok (some .eq)
  | .empty, .node _ _ => .ok (some .lt)
  | .node _ _, .empty => .ok (some .gt)
  | .node x xs, .node y ys =>
    match Value.compare x y with
    | .ok (some .eq) => compareElements xs ys
    | decided => decided
termination_by structural vs => vs

end

theorem equalElements_eq (xs ys : Tuple Value) :
    equalElements xs ys = equalItems xs.toList ys.toList := by
  induction xs generalizing ys with
  | empty => cases ys <;> rfl
  | node x xs ih =>
    cases ys with
    | empty => rfl
    | node y ys => simp [equalElements, equalItems, ih]

theorem compareElements_eq (xs ys : Tuple Value) :
    compareElements xs ys = compareItems xs.toList ys.toList := by
  induction xs generalizing ys with
  | empty => cases ys <;> rfl
  | node x xs ih =>
    cases ys with
    | empty => rfl
    | node y ys => simp [compareElements, compareItems, ih]

/-! ### A value and itself -/

mutual

/-- Whether no real in the value is unordered with itself. -/
def Value.selfOrdered : Value → Bool
  | .real r => r == r
  | .list items => selfOrderedItems items
  | .tuple items => selfOrderedElements items
  | _ => true
termination_by structural v => v

def selfOrderedItems : List Value → Bool
  | [] => true
  | v :: rest => v.selfOrdered && selfOrderedItems rest
termination_by structural vs => vs

def selfOrderedElements : Tuple Value → Bool
  | .empty => true
  | .node v rest => v.selfOrdered && selfOrderedElements rest
termination_by structural vs => vs

end

/-- The order of one stored value with itself, as opposed to its order with a copy: a failure too
is equal to itself. -/
def Value.compareItself (v : Value) : Option Ordering :=
  if v.selfOrdered then some .eq else none

/-! ### Reading a mismatch as an answer -/

/-- Equality where values that do not compare are not equal. -/
def Value.isEqual (a b : Value) : Bool :=
  match a.equals b with
  | .ok answer => answer
  | .error _ => false

/-- Order where values that do not compare have none. -/
def Value.order? (a b : Value) : Option Ordering :=
  match a.compare b with
  | .ok answer => answer
  | .error _ => none

end ShellExpr
