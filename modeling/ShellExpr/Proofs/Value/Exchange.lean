import ShellExpr.Proofs.Double.Order
import ShellExpr.Proofs.Value.Nested
import ShellExpr.Value.Ordering

/-!
# Values in the other order

Comparing two values and comparing them in the other order go by the same pair of elements: the
first one that is not equal is the same from either side.  The two answers are opposite, and where
that pair does not compare, the two errors name its kinds in opposite order.
-/

namespace ShellExpr

/-- A mismatch names its kinds in the other order. -/
def FatalError.exchanged : FatalError → FatalError
  | .typeMismatch expected found => .typeMismatch found expected
  | fatal => fatal

/-- The answer for two values that have changed places. -/
def exchanged : Except FatalError (Option Ordering) → Except FatalError (Option Ordering)
  | .ok order => .ok (order.map Ordering.swap)
  | .error fatal => .error fatal.exchanged

theorem compareItems_exchanged {xs ys : List Value}
    (each : ∀ x ∈ xs, ∀ y : Value, y.compare x = exchanged (x.compare y)) :
    compareItems ys xs = exchanged (compareItems xs ys) := by
  induction xs generalizing ys with
  | nil => cases ys <;> rfl
  | cons x xs ih =>
    cases ys with
    | nil => rfl
    | cons y ys =>
      rw [List.forall_mem_cons] at each
      rw [compareItems, compareItems, each.1 y, ih each.2]
      -- From either side the same pair decides, so one split serves both.
      rcases x.compare y with fatal | _ | _ | _ | _ <;> rfl

theorem Value.compare_exchanged (a b : Value) : b.compare a = exchanged (a.compare b) := by
  induction a using Value.nested generalizing b with
  | int n =>
    cases b with
    | int m =>
      have swapped : Ord.compare m n = (Ord.compare n m).swap := Std.OrientedCmp.eq_swap
      exact congrArg (fun order => Except.ok (some order)) swapped
    | real y => exact congrArg Except.ok (Double.compare?_swap _ _)
    | _ => rfl
  | real x =>
    cases b with
    | int m => exact congrArg Except.ok (Double.compare?_swap _ _)
    | real y => exact congrArg Except.ok (Double.compare?_swap _ _)
    | _ => rfl
  | str text =>
    cases b with
    | str other =>
      have swapped : Ord.compare other text = (Ord.compare text other).swap :=
        Std.OrientedCmp.eq_swap
      exact congrArg (fun order => Except.ok (some order)) swapped
    | _ => rfl
  | list items ih =>
    cases b with
    | list others => exact compareItems_exchanged ih
    | _ => rfl
  | tuple items ih =>
    cases b with
    | tuple others =>
      rw [Value.compare, Value.compare, compareElements_eq, compareElements_eq]
      exact compareItems_exchanged ih
    | _ => rfl
  | func f =>
    cases b with
    | func g =>
      have same : g.sameAs f = f.sameAs g := by
        rw [Func.sameAs, Func.sameAs]
        exact Bool.beq_comm ..
      rw [Value.compare, Value.compare, same]
      cases f.sameAs g <;> rfl
    | _ => rfl
  | error message => cases b <;> rfl

end ShellExpr
