import ShellExpr.Double.Parts

/-!
# Doubles in the other order

Two doubles that change places have the opposite order, and none if they had none.  The tests by
which doubles are compared are those of one order on their unpacked forms, and that order is
symmetric case by case.
-/

namespace ShellExpr.Double

open Float.Model (UnpackedFloat)

theorem unpacked_swap (x y : UnpackedFloat) : y.compare x = (x.compare y).map Ordering.swap := by
  cases x with
  | notANumber => cases y <;> rfl
  | infinity s =>
    cases y with
    | infinity t => cases s <;> cases t <;> rfl
    | _ => cases s <;> rfl
  | zero s =>
    cases y with
    | infinity t => cases t <;> rfl
    | finite t _ _ _ => cases t <;> rfl
    | _ => rfl
  | finite s m e _ =>
    cases y with
    | notANumber => rfl
    | infinity t => cases s <;> cases t <;> rfl
    | zero t => cases s <;> rfl
    | finite t n f _ =>
      have exponents : compare f e = (compare e f).swap := Std.OrientedCmp.eq_swap
      have mantissas : compare n m = (compare m n).swap := Std.OrientedCmp.eq_swap
      have sizes : (compare f e).then (compare n m) = ((compare e f).then (compare m n)).swap := by
        rw [Ordering.swap_then, exponents, mantissas]
      cases s with
      | positive =>
        cases t with
        | positive => exact congrArg some sizes
        | negative => rfl
      | negative =>
        cases t with
        | positive => rfl
        | negative => exact congrArg (fun order => some order.swap) sizes

theorem lt_iff (x y : Float) : x < y ↔ x.toModel.unpack.compare y.toModel.unpack = some .lt :=
  decide_eq_true_iff.trans beq_iff_eq

theorem compare?_eq (x y : Float) : compare? x y = x.toModel.unpack.compare y.toModel.unpack := by
  have equal : (x == y) = (x.toModel.unpack.compare y.toModel.unpack == some .eq) := rfl
  have above : y < x ↔ x.toModel.unpack.compare y.toModel.unpack = some .gt := by
    rw [lt_iff, unpacked_swap x.toModel.unpack]
    rcases x.toModel.unpack.compare y.toModel.unpack with _ | _ | _ | _ <;> simp
  unfold compare?
  rw [equal]
  simp only [lt_iff x y, above]
  rcases x.toModel.unpack.compare y.toModel.unpack with _ | _ | _ | _ <;> rfl

theorem compare?_swap (x y : Float) : compare? y x = (compare? x y).map Ordering.swap := by
  rw [compare?_eq, compare?_eq, unpacked_swap]

/-- Doubles are equal in the order exactly when they are equal, which a NaN never is. -/
theorem compare?_eq_some_eq_iff (x y : Float) : compare? x y = some .eq ↔ (x == y) = true := by
  unfold compare?
  split
  · simp [*]
  · rename_i different
    split
    · simp [different]
    · split <;> simp [different]

end ShellExpr.Double
