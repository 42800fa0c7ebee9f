import ShellExpr.Operation.Comparison
import ShellExpr.Proofs.Value.Nested

/-!
# Values that do not compare

Comparing two values fails fatally in one way only: somewhere inside them two values meet whose
kinds do not compare.
-/

namespace ShellExpr

/-- The errors of values that do not compare. -/
def IsMismatch (fatal : FatalError) : Prop :=
  ∃ expected found, fatal = .typeMismatch expected found

theorem isMismatch_mismatch (a b : Value) : IsMismatch (mismatch a b) :=
  ⟨a.kind, b.kind, rfl⟩

theorem compareItems_error {xs ys : List Value} {fatal : FatalError}
    (each : ∀ x ∈ xs, ∀ y : Value, x.compare y = .error fatal → IsMismatch fatal)
    (h : compareItems xs ys = .error fatal) : IsMismatch fatal := by
  induction xs generalizing ys with
  | nil => cases ys <;> cases h
  | cons x xs ih =>
    cases ys with
    | nil => cases h
    | cons y ys =>
      rw [List.forall_mem_cons] at each
      rw [compareItems] at h
      split at h
      · exact ih each.2 h
      · exact each.1 y h

theorem compare_error (a b : Value) {fatal : FatalError} (h : a.compare b = .error fatal) :
    IsMismatch fatal := by
  induction a using Value.nested generalizing b with
  | list items ih =>
    cases b with
    | list others => exact compareItems_error ih h
    | _ =>
      cases h
      exact isMismatch_mismatch _ _
  | tuple items ih =>
    cases b with
    | tuple others =>
      rw [Value.compare, compareElements_eq] at h
      exact compareItems_error ih h
    | _ =>
      cases h
      exact isMismatch_mismatch _ _
  | _ => cases b <;> cases h <;> exact isMismatch_mismatch _ _

namespace Operation

theorem comparison_error {op : Operator} {left right : Value} {fatal : FatalError}
    (h : comparison op left right = .error fatal) : IsMismatch fatal := by
  unfold comparison at h
  split at h
  · split at h
    · contradiction
    · contradiction
    · rename_i other found
      cases h
      exact compare_error left right found
  · contradiction

theorem compare_isMismatch {left right : Value} {fatal : FatalError}
    (h : compare left right = .error fatal) : IsMismatch fatal := by
  unfold compare at h
  split at h
  · contradiction
  · contradiction
  · rename_i other found
    cases h
    exact comparison_error found

/-- A relation has an answer for every order, so that it too fails by a mismatch only. -/
theorem relation_isMismatch {op : Operator} (relational : ∀ order, holds? op order ≠ none)
    {left right : Value} {fatal : FatalError} (h : relation op left right = .error fatal) :
    IsMismatch fatal := by
  unfold relation at h
  split at h
  · rename_i order _
    split at h
    · contradiction
    · rename_i unanswered
      exact absurd unanswered (relational order)
  · contradiction
  · rename_i other found
    cases h
    exact comparison_error found

end Operation

end ShellExpr
