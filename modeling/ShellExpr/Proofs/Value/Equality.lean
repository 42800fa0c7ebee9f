import ShellExpr.Proofs.Double.Order
import ShellExpr.Value.Ordering

/-!
# Equality and order

Equality and order of values are two recursions that stop at different places: lists of different
lengths are not equal whatever is in them, while the order goes through them up to a pair that
decides, or that does not compare.  Without functions and failures they agree all the same.  A
function is the exception, since it is ordered with its copies but equal to nothing.
-/

namespace ShellExpr

/-- Values with no function and no failure at any depth. -/
inductive Value.Plain : Value → Prop where
  | int (n : Int64) : Value.Plain (.int n)
  | real (r : Float) : Value.Plain (.real r)
  | str (text : String) : Value.Plain (.str text)
  | list {items : List Value} (each : ∀ v ∈ items, Value.Plain v) : Value.Plain (.list items)
  | tuple {items : Tuple Value} (each : ∀ v ∈ items.toList, Value.Plain v) :
      Value.Plain (.tuple items)

/-- What equality and order of two values may say side by side.  Values that are not equal may be in
any order, and may also not compare. -/
inductive Agree : Except FatalError Bool → Except FatalError (Option Ordering) → Prop where
  | equal : Agree (.ok true) (.ok (some .eq))
  | different {answer : Except FatalError (Option Ordering)} (other : answer ≠ .ok (some .eq)) :
      Agree (.ok false) answer
  | mismatched (fatal : FatalError) : Agree (.error fatal) (.error fatal)

theorem agree_of_iff {equal : Bool} {order : Option Ordering}
    (h : order = some .eq ↔ equal = true) : Agree (.ok equal) (.ok order) := by
  cases equal with
  | true =>
    rw [h.2 rfl]
    exact .equal
  | false =>
    refine .different fun same => ?_
    cases h.1 (Except.ok.inj same)

/-! ### Sequences -/

theorem length_of_compareItems {xs ys : List Value} (h : compareItems xs ys = .ok (some .eq)) :
    xs.length = ys.length := by
  induction xs generalizing ys with
  | nil =>
    cases ys with
    | nil => rfl
    | cons y ys => cases h
  | cons x xs ih =>
    cases ys with
    | nil => cases h
    | cons y ys =>
      rw [compareItems] at h
      split at h
      · rw [List.length_cons, List.length_cons, ih h]
      · rename_i different
        exact absurd h different

theorem agree_items {xs : List Value}
    (each : ∀ x ∈ xs, ∀ y : Value, Agree (x.equals y) (x.compare y)) (ys : List Value) :
    Agree (equalItems xs ys) (compareItems xs ys) := by
  induction xs generalizing ys with
  | nil =>
    cases ys with
    | nil => exact .equal
    | cons y ys => exact .different nofun
  | cons x xs ih =>
    cases ys with
    | nil => exact .different nofun
    | cons y ys =>
      rw [List.forall_mem_cons] at each
      have first := each.1 y
      rw [equalItems, compareItems]
      generalize x.equals y = equal at first ⊢
      generalize x.compare y = order at first ⊢
      -- Only a pair that is equal lets both recursions go on.
      cases first with
      | equal => exact ih each.2 ys
      | different other =>
        refine .different ?_
        split
        · exact absurd rfl other
        · exact other
      | mismatched fatal => exact .mismatched fatal

/-! ### Values -/

/-- It is enough that the left value is plain, since functions and failures that meet anything else
mismatch. -/
theorem Value.Plain.agree {a : Value} (ha : a.Plain) (b : Value) :
    Agree (a.equals b) (a.compare b) := by
  induction ha generalizing b with
  | int n =>
    cases b with
    | int m => exact agree_of_iff (by simp)
    | real y => exact agree_of_iff (Double.compare?_eq_some_eq_iff _ y)
    | _ => exact .mismatched _
  | real x =>
    cases b with
    | int m => exact agree_of_iff (Double.compare?_eq_some_eq_iff x _)
    | real y => exact agree_of_iff (Double.compare?_eq_some_eq_iff x y)
    | _ => exact .mismatched _
  | str text =>
    cases b with
    | str other => exact agree_of_iff (by simp)
    | _ => exact .mismatched _
  | @list items _ ih =>
    cases b with
    | list others =>
      rw [Value.equals, Value.compare]
      split
      · exact agree_items ih others
      · rename_i lengths
        exact .different fun same => lengths (length_of_compareItems same)
    | _ => exact .mismatched _
  | @tuple items _ ih =>
    cases b with
    | tuple others =>
      rw [Value.equals, Value.compare, equalElements_eq, compareElements_eq]
      exact agree_items ih others.toList
    | _ => exact .mismatched _

/-- Where plain values have an order, or are known to have none, they are equal exactly if that is
their order; values that are equal compare as equal; and an equality that fails is an order that
fails in the same way. -/
theorem equality_of_plain {a : Value} (ha : a.Plain) (b : Value) :
    (∀ order, a.compare b = .ok order → a.equals b = .ok (order == some .eq)) ∧
      (a.equals b = .ok true → a.compare b = .ok (some .eq)) ∧
      ∀ fatal, a.equals b = .error fatal → a.compare b = .error fatal := by
  have agree := ha.agree b
  generalize a.equals b = equal at agree ⊢
  generalize a.compare b = order at agree ⊢
  cases agree with
  | equal =>
    refine ⟨?_, fun _ => rfl, nofun⟩
    intro found same
    cases same
    rfl
  | different other =>
    refine ⟨?_, nofun, nofun⟩
    intro found same
    rw [same] at other
    have unequal : (found == some Ordering.eq) = false := by
      rw [beq_eq_false_iff_ne]
      exact fun h => other (by rw [h])
    rw [unequal]
  | mismatched fatal =>
    refine ⟨nofun, nofun, ?_⟩
    intro found same
    cases same
    rfl

/-- A list with a number of the other kind in it, and one that mismatches inside a tuple. -/
theorem equality_of_plain_nested :
    Value.Plain (.list [.int 1, .tuple (.node (.str "a") .empty)]) ∧
      Value.compare (.list [.int 1, .tuple (.node (.str "a") .empty)])
          (.list [.real 1.0, .tuple (.node (.str "a") .empty)]) = .ok (some .eq) ∧
      Value.equals (.list [.int 1, .tuple (.node (.str "a") .empty)])
          (.list [.real 1.0, .tuple (.node (.str "a") .empty)]) = .ok true ∧
      Value.equals (.list [.int 1, .tuple (.node (.str "a") .empty)])
          (.list [.int 1, .tuple (.node (.int 2) .empty)]) = .error (.typeMismatch .str .int) ∧
      Value.compare (.list [.int 1, .tuple (.node (.str "a") .empty)])
          (.list [.int 1, .tuple (.node (.int 2) .empty)]) = .error (.typeMismatch .str .int) := by
  have inner : Value.Plain (.tuple (.node (.str "a") .empty)) :=
    .tuple (by simp [Value.Plain.str])
  have plain : Value.Plain (.list [.int 1, .tuple (.node (.str "a") .empty)]) :=
    .list (by simp [Value.Plain.int, inner])
  obtain ⟨ordered, _, _⟩ :=
    equality_of_plain plain (.list [.real 1.0, .tuple (.node (.str "a") .empty)])
  obtain ⟨_, _, mismatched⟩ :=
    equality_of_plain plain (.list [.int 1, .tuple (.node (.int 2) .empty)])
  exact ⟨plain, rfl, ordered (some .eq) rfl, rfl, mismatched (.typeMismatch .str .int) rfl⟩

end ShellExpr
