import ShellExpr.Value.Ordering

/-!
# The order of discrete values

Integers, texts, and lists and tuples of such are ordered by a strict order: two of them are equal
only when they are the same value, and where one stands below a second and the second below a third,
the first and the third do compare.  A pair of elements that do not compare stands behind the pair
that decides, and so it does in the third comparison.
-/

namespace ShellExpr

/-- Integers, texts, and lists and tuples of discrete values. -/
inductive Value.Discrete : Value → Prop where
  | int (n : Int64) : Value.Discrete (.int n)
  | str (text : String) : Value.Discrete (.str text)
  | list {items : List Value} (each : ∀ v ∈ items, Value.Discrete v) : Value.Discrete (.list items)
  | tuple {items : Tuple Value} (each : ∀ v ∈ items.toList, Value.Discrete v) :
      Value.Discrete (.tuple items)

/-! ### The first pair that is not equal -/

/-- The first pair of items decides unless it is equal. -/
theorem compareItems_cons_iff {x y : Value} {xs ys : List Value}
    {answer : Except FatalError (Option Ordering)} :
    compareItems (x :: xs) (y :: ys) = answer ↔
      x.compare y = answer ∧ answer ≠ .ok (some .eq) ∨
        x.compare y = .ok (some .eq) ∧ compareItems xs ys = answer := by
  rw [compareItems]
  split
  · rename_i equal
    constructor
    · intro rest
      exact .inr ⟨equal, rest⟩
    · rintro (⟨first, other⟩ | ⟨_, rest⟩)
      · exact absurd (first.symm.trans equal) other
      · exact rest
  · rename_i different
    constructor
    · rintro rfl
      exact .inl ⟨rfl, different⟩
    · rintro (⟨first, _⟩ | ⟨equal, _⟩)
      · exact first
      · exact absurd equal different

/-! ### Equal values -/

theorem compareItems_eq_iff {xs ys : List Value}
    (each : ∀ x ∈ xs, ∀ y ∈ ys, (x.compare y = .ok (some .eq) ↔ x = y)) :
    compareItems xs ys = .ok (some .eq) ↔ xs = ys := by
  induction xs generalizing ys with
  | nil => cases ys <;> simp [compareItems]
  | cons x xs ih =>
    cases ys with
    | nil => simp [compareItems]
    | cons y ys =>
      have first := each x List.mem_cons_self y List.mem_cons_self
      have rest : compareItems xs ys = .ok (some .eq) ↔ xs = ys := ih fun v hv w hw =>
        each v (List.mem_cons_of_mem x hv) w (List.mem_cons_of_mem y hw)
      rw [compareItems_cons_iff, first, rest, List.cons.injEq]
      simp

/-- Discrete values are equal only when they are the same. -/
theorem Value.Discrete.compare_eq_iff {a b : Value} (ha : a.Discrete) (hb : b.Discrete) :
    a.compare b = .ok (some .eq) ↔ a = b := by
  induction ha generalizing b with
  | int n => cases hb <;> simp [Value.compare]
  | str text => cases hb <;> simp [Value.compare]
  | list _ ih =>
    cases hb with
    | list each =>
      rw [Value.compare, compareItems_eq_iff fun x hx y hy => ih x hx (each y hy), list.injEq]
    | _ => simp [Value.compare]
  | tuple _ ih =>
    cases hb with
    | tuple each =>
      rw [Value.compare, compareElements_eq,
        compareItems_eq_iff fun x hx y hy => ih x hx (each y hy), Tuple.toList_inj, tuple.injEq]
    | _ => simp [Value.compare]

/-! ### Values without an order -/

theorem compareItems_ne_none {xs ys : List Value}
    (each : ∀ x ∈ xs, ∀ y ∈ ys, x.compare y ≠ .ok none) : compareItems xs ys ≠ .ok none := by
  induction xs generalizing ys with
  | nil => cases ys <;> simp [compareItems]
  | cons x xs ih =>
    cases ys with
    | nil => simp [compareItems]
    | cons y ys =>
      rw [Ne, compareItems_cons_iff]
      rintro (⟨first, _⟩ | ⟨_, rest⟩)
      · exact each x List.mem_cons_self y List.mem_cons_self first
      · exact ih (fun v hv w hw =>
          each v (List.mem_cons_of_mem x hv) w (List.mem_cons_of_mem y hw)) rest

/-- Discrete values that compare are ordered. -/
theorem Value.Discrete.compare_ne_none {a b : Value} (ha : a.Discrete) (hb : b.Discrete) :
    a.compare b ≠ .ok none := by
  induction ha generalizing b with
  | int n => cases hb <;> simp [Value.compare]
  | str text => cases hb <;> simp [Value.compare]
  | list _ ih =>
    cases hb with
    | list each => exact compareItems_ne_none fun x hx y hy => ih x hx (each y hy)
    | _ => simp [Value.compare]
  | tuple _ ih =>
    cases hb with
    | tuple each =>
      rw [Value.compare, compareElements_eq]
      exact compareItems_ne_none fun x hx y hy => ih x hx (each y hy)
    | _ => simp [Value.compare]

/-! ### Values in increasing order -/

theorem compareItems_lt_trans {xs ys zs : List Value} (hx : ∀ x ∈ xs, x.Discrete)
    (hy : ∀ y ∈ ys, y.Discrete) (hz : ∀ z ∈ zs, z.Discrete)
    (each : ∀ x ∈ xs, ∀ y z : Value, y.Discrete → z.Discrete → x.compare y = .ok (some .lt) →
      y.compare z = .ok (some .lt) → x.compare z = .ok (some .lt))
    (below : compareItems xs ys = .ok (some .lt)) (above : compareItems ys zs = .ok (some .lt)) :
    compareItems xs zs = .ok (some .lt) := by
  induction xs generalizing ys zs with
  | nil =>
    cases zs with
    | nil => cases ys <;> simp [compareItems] at above
    | cons z zs => rfl
  | cons x xs ih =>
    cases ys with
    | nil => simp [compareItems] at below
    | cons y ys =>
      cases zs with
      | nil => simp [compareItems] at above
      | cons z zs =>
        rw [List.forall_mem_cons] at hx hy hz each
        rw [compareItems_cons_iff] at below above ⊢
        -- A pair that is equal is the same value twice, so the other pair stands for both.
        rcases below with ⟨below, strict⟩ | ⟨same, below⟩
        · rcases above with ⟨above, _⟩ | ⟨same, _⟩
          · exact .inl ⟨each.1 y z hy.1 hz.1 below above, strict⟩
          · rw [(hy.1.compare_eq_iff hz.1).1 same] at below
            exact .inl ⟨below, strict⟩
        · rw [hx.1.compare_eq_iff hy.1] at same
          subst same
          rcases above with first | ⟨same, above⟩
          · exact .inl first
          · exact .inr ⟨same, ih hx.2 hy.2 hz.2 each.2 below above⟩

theorem Value.Discrete.compare_lt_trans {a b c : Value} (ha : a.Discrete) (hb : b.Discrete)
    (hc : c.Discrete) (below : a.compare b = .ok (some .lt))
    (above : b.compare c = .ok (some .lt)) : a.compare c = .ok (some .lt) := by
  induction ha generalizing b c with
  | int n =>
    cases hb with
    | int m =>
      cases hc with
      | int k =>
        simp only [Value.compare, Except.ok.injEq, Option.some.injEq] at below above ⊢
        exact Std.TransCmp.lt_trans below above
      | _ => cases above
    | _ => cases below
  | str text =>
    cases hb with
    | str middle =>
      cases hc with
      | str last =>
        simp only [Value.compare, Except.ok.injEq, Option.some.injEq] at below above ⊢
        exact Std.TransCmp.lt_trans below above
      | _ => cases above
    | _ => cases below
  | list first ih =>
    cases hb with
    | list second =>
      cases hc with
      | list third =>
        exact compareItems_lt_trans first second third
          (fun x hx y z hy hz => ih x hx hy hz) below above
      | _ => cases above
    | _ => cases below
  | tuple first ih =>
    cases hb with
    | tuple second =>
      cases hc with
      | tuple third =>
        rw [Value.compare, compareElements_eq] at below above ⊢
        exact compareItems_lt_trans first second third
          (fun x hx y z hy hz => ih x hx hy hz) below above
      | _ => cases above
    | _ => cases below

/-- Discrete values are equal exactly when they are the same, none of them are without an order, and
the order is transitive: where the first does not stand above the second nor the second above the
third, the first and the third compare, and the first stands below if it does so in either step. -/
theorem compare_discrete {a b c : Value} (ha : a.Discrete) (hb : b.Discrete) (hc : c.Discrete) :
    (a.compare b = .ok (some .eq) ↔ a = b) ∧ a.compare b ≠ .ok none ∧
      ∀ first second : Ordering, first = .lt ∨ first = .eq → second = .lt ∨ second = .eq →
        a.compare b = .ok (some first) → b.compare c = .ok (some second) →
          a.compare c = .ok (some (if first = .lt ∨ second = .lt then .lt else .eq)) := by
  refine ⟨ha.compare_eq_iff hb, ha.compare_ne_none hb, ?_⟩
  rintro first second (rfl | rfl) (rfl | rfl) below above
  · exact ha.compare_lt_trans hb hc below above
  · rw [(hb.compare_eq_iff hc).1 above] at below
    exact below
  · rw [← (ha.compare_eq_iff hb).1 below] at above
    exact above
  · rw [← (ha.compare_eq_iff hb).1 below] at above
    exact above

/-- Lists whose second items decide, with items behind those that do not compare, and a longer
list. -/
theorem compare_discrete_lists :
    Value.compare (.list [.int 1, .str "a", .int 7]) (.list [.int 1, .str "b", .str "x"]) =
        .ok (some .lt) ∧
      Value.compare (.list [.int 1, .str "b", .str "x"])
          (.list [.int 1, .str "b", .str "x", .tuple .empty]) = .ok (some .lt) ∧
      Value.compare (.list [.int 1, .str "a", .int 7])
          (.list [.int 1, .str "b", .str "x", .tuple .empty]) = .ok (some .lt) := by
  have below : Value.compare (.list [.int 1, .str "a", .int 7])
      (.list [.int 1, .str "b", .str "x"]) = .ok (some .lt) := rfl
  have above : Value.compare (.list [.int 1, .str "b", .str "x"])
      (.list [.int 1, .str "b", .str "x", .tuple .empty]) = .ok (some .lt) := rfl
  have empty : Value.Discrete (.tuple .empty) := .tuple (by simp)
  have first : Value.Discrete (.list [.int 1, .str "a", .int 7]) :=
    .list (by simp [Value.Discrete.int, Value.Discrete.str])
  have second : Value.Discrete (.list [.int 1, .str "b", .str "x"]) :=
    .list (by simp [Value.Discrete.int, Value.Discrete.str])
  have third : Value.Discrete (.list [.int 1, .str "b", .str "x", .tuple .empty]) :=
    .list (by simp [Value.Discrete.int, Value.Discrete.str, empty])
  exact ⟨below, above,
    (compare_discrete first second third).2.2 .lt .lt (.inl rfl) (.inl rfl) below above⟩

end ShellExpr
