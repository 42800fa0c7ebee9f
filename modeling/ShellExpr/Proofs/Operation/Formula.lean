import Mathlib.Tactic.ByContra
import ShellExpr.Proofs.Operation.Broadcast

/-!
# Formulas

Trees of operators between two operands, with values at the leaves.  Between operators that extend
to lists no failure is lost and none is buried in another one: in the order in which the parts of a
formula are evaluated, the first failure is the result.  A formula has no value at all exactly where
a text is repeated to a size that no text has.
-/

namespace ShellExpr

open Machine Operation

/-- A tree of operators out of a list, over leaves of any type. -/
inductive Formula (operators : List Operator) (α : Type) where
  | leaf (a : α)
  | node (op : Operator) (known : op ∈ operators) (left right : Formula operators α)

namespace Formula

/-- The formula and every formula in it, both sides of an operator in front of the whole. -/
def nodes {operators : List Operator} {α : Type} :
    Formula operators α → List (Formula operators α)
  | leaf a => [leaf a]
  | node op known left right => left.nodes ++ right.nodes ++ [node op known left right]

/-- Evaluates both sides of an operator, and then applies it. -/
def eval {operators : List Operator} (call : Call) : Formula operators Value → Eval Value
  | leaf v => pure v
  | node op _ left right => do
    let l ← left.eval call
    let r ← right.eval call
    binary call op l r

/-! ### Operators that extend to lists -/

/-- The value of a formula, which needs no session, if there is one. -/
def value? : Formula broadcasting Value → Option Value
  | leaf v => some v
  | node op known left right => do
    let l ← left.value?
    let r ← right.value?
    broadcast? ((broadcastRule? op).get (isSome_rule op known)) l r

/-- Somewhere in the formula both sides of an operator have values in which a text and a count meet
whose repetition has a size that no text has. -/
def Oversizes (t : Formula broadcasting Value) : Prop :=
  ∃ op known left right, node op known left right ∈ t.nodes ∧
    ∃ l r, left.value? = some l ∧ right.value? = some r ∧ MeetsOversized op l r

theorem eval_eq_ofOption (call : Call) (t : Formula broadcasting Value) :
    t.eval call = Eval.ofOption t.value? := by
  induction t with
  | leaf v => rfl
  | node op known left right ihl ihr =>
    rw [eval, value?, ihl, ihr]
    cases left.value? with
    | none => rfl
    | some l =>
      cases right.value? with
      | none => rfl
      | some r => exact binary_of_rule (Option.some_get _).symm call l r

/-! ### Formulas without a value -/

theorem value?_node_eq_none_iff {op : Operator} {known : op ∈ broadcasting}
    {left right : Formula broadcasting Value} :
    (node op known left right).value? = none ↔
      left.value? = none ∨ right.value? = none ∨
        ∃ l r, left.value? = some l ∧ right.value? = some r ∧ MeetsOversized op l r := by
  have found : broadcastRule? op = some ((broadcastRule? op).get (isSome_rule op known)) :=
    (Option.some_get _).symm
  rw [value?]
  cases left.value? with
  | none => simp
  | some l =>
    cases right.value? with
    | none => simp
    | some r => simp [← broadcast?_rule_eq_none_iff found]

theorem oversizes_node_iff {op : Operator} {known : op ∈ broadcasting}
    {left right : Formula broadcasting Value} :
    (node op known left right).Oversizes ↔
      left.Oversizes ∨ right.Oversizes ∨
        ∃ l r, left.value? = some l ∧ right.value? = some r ∧ MeetsOversized op l r := by
  simp only [Oversizes, nodes, List.mem_append, List.mem_singleton]
  constructor
  · rintro ⟨op', known', left', right', (among | among) | same, meets⟩
    · exact .inl ⟨op', known', left', right', among, meets⟩
    · exact .inr (.inl ⟨op', known', left', right', among, meets⟩)
    · cases same
      exact .inr (.inr meets)
  · rintro (⟨op', known', left', right', among, meets⟩ |
      ⟨op', known', left', right', among, meets⟩ | meets)
    · exact ⟨op', known', left', right', .inl (.inl among), meets⟩
    · exact ⟨op', known', left', right', .inl (.inr among), meets⟩
    · exact ⟨op, known, left, right, .inr rfl, meets⟩

theorem value?_eq_none_iff (t : Formula broadcasting Value) : t.value? = none ↔ t.Oversizes := by
  induction t with
  | leaf v =>
    refine iff_of_false nofun ?_
    rintro ⟨op, known, left, right, member, _⟩
    cases List.mem_singleton.1 member
  | node op known left right ihl ihr => rw [value?_node_eq_none_iff, oversizes_node_iff, ihl, ihr]

/-! ### The first failure -/

/-- A formula with a value has one in each part, and the first failure among them is its value. -/
theorem exists_values {t : Formula broadcasting Value} {v : Value} (h : t.value? = some v) :
    ∃ vs, t.nodes.mapM value? = some vs ∧
      vs.find? Value.isError = if v.isError = true then some v else none := by
  induction t generalizing v with
  | leaf w =>
    cases h
    exact ⟨[w], rfl, List.find?_singleton⟩
  | node op known left right ihl ihr =>
    obtain ⟨l, hl, r, hr, result⟩ : ∃ l, left.value? = some l ∧ ∃ r, right.value? = some r ∧
        broadcast? ((broadcastRule? op).get (isSome_rule op known)) l r = some v := by
      simpa only [value?, Option.bind_eq_bind, Option.bind_eq_some_iff] using h
    obtain ⟨ls, lefts, firstLeft⟩ := ihl hl
    obtain ⟨rs, rights, firstRight⟩ := ihr hr
    refine ⟨ls ++ rs ++ [v], ?_, ?_⟩
    · simp [nodes, lefts, rights, h]
    rw [List.find?_append, List.find?_append, firstLeft, firstRight, List.find?_singleton]
    by_cases left_fails : l.isError = true
    · rw [broadcast?_error_left left_fails, Option.some.injEq] at result
      rw [← result, if_pos left_fails]
      rfl
    by_cases right_fails : r.isError = true
    · rw [broadcast?_error_right left_fails right_fails, Option.some.injEq] at result
      rw [← result, if_neg left_fails, if_pos right_fails]
      rfl
    · rw [if_neg left_fails, if_neg right_fails]
      rfl

theorem isError_iff_of_find? {v : Value} {vs : List Value}
    (h : vs.find? Value.isError = if v.isError = true then some v else none) :
    v.isError = true ↔ ∃ u ∈ vs, u.isError = true := by
  constructor
  · intro failed
    rw [if_pos failed] at h
    exact ⟨v, List.mem_of_find?_eq_some h, failed⟩
  · rintro ⟨u, member, failed⟩
    by_contra valued
    rw [if_neg valued, List.find?_eq_none] at h
    exact h u member failed

/-- A formula has a value in every session, the same in each, unless a text is repeated in it to a
size that no text has.  That value is a failure exactly if that of some part is one; it is then the
first of them. -/
theorem first_failure (t : Formula broadcasting Value) :
    (∀ (call : Call) (n : Formula broadcasting Value), n.eval call = Eval.ofOption n.value?) ∧
      (t.value? = none ↔ t.Oversizes) ∧
      ∀ v, t.value? = some v → ∃ vs, t.nodes.mapM value? = some vs ∧
        (v.isError = true ↔ ∃ u ∈ vs, u.isError = true) ∧
        vs.find? Value.isError = if v.isError = true then some v else none := by
  refine ⟨eval_eq_ofOption, value?_eq_none_iff t, ?_⟩
  intro v h
  obtain ⟨vs, values, first⟩ := exists_values h
  exact ⟨vs, values, isError_iff_of_find? first, first⟩

/-- A division by zero in front of a failure, and a text of two bytes repeated 2 ^ 62 times in front
of one. -/
theorem first_failure_late :
    (node .add (by decide) (node .div (by decide) (leaf (.int 1)) (leaf (.int 0)))
        (leaf (.error "late")) : Formula broadcasting Value).value? = some Failure.divisionByZero ∧
      (∃ vs : List Value, vs.find? Value.isError = some Failure.divisionByZero ∧
        (node .add (by decide) (node .div (by decide) (leaf (.int 1)) (leaf (.int 0)))
          (leaf (.error "late")) : Formula broadcasting Value).nodes.mapM value? = some vs) ∧
      ∀ call s, ((node .add (by decide) (node .mul (by decide) (leaf (.str "ab"))
        (leaf (.int 4611686018427387904))) (leaf (.error "late")) :
          Formula broadcasting Value).eval call).run s = none := by
  refine ⟨rfl, ?_, ?_⟩
  · obtain ⟨vs, values, _, first⟩ := (first_failure
      (node .add (by decide) (node .div (by decide) (leaf (.int 1)) (leaf (.int 0)))
        (leaf (.error "late")))).2.2 Failure.divisionByZero rfl
    exact ⟨vs, first, values⟩
  · intro call s
    obtain ⟨evaluated, breaks, _⟩ := first_failure
      (node .add (by decide) (node .mul (by decide) (leaf (.str "ab"))
        (leaf (.int 4611686018427387904))) (leaf (.error "late")))
    rw [evaluated, breaks.2, Eval.run_ofOption_none]
    exact ⟨.mul, by decide, leaf (.str "ab"), leaf (.int 4611686018427387904), by simp [nodes],
      _, _, rfl, rfl, _, _, .scalars rfl rfl, .repeated (by decide +kernel)⟩

end Formula

end ShellExpr
