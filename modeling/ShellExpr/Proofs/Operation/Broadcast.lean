import Mathlib.Data.List.Forall2
import ShellExpr.Machine
import ShellExpr.Proofs.Operation.Results
import ShellExpr.Proofs.Value.Nested

/-!
# Broadcasting by the form of the operands

What an operator makes of failures, scalars and lists, one equation for each form.  A rule with
results for some values only leaves lists without a result exactly where scalars that it has no
result for meet in them.  Of the operators that extend to lists that happens to the product alone.
-/

namespace ShellExpr

/-! ### Results for all items -/

theorem mapM_eq_none_iff {α β : Type} {f : α → Option β} {as : List α} :
    as.mapM f = none ↔ ∃ a ∈ as, f a = none := by
  induction as with
  | nil => simp
  | cons a as ih =>
    simp only [List.mapM_cons, List.mem_cons, exists_eq_or_imp, ← ih]
    cases f a with
    | none => simp
    | some b => cases as.mapM f <;> simp

theorem mapM_congr {α β : Type} {f g : α → Option β} {as : List α} (h : ∀ a ∈ as, f a = g a) :
    as.mapM f = as.mapM g := by
  induction as with
  | nil => rfl
  | cons a as ih =>
    rw [List.forall_mem_cons] at h
    rw [List.mapM_cons, List.mapM_cons, h.1, ih h.2]

/-- Results that are related item by item, or none on either side. -/
theorem rel_mapM {α β γ δ : Type} {r : β → δ → Prop} {f : α → Option β} {g : γ → Option δ}
    {as : List α} {cs : List γ}
    (each : List.Forall₂ (fun a c => Option.Rel r (f a) (g c)) as cs) :
    Option.Rel (List.Forall₂ r) (as.mapM f) (cs.mapM g) := by
  induction each with
  | nil => exact .some .nil
  | @cons a c as cs first _ ih =>
    rw [List.mapM_cons, List.mapM_cons]
    generalize f a = b, g c = d at first
    generalize as.mapM f = bs, cs.mapM g = ds at ih
    cases first with
    | none => exact .none
    | some first =>
      cases ih with
      | none => exact .none
      | some rest => exact .some (.cons first rest)

/-! ### One equation for each form -/

section

variable {rule : Rule} {s t : Value} {xs ys : List Value}

theorem broadcast?_error_left {left : Value} (h : left.isError = true) (right : Value) :
    broadcast? rule left right = some left := by
  cases left with
  | error message => rfl
  | _ => contradiction

theorem broadcast?_error_right {left right : Value} (hl : ¬left.isError = true)
    (hr : right.isError = true) : broadcast? rule left right = some right := by
  cases right with
  | error message => cases left <;> first | rfl | exact absurd rfl hl
  | _ => contradiction

theorem not_isError_of_isScalar (h : s.isScalar = true) : ¬s.isError = true := by
  cases s <;> first | contradiction | exact Bool.false_ne_true

theorem broadcast?_scalars (hs : s.isScalar = true) (ht : t.isScalar = true) :
    broadcast? rule s t = rule s t := by
  cases s <;> first | contradiction | (cases t <;> first | contradiction | rfl)

theorem broadcast?_scalar_right (scalar : s.isScalar = true) (v : Value) :
    broadcast? rule v s = mapLeaves? (fun x => rule x s) v := by
  cases v with
  | error message => rfl
  | _ => cases s <;> first | rfl | contradiction

theorem broadcast?_scalar_left (scalar : s.isScalar = true) (v : Value) :
    broadcast? rule s v = mapLeaves? (rule s) v := by
  cases s <;> first | contradiction | (cases v <;> rfl)

theorem broadcast?_list_scalar (scalar : s.isScalar = true) (xs : List Value) :
    broadcast? rule (.list xs) s = (xs.mapM fun x => broadcast? rule x s).map .list := by
  have leaves : mapLeaves? (fun x => rule x s) = fun x => broadcast? rule x s :=
    funext fun x => (broadcast?_scalar_right scalar x).symm
  rw [broadcast?_scalar_right scalar, mapLeaves?, mapItems?_eq, leaves]

theorem broadcast?_scalar_list (scalar : s.isScalar = true) (ys : List Value) :
    broadcast? rule s (.list ys) = (ys.mapM (broadcast? rule s)).map .list := by
  have leaves : mapLeaves? (rule s) = broadcast? rule s :=
    funext fun y => (broadcast?_scalar_left scalar y).symm
  rw [broadcast?_scalar_left scalar, mapLeaves?, mapItems?_eq, leaves]

theorem broadcast?_lists (h : xs.length = ys.length) :
    broadcast? rule (.list xs) (.list ys) =
      ((xs.zip ys).mapM fun pair => broadcast? rule pair.1 pair.2).map .list := by
  rw [← broadcastItems?_eq]
  exact if_pos h

theorem broadcast?_mismatch (h : xs.length ≠ ys.length) :
    broadcast? rule (.list xs) (.list ys) = some Failure.sizeMismatch :=
  if_neg h

end

/-! ### Scalars that meet -/

/-- The scalars `x` and `y` are combined where an operator extends to two values. -/
inductive Meet (x y : Value) : Value → Value → Prop where
  | scalars (hx : x.isScalar = true) (hy : y.isScalar = true) : Meet x y x y
  | listScalar {xs : List Value} {v s : Value} (member : v ∈ xs) (scalar : s.isScalar = true)
      (within : Meet x y v s) : Meet x y (.list xs) s
  | scalarList {ys : List Value} {v s : Value} (member : v ∈ ys) (scalar : s.isScalar = true)
      (within : Meet x y s v) : Meet x y s (.list ys)
  | lists {xs ys : List Value} {u v : Value} (same : xs.length = ys.length)
      (pair : (u, v) ∈ xs.zip ys) (within : Meet x y u v) : Meet x y (.list xs) (.list ys)

section

variable {rule : Rule} {x y s left right : Value}

theorem broadcast?_eq_none_of_meet (meet : Meet x y left right) (h : rule x y = none) :
    broadcast? rule left right = none := by
  induction meet with
  | scalars hx hy => rw [broadcast?_scalars hx hy, h]
  | listScalar member scalar _ ih =>
    rw [broadcast?_list_scalar scalar, Option.map_eq_none_iff, mapM_eq_none_iff]
    exact ⟨_, member, ih⟩
  | scalarList member scalar _ ih =>
    rw [broadcast?_scalar_list scalar, Option.map_eq_none_iff, mapM_eq_none_iff]
    exact ⟨_, member, ih⟩
  | lists same pair _ ih =>
    rw [broadcast?_lists same, Option.map_eq_none_iff, mapM_eq_none_iff]
    exact ⟨_, pair, ih⟩

/-- Scalars meet that the rule has no result for. -/
def Rule.MeetsGap (rule : Rule) (left right : Value) : Prop :=
  ∃ x y, Meet x y left right ∧ rule x y = none

/-- The rule has a result for every two values that are not both scalars. -/
def Rule.GapsAreScalar (rule : Rule) : Prop :=
  ∀ x y, rule x y = none → x.isScalar = true ∧ y.isScalar = true

variable (scalars : rule.GapsAreScalar)

include scalars

theorem Rule.GapsAreScalar.meets (h : rule left right = none) : rule.MeetsGap left right := by
  obtain ⟨hl, hr⟩ := scalars left right h
  exact ⟨left, right, .scalars hl hr, h⟩

theorem meetsGap_of_scalar_left (scalar : s.isScalar = true) (v : Value)
    (h : broadcast? rule s v = none) : rule.MeetsGap s v := by
  induction v using Value.nested with
  | list items ih =>
    rw [broadcast?_scalar_list scalar, Option.map_eq_none_iff, mapM_eq_none_iff] at h
    obtain ⟨v, member, gap⟩ := h
    obtain ⟨x, y, meet, none⟩ := ih v member gap
    exact ⟨x, y, .scalarList member scalar meet, none⟩
  | error message =>
    rw [broadcast?_scalar_left scalar] at h
    contradiction
  | _ =>
    rw [broadcast?_scalar_left scalar] at h
    exact scalars.meets h

theorem meetsGap_of_scalar_right (scalar : s.isScalar = true) (v : Value)
    (h : broadcast? rule v s = none) : rule.MeetsGap v s := by
  induction v using Value.nested with
  | list items ih =>
    rw [broadcast?_list_scalar scalar, Option.map_eq_none_iff, mapM_eq_none_iff] at h
    obtain ⟨v, member, gap⟩ := h
    obtain ⟨x, y, meet, none⟩ := ih v member gap
    exact ⟨x, y, .listScalar member scalar meet, none⟩
  | error message =>
    rw [broadcast?_scalar_right scalar] at h
    contradiction
  | _ =>
    rw [broadcast?_scalar_right scalar] at h
    exact scalars.meets h

/-- Broadcasting has a result unless scalars meet that the rule has none for. -/
theorem broadcast?_eq_none_iff : broadcast? rule left right = none ↔ rule.MeetsGap left right := by
  constructor
  · intro h
    induction left using Value.nested generalizing right with
    | list items ih =>
      cases right with
      | list others =>
        by_cases same : items.length = others.length
        · rw [broadcast?_lists same, Option.map_eq_none_iff, mapM_eq_none_iff] at h
          obtain ⟨⟨u, v⟩, pair, gap⟩ := h
          obtain ⟨x, y, meet, none⟩ := ih u (List.of_mem_zip pair).1 gap
          exact ⟨x, y, .lists same pair meet, none⟩
        · rw [broadcast?_mismatch same] at h
          contradiction
      | int n => exact meetsGap_of_scalar_right scalars rfl _ h
      | real r => exact meetsGap_of_scalar_right scalars rfl _ h
      | str text => exact meetsGap_of_scalar_right scalars rfl _ h
      | error message => contradiction
      | _ => exact scalars.meets h
    | int n => exact meetsGap_of_scalar_left scalars rfl right h
    | real r => exact meetsGap_of_scalar_left scalars rfl right h
    | str text => exact meetsGap_of_scalar_left scalars rfl right h
    | error message => contradiction
    | _ =>
      -- Tuples and functions never meet the items of a list.
      cases right with
      | error message => contradiction
      | _ => exact scalars.meets h
  · rintro ⟨x, y, meet, none⟩
    exact broadcast?_eq_none_of_meet meet none

end

/-! ### Rules with results for all values -/

section

variable {rule : Value → Value → Value} {s t : Value} {xs ys : List Value}

theorem isSome_broadcast?_total (rule : Value → Value → Value) (left right : Value) :
    (broadcast? (.total rule) left right).isSome = true := by
  have scalars : (Rule.total rule).GapsAreScalar := fun x y gap => nomatch gap
  rw [Option.isSome_iff_ne_none]
  intro h
  obtain ⟨x, y, _, gap⟩ := (broadcast?_eq_none_iff scalars).1 h
  contradiction

/-- What broadcasting makes of two values with a rule that has a result for all values. -/
def broadcast (rule : Value → Value → Value) (left right : Value) : Value :=
  (broadcast? (.total rule) left right).get (isSome_broadcast?_total rule left right)

theorem broadcast?_total (rule : Value → Value → Value) (left right : Value) :
    broadcast? (.total rule) left right = some (broadcast rule left right) :=
  (Option.some_get _).symm

theorem broadcast_eq {left right v : Value} (h : broadcast? (.total rule) left right = some v) :
    broadcast rule left right = v := by
  rw [broadcast?_total] at h
  exact Option.some.inj h

theorem broadcast_error_left {left : Value} (h : left.isError = true) (right : Value) :
    broadcast rule left right = left :=
  broadcast_eq (broadcast?_error_left h right)

theorem broadcast_error_right {left right : Value} (hl : ¬left.isError = true)
    (hr : right.isError = true) : broadcast rule left right = right :=
  broadcast_eq (broadcast?_error_right hl hr)

theorem broadcast_scalars (hs : s.isScalar = true) (ht : t.isScalar = true) :
    broadcast rule s t = rule s t :=
  broadcast_eq (broadcast?_scalars hs ht)

theorem broadcast_list_scalar (scalar : s.isScalar = true) (xs : List Value) :
    broadcast rule (.list xs) s = .list (xs.map fun x => broadcast rule x s) := by
  apply broadcast_eq
  simp only [broadcast?_list_scalar scalar, broadcast?_total]
  exact congrArg (Option.map Value.list) List.mapM_pure

theorem broadcast_scalar_list (scalar : s.isScalar = true) (ys : List Value) :
    broadcast rule s (.list ys) = .list (ys.map (broadcast rule s)) := by
  have each : broadcast? (.total rule) s = fun y => some (broadcast rule s y) :=
    funext (broadcast?_total rule s)
  apply broadcast_eq
  rw [broadcast?_scalar_list scalar, each]
  exact congrArg (Option.map Value.list) List.mapM_pure

theorem broadcast_lists (h : xs.length = ys.length) :
    broadcast rule (.list xs) (.list ys) = .list (List.zipWith (broadcast rule) xs ys) := by
  apply broadcast_eq
  simp only [broadcast?_lists h, broadcast?_total]
  calc _ = some (.list ((xs.zip ys).map fun pair => broadcast rule pair.1 pair.2)) :=
      congrArg (Option.map Value.list) List.mapM_pure
    _ = _ := congrArg (fun zs => some (Value.list zs)) List.map_zip_eq_zipWith

theorem broadcast_mismatch (h : xs.length ≠ ys.length) :
    broadcast rule (.list xs) (.list ys) = Failure.sizeMismatch :=
  broadcast_eq (broadcast?_mismatch h)

end

/-! ### Operators -/

namespace Operation

open Machine

/-- The operators that extend to lists. -/
def broadcasting : List Operator :=
  [.add, .sub, .mul, .div, .rem, .pow, .bitAnd, .bitOr, .shl, .shr, .and, .or, .concat]

theorem isSome_rule : ∀ op ∈ broadcasting, (broadcastRule? op).isSome = true := by
  decide

theorem binary_of_rule {op : Operator} {rule : Rule} (h : broadcastRule? op = some rule)
    (call : Call) (left right : Value) :
    binary call op left right = Eval.ofOption (broadcast? rule left right) := by
  unfold binary
  rw [h]

theorem binary_of_total {op : Operator} {rule : Value → Value → Value}
    (h : broadcastRule? op = some (.total rule)) (call : Call) (left right : Value) :
    binary call op left right = pure (broadcast rule left right) := by
  rw [binary_of_rule h, broadcast?_total, Eval.ofOption_some]

theorem rule_eq_none_iff {op : Operator} {rule : Rule} (h : broadcastRule? op = some rule)
    {x y : Value} : rule x y = none ↔ Oversized op x y := by
  cases op <;> cases h
  case mul => exact mul_eq_none_iff
  all_goals exact iff_of_false nofun nofun

/-- Scalars meet whose repetition has a size that no text has. -/
def MeetsOversized (op : Operator) (left right : Value) : Prop :=
  ∃ x y, Meet x y left right ∧ Oversized op x y

theorem broadcast?_rule_eq_none_iff {op : Operator} {rule : Rule}
    (h : broadcastRule? op = some rule) {left right : Value} :
    broadcast? rule left right = none ↔ MeetsOversized op left right := by
  have scalars : rule.GapsAreScalar := by
    intro x y gap
    cases (rule_eq_none_iff h).1 gap <;> exact ⟨rfl, rfl⟩
  rw [broadcast?_eq_none_iff scalars]
  exact exists₂_congr fun x y => and_congr_right' (rule_eq_none_iff h)

end Operation

end ShellExpr
