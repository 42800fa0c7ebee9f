import ShellExpr.Proofs.Operation.Formula

/-!
# Exact formulas

Trees of `+ - * / %` over integers.  The result is the exact integer as long as no part divides by
zero and 64 bits hold the value of every part.  Otherwise the result is the failure of the part
that is the first to be evaluated and has no such value.
-/

namespace ShellExpr

open Eval Machine Operation

/-! ### Two integers -/

namespace Operation

/-- The operators with an exact result between integers. -/
def integral : List Operator :=
  [.add, .sub, .mul, .div, .rem]

/-- The exact result.  The quotient is truncated towards zero, the remainder is what is left of the
dividend. -/
def exactRule? : Operator → Option (Int → Int → Int)
  | .add => some fun a b => a + b
  | .sub => some fun a b => a - b
  | .mul => some fun a b => a * b
  | .div => some fun a b => a.tdiv b
  | .rem => some fun a b => a - b * a.tdiv b
  | _ => none

theorem isSome_exactRule : ∀ op ∈ integral, (exactRule? op).isSome = true := by
  decide

def exactResult (op : Operator) (known : op ∈ integral) (a b : Int) : Int :=
  (exactRule? op).get (isSome_exactRule op known) a b

/-- Why two integers have no result: the divisor is zero, or 64 bits do not hold the result or the
quotient that a remainder rests on. -/
def fault? (op : Operator) (known : op ∈ integral) (a b : Int) : Option Value :=
  if op ∈ [.div, .rem] ∧ b = 0 then some Failure.divisionByZero
  else if Integer.Fits (exactResult op known a b) ∧ (op = .rem → Integer.Fits (a.tdiv b)) then none
  else some Failure.overflow

theorem fault?_eq_none_iff {op : Operator} {known : op ∈ integral} {a b : Int} :
    fault? op known a b = none ↔
      (op ∈ [.div, .rem] → b ≠ 0) ∧ Integer.Fits (exactResult op known a b) ∧
        (op = .rem → Integer.Fits (a.tdiv b)) := by
  unfold fault?
  split
  · rename_i zero
    exact iff_of_false (Option.some_ne_none _) fun sound => sound.1 zero.1 zero.2
  · rename_i nonzero
    rw [not_and] at nonzero
    split
    · rename_i fits
      exact iff_of_true rfl ⟨nonzero, fits⟩
    · rename_i unfit
      exact iff_of_false (Option.some_ne_none _) fun sound => unfit sound.2

theorem isError_of_fault? {op : Operator} {known : op ∈ integral} {a b : Int} {failure : Value}
    (h : fault? op known a b = some failure) : failure.isError = true := by
  unfold fault? at h
  split at h
  · cases h
    rfl
  · split at h
    · cases h
    · cases h
      rfl

theorem exact_eq (n : Int) :
    exact n = if Integer.Fits n then .int (Int64.ofInt n) else Failure.overflow := by
  unfold exact Integer.ofInt?
  split <;> rename_i fits <;> split at fits <;> simp_all

theorem toInt_eq_zero_iff (b : Int64) : b.toInt = 0 ↔ b = 0 :=
  Int64.toInt_inj (y := 0)

theorem broadcasting_of_integral : ∀ op ∈ integral, op ∈ broadcasting := by
  decide

/-- The exact result of two integers, or their fault. -/
theorem getD_fault? (op : Operator) (known : op ∈ integral) (a b : Int) :
    (fault? op known a b).getD (.int (Int64.ofInt (exactResult op known a b))) =
      if op ∈ [.div, .rem] ∧ b = 0 then Failure.divisionByZero
      else if op = .rem → Integer.Fits (a.tdiv b) then exact (exactResult op known a b)
      else Failure.overflow := by
  unfold fault?
  rw [exact_eq]
  split
  · rfl
  · by_cases quotient : op = .rem → Integer.Fits (a.tdiv b)
    · by_cases fits : Integer.Fits (exactResult op known a b)
      · rw [if_pos ⟨fits, quotient⟩, if_pos quotient, if_pos fits]
        rfl
      · rw [if_neg fun both => fits both.1, if_pos quotient, if_neg fits]
        rfl
    · rw [if_neg fun both => quotient both.2, if_neg quotient]
      rfl

/-- Between two integers an operator has its exact result, or a fault. -/
theorem rule_ints {op : Operator} (known : op ∈ integral) {rule : Rule}
    (h : broadcastRule? op = some rule) (a b : Int64) :
    rule (.int a) (.int b) =
      some ((fault? op known a.toInt b.toInt).getD
        (.int (Int64.ofInt (exactResult op known a.toInt b.toInt)))) := by
  rw [getD_fault?]
  have zero (divides : op ∈ [.div, .rem]) : (op ∈ [.div, .rem] ∧ b.toInt = 0) ↔ b = 0 := by
    rw [toInt_eq_zero_iff, and_iff_right divides]
  cases op <;> cases h
  case add => rfl
  case sub => rfl
  case mul => rfl
  case div =>
    rw [if_pos fun different => absurd different (by decide)]
    simp only [zero (by decide)]
    rfl
  case rem =>
    have remainder : exactResult .rem known a.toInt b.toInt = a.toInt.tmod b.toInt :=
      (Int.tmod_def a.toInt b.toInt).symm
    rw [remainder]
    simp only [zero (by decide), true_implies]
    rfl
  all_goals contradiction

theorem binary_ints (call : Call) {op : Operator} (known : op ∈ integral) (a b : Int64) :
    binary call op (.int a) (.int b) =
      pure ((fault? op known a.toInt b.toInt).getD
        (.int (Int64.ofInt (exactResult op known a.toInt b.toInt)))) := by
  obtain ⟨rule, found⟩ :=
    Option.isSome_iff_exists.1 (isSome_rule op (broadcasting_of_integral op known))
  rw [binary_of_rule found, broadcast?_scalars rfl rfl, rule_ints known found, ofOption_some]

/-- A failure on either side is passed on, the left one first. -/
theorem binary_error_left (call : Call) {op : Operator} (known : op ∈ broadcasting) {left : Value}
    (h : left.isError = true) (right : Value) : binary call op left right = pure left := by
  obtain ⟨rule, found⟩ := Option.isSome_iff_exists.1 (isSome_rule op known)
  rw [binary_of_rule found, broadcast?_error_left h, ofOption_some]

theorem binary_error_right (call : Call) {op : Operator} (known : op ∈ broadcasting)
    {left right : Value} (hl : ¬left.isError = true) (hr : right.isError = true) :
    binary call op left right = pure right := by
  obtain ⟨rule, found⟩ := Option.isSome_iff_exists.1 (isSome_rule op known)
  rw [binary_of_rule found, broadcast?_error_right hl hr, ofOption_some]

end Operation

/-! ### Trees -/

namespace Formula

def map {operators : List Operator} {α β : Type} (f : α → β) :
    Formula operators α → Formula operators β
  | leaf a => leaf (f a)
  | node op known left right => node op known (left.map f) (right.map f)

/-- The exact integer that a formula stands for. -/
def exactValue : Formula integral Int64 → Int
  | leaf n => n.toInt
  | node op known left right => exactResult op known left.exactValue right.exactValue

/-- A part that has its exact value if both sides have theirs. -/
def Sound : Formula integral Int64 → Prop
  | leaf _ => True
  | node op known left right =>
    (op ∈ [.div, .rem] → right.exactValue ≠ 0) ∧
      Integer.Fits (node op known left right).exactValue ∧
      (op = .rem → Integer.Fits (left.exactValue.tdiv right.exactValue))

/-- The failure of a part that is not sound. -/
def ownFault? : Formula integral Int64 → Option Value
  | leaf _ => none
  | node op known left right => fault? op known left.exactValue right.exactValue

/-- The value of a formula of integers. -/
def outcome (t : Formula integral Int64) : Value :=
  (t.nodes.findSome? ownFault?).getD (.int (Int64.ofInt t.exactValue))

theorem ownFault?_eq_none_iff (t : Formula integral Int64) : t.ownFault? = none ↔ t.Sound := by
  cases t with
  | leaf n => exact iff_of_true rfl trivial
  | node op known left right => exact fault?_eq_none_iff

theorem isError_of_findSome? {ts : List (Formula integral Int64)} {failure : Value}
    (h : ts.findSome? ownFault? = some failure) : failure.isError = true := by
  obtain ⟨t, _, fault⟩ := List.exists_of_findSome?_eq_some h
  cases t with
  | leaf n => cases fault
  | node op known left right => exact isError_of_fault? fault

theorem mem_nodes (t : Formula integral Int64) : t ∈ t.nodes := by
  cases t with
  | leaf n => exact List.mem_singleton_self _
  | node op known left right => exact List.mem_append_right _ (List.mem_singleton_self _)

/-- A formula whose parts are all sound has its exact value as an integer. -/
theorem toInt_exactValue {t : Formula integral Int64} (h : t.nodes.findSome? ownFault? = none) :
    (Int64.ofInt t.exactValue).toInt = t.exactValue := by
  have sound := (ownFault?_eq_none_iff t).1 (List.findSome?_eq_none_iff.1 h t t.mem_nodes)
  have fits : Integer.Fits t.exactValue := by
    cases t with
    | leaf n => exact Integer.fits_toInt n
    | node op known left right => exact sound.2.1
  exact Int64.toInt_ofInt_of_le fits.1 (Int.lt_add_one_of_le fits.2)

theorem eval_ints (call : Call) (t : Formula integral Int64) :
    (t.map Value.int).eval call = pure t.outcome := by
  induction t with
  | leaf n =>
    show pure (Value.int n) = pure (Value.int (Int64.ofInt n.toInt))
    rw [Int64.ofInt_toInt]
  | node op known left right ihl ihr =>
    have passes := broadcasting_of_integral op known
    rw [map, eval, ihl, ihr, pure_bind, pure_bind]
    unfold outcome
    rw [nodes, List.findSome?_append, List.findSome?_append]
    cases hl : left.nodes.findSome? ownFault? with
    | some failure => exact binary_error_left call passes (isError_of_findSome? hl) _
    | none =>
      cases hr : right.nodes.findSome? ownFault? with
      | some failure =>
        exact binary_error_right call passes Bool.false_ne_true (isError_of_findSome? hr)
      | none =>
        have last : [node op known left right].findSome? ownFault? =
            fault? op known left.exactValue right.exactValue := List.findSome?_singleton
        rw [Option.getD_none, Option.getD_none, binary_ints call known, toInt_exactValue hl,
          toInt_exactValue hr, Option.none_or, Option.none_or, last]
        rfl

/-- A formula of integers has the same value in every session.  It is an integer exactly if every
part is sound, and then it is the exact one; otherwise it is the failure of the first part in the
order of evaluation that is not. -/
theorem exact_or_first_fault (t : Formula integral Int64) :
    ∃ v, (∀ call, (t.map Value.int).eval call = pure v) ∧
      (∀ n, v = .int n ↔ (∀ part ∈ t.nodes, part.Sound) ∧ n.toInt = t.exactValue) ∧
      ((∃ part ∈ t.nodes, ¬part.Sound) →
        ∃ earlier part later, t.nodes = earlier ++ part :: later ∧
          (∀ other ∈ earlier, other.Sound) ∧ part.ownFault? = some v) := by
  have all_sound : t.nodes.findSome? ownFault? = none ↔ ∀ part ∈ t.nodes, part.Sound := by
    rw [List.findSome?_eq_none_iff]
    exact forall₂_congr fun part _ => ownFault?_eq_none_iff part
  refine ⟨t.outcome, fun call => eval_ints call t, ?_, ?_⟩
  · intro n
    rw [← all_sound]
    unfold outcome
    cases found : t.nodes.findSome? ownFault? with
    | some failure =>
      refine iff_of_false ?_ fun both => absurd both.1 (Option.some_ne_none failure)
      rintro rfl
      exact Bool.false_ne_true (isError_of_findSome? found)
    | none =>
      rw [Option.getD_none, Value.int.injEq, ← Int64.toInt_inj, toInt_exactValue found, eq_comm]
      exact (and_iff_right rfl).symm
  · rintro ⟨part, member, unsound⟩
    unfold outcome
    cases found : t.nodes.findSome? ownFault? with
    | some failure =>
      obtain ⟨earlier, first, later, split, fault, missed⟩ := List.findSome?_eq_some_iff.1 found
      have sound := fun other among => (ownFault?_eq_none_iff other).1 (missed other among)
      exact ⟨earlier, first, later, split, sound, fault⟩
    | none => exact absurd (all_sound.1 found part member) unsound

/-- The remainder of the least integer by minus one is zero, but its quotient is too large. -/
example :
    ownFault? (.node .rem (by decide) (.leaf Int64.minValue) (.leaf (-1))) =
      some Failure.overflow := by
  rfl

end Formula

end ShellExpr
