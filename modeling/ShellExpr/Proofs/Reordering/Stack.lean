import ShellExpr.Proofs.Tree
import ShellExpr.Postfix.Reorder

/-!
# The stack of the reordering pass

Which operators an arriving one applies, by what waits on the stack.  `Holding` says that a state
has read a tree: once the operators that wait above some part of the stack are applied, the items
of the tree stand behind those emitted before.
-/

namespace ShellExpr.Reordering

variable {α : Type}

/-! ### Items behind items -/

theorem emit_nil (emitted : List (Postfix α)) : emit [] emitted = emitted := rfl

theorem emit_append (items later emitted : List (Postfix α)) :
    emit (items ++ later) emitted = emit later (emit items emitted) := by
  unfold emit
  rw [List.reverse_append, List.append_assoc]

/-! ### The bottom of a group and of a statement -/

/-- No operator of the innermost group waits. -/
def GroupBottom (pending : List Pending) : Prop :=
  ∀ op below, pending ≠ .operator op :: below

/-- No operator of the current statement waits: the topmost one, if any, is a `;`. -/
def StatementBottom (pending : List Pending) : Prop :=
  ∀ op below, pending = .operator op :: below → op = .sequence

theorem groupBottom_nil : GroupBottom [] := by
  intro op below h
  cases h

theorem groupBottom_opening (below : List Pending) : GroupBottom (.opening :: below) := by
  intro op rest h
  cases h

theorem GroupBottom.statement {pending : List Pending} (h : GroupBottom pending) :
    StatementBottom pending := by
  intro op below same
  exact absurd same (h op below)

theorem statementBottom_sequence (below : List Pending) :
    StatementBottom (.operator .sequence :: below) := by
  intro op rest h
  cases h
  rfl

/-! ### What an arriving operator applies -/

theorem applied_groupBottom {pending : List Pending} (h : GroupBottom pending)
    (incoming : Operator) (floor : Option Nat) :
    applied incoming floor pending = ([], pending) := by
  unfold applied
  split
  · exact absurd rfl (h _ _)
  · rfl

theorem sequence_not_appliesBefore {incoming : Operator} (h : incoming ≠ .sequence) :
    Operator.appliesBefore .sequence incoming = false := by
  revert h
  cases incoming <;> decide

theorem appliesBefore_sequence (op : Operator) : op.appliesBefore .sequence = true := by
  cases op <;> decide

theorem applied_statementBottom {pending : List Pending} (h : StatementBottom pending)
    {incoming : Operator} (other : incoming ≠ .sequence) {floor : Option Nat}
    (low : aboveFloor floor pending = false) :
    applied incoming floor pending = ([], pending) := by
  unfold applied
  split
  · rename_i top below
    have same : top = .sequence := h top below rfl
    rw [low, same, sequence_not_appliesBefore other]
    rfl
  · rfl

/-- Operators on top that are weaker or above the floor are all applied. -/
theorem applied_append {incoming : Operator} {floor : Option Nat} {ops : List Operator}
    {below : List Pending}
    (h : ∀ upper op lower, ops = upper ++ op :: lower →
      aboveFloor floor (.operator op :: (lower.map .operator ++ below)) ||
        op.appliesBefore incoming) :
    applied incoming floor (ops.map .operator ++ below) =
      (ops ++ (applied incoming floor below).1, (applied incoming floor below).2) := by
  induction ops with
  | nil => rfl
  | cons op ops ih =>
    have rest := ih fun upper other lower same =>
      h (op :: upper) other lower (by rw [same, List.cons_append])
    rw [List.map_cons, List.cons_append, applied, if_pos (h [] op ops rfl), rest]
    rfl

theorem applied_weaker {incoming : Operator} {ops : List Operator}
    (h : ∀ op ∈ ops, op.appliesBefore incoming = true) (floor : Option Nat)
    (below : List Pending) :
    applied incoming floor (ops.map .operator ++ below) =
      (ops ++ (applied incoming floor below).1, (applied incoming floor below).2) := by
  apply applied_append
  intro upper op lower same
  rw [h op (by simp [same]), Bool.or_true]

theorem applied_above {depth : Nat} {below : List Pending} (h : depth ≤ below.length)
    (incoming : Operator) (ops : List Operator) :
    applied incoming (some depth) (ops.map .operator ++ below) =
      (ops ++ (applied incoming (some depth) below).1,
        (applied incoming (some depth) below).2) := by
  apply applied_append
  intro upper op lower same
  have high : aboveFloor (some depth) (.operator op :: (lower.map .operator ++ below)) = true := by
    simp only [aboveFloor, List.length_cons, List.length_append, decide_eq_true_eq]
    omega
  rw [high, Bool.true_or]

theorem unwind_append (ops : List Operator) (below : List Pending) :
    unwind (ops.map .operator ++ below) = (ops ++ (unwind below).1, (unwind below).2) := by
  induction ops with
  | nil => rfl
  | cons op ops ih =>
    rw [List.map_cons, List.cons_append, unwind, ih]
    rfl

/-! ### Reading trees -/

/-- A tree behind the items so far. -/
def readTree (s : Reordering α) (tree : Tree α) : Reordering α :=
  { s with
    emitted := emit tree.postorder s.emitted
    atStart := false }

/-- A unit.  An application at the start of a statement gives its group a floor. -/
def readUnit (s : Reordering α) (applied : Bool) (tree : Tree α) : Reordering α :=
  { s.readTree tree with
    floors :=
      if applied && s.atStart then setFloor (some s.pending.length) s.floors else s.floors }

theorem readUnit_plain (s : Reordering α) (tree : Tree α) :
    s.readUnit false tree = s.readTree tree := rfl

/-- A unit behind something else of its statement. -/
theorem readUnit_later {s : Reordering α} (h : s.atStart = false) (applied : Bool)
    (tree : Tree α) : s.readUnit applied tree = s.readTree tree := by
  unfold readUnit
  rw [h, Bool.and_false]
  rfl

theorem addUnit_application (s : Reordering α) (head : α) (first : Tree α) (more : List (Tree α))
    (rest : List α) :
    s.addUnit head ⟨Tree.postorderAll (first :: more), more.length + 1, rest⟩ =
      s.readUnit true (.application head first more) := by
  unfold addUnit readUnit readTree
  rw [if_neg (Nat.succ_ne_zero _), Tree.postorder_application, emit_append]
  rfl

/-- In `s` the operators `ops` wait above `below`.  With them applied, the items of `tree` stand
behind `emitted`.  The groups around the innermost one have the floors `outer`. -/
structure Holding (s : Reordering α) (ops : List Operator) (tree : Tree α)
    (emitted : List (Postfix α)) (below : List Pending) (outer : List (Option Nat)) : Prop where
  pending : s.pending = ops.map .operator ++ below
  emitted : emit (ops.map .operator) s.emitted = emit tree.postorder emitted
  floors : ∃ floor, s.floors = floor :: outer

/-- An operator that applies all that waits above `below` finds the tree complete. -/
theorem Holding.pushOperator {s : Reordering α} {ops : List Operator} {tree : Tree α}
    {emitted : List (Postfix α)} {below : List Pending} {outer : List (Option Nat)}
    (h : s.Holding ops tree emitted below outer) {incoming : Operator}
    (all : applied incoming s.floors.head?.join (ops.map .operator ++ below) = (ops, below)) :
    s.pushOperator incoming =
      { emitted := emit tree.postorder emitted
        pending := .operator incoming :: below
        floors := if incoming = .sequence then setFloor none s.floors else s.floors
        atStart := incoming = .sequence } := by
  unfold Reordering.pushOperator
  rw [h.pending, all]
  simp only [h.emitted]

/-- At the end of the tokens, or at the closing parenthesis of a group, the operators that wait
complete the tree. -/
theorem Holding.unwind {s : Reordering α} {ops : List Operator} {tree : Tree α}
    {emitted : List (Postfix α)} {below : List Pending} {outer : List (Option Nat)}
    (h : s.Holding ops tree emitted below outer) :
    Reordering.unwind s.pending = (ops ++ (Reordering.unwind below).1, (Reordering.unwind below).2) := by
  rw [h.pending, unwind_append]

theorem Holding.closeGroup {s : Reordering α} {ops : List Operator} {tree : Tree α}
    {emitted : List (Postfix α)} {below : List Pending} {outer : List (Option Nat)}
    (h : s.Holding ops tree emitted (.opening :: below) outer) :
    s.closeGroup = .ok ⟨emit tree.postorder emitted, below, outer, false⟩ := by
  obtain ⟨floor, floors⟩ := h.floors
  unfold Reordering.closeGroup
  rw [h.unwind, Reordering.unwind, List.append_nil]
  simp only [h.emitted, floors, List.tail_cons]

theorem Holding.finish {s : Reordering α} {ops : List Operator} {tree : Tree α}
    {outer : List (Option Nat)} (h : s.Holding ops tree [] [] outer) :
    s.finish = .ok tree.postorder := by
  unfold Reordering.finish
  rw [h.unwind, Reordering.unwind, List.append_nil]
  show Except.ok (s.emitted.reverse ++ ops.map .operator) = _
  rw [← reverse_emit, h.emitted, reverse_emit, List.reverse_nil, List.nil_append]

end ShellExpr.Reordering
