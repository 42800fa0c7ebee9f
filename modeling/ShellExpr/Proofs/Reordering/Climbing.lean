import ShellExpr.Proofs.Grammar
import ShellExpr.Proofs.Reordering.Stack

/-!
# Climbing on the stack

The pass reads the chain of a statement operator by operator.  Without a floor it leaves on the
stack the operators that precedence climbing has open at that moment, so it builds the tree that
`climb` builds.  Above a floor every operator applies the one before it, so it builds the tree that
`chained` builds.
-/

namespace ShellExpr

variable {α : Type}

namespace Reordering

/-- The operators of a chain with the units behind them, one after the other. -/
def readChain (s : Reordering α) (chain : Chain α) : Reordering α :=
  chain.foldl (fun s operation => (s.pushOperator operation.1).readTree operation.2) s

theorem readChain_cons (s : Reordering α) (op : Operator) (unit : Tree α) (later : Chain α) :
    s.readChain ((op, unit) :: later) = ((s.pushOperator op).readTree unit).readChain later := rfl

/-! ### Without a floor -/

/-- Operators that wait and are weaker than the next one may as well be applied before it. -/
theorem pushOperator_flush {s : Reordering α} {ops : List Operator} {below : List Pending}
    (pending : s.pending = ops.map .operator ++ below) (flat : s.floors.head?.join = none)
    {incoming : Operator} (weaker : ∀ op ∈ ops, op.appliesBefore incoming = true) :
    s.pushOperator incoming =
      Reordering.pushOperator
        { s with
          emitted := emit (ops.map .operator) s.emitted
          pending := below } incoming := by
  unfold Reordering.pushOperator
  rw [pending, flat, applied_weaker weaker]
  simp only [List.map_append, emit_append]

/-- Where reading a chain stands when climbing behind the waiting operator is done: the pass goes on
with what climbing leaves, and the operators on the stack by then are those that complete the tree
and that the next operator applies. -/
structure Climbed (s next : Reordering α) (ops : List Operator) (chain : Chain α)
    (result : Tree α × Chain α) (emitted : List (Postfix α)) (outer : List (Option Nat)) :
    Prop where
  rest : s.readChain chain = next.readChain result.2
  holding : next.Holding ops result.1 emitted s.pending outer
  flat : next.floors = s.floors
  weaker : ∀ op unit later, result.2 = (op, unit) :: later →
    ∀ top ∈ ops, top.appliesBefore op = true

/-- Nothing is read: the state holds the left operand with no operator behind it. -/
theorem Climbed.stop {s : Reordering α} {left : Tree α} {chain : Chain α}
    {emitted : List (Postfix α)} {outer : List (Option Nat)}
    (read : s.emitted = emit left.postorder emitted) (floors : s.floors = none :: outer) :
    Climbed s s [] chain (left, chain) emitted outer where
  rest := rfl
  holding := ⟨rfl, read, none, floors⟩
  flat := rfl
  weaker := by
    intro op unit later _ top member
    contradiction

/-- An operator that is taken goes on the stack with its first right operand behind it. -/
theorem pushOperator_taken {s : Reordering α} {outer : List (Option Nat)}
    (floors : s.floors = none :: outer) {op : Operator} (other : op ≠ .sequence)
    (taken : applied op none s.pending = ([], s.pending)) (unit : Tree α) :
    (s.pushOperator op).readTree unit =
      { emitted := emit unit.postorder s.emitted
        pending := .operator op :: s.pending
        floors := s.floors
        atStart := false } := by
  unfold Reordering.pushOperator readTree
  rw [floors]
  simp only [List.head?_cons, Option.join_some, taken, if_neg other, List.map_nil, emit_nil]

/-- An operator on top stays there when one arrives that it takes. -/
theorem applied_taken {op incoming : Operator} (h : op.takes incoming = true)
    (below : List Pending) :
    applied incoming none (.operator op :: below) = ([], .operator op :: below) := by
  have stays : op.appliesBefore incoming = false := by
    rw [Operator.appliesBefore_eq_not_takes, h]
    rfl
  rw [applied]
  simp only [aboveFloor, stays, Bool.or_self, Bool.false_eq_true, if_false]

/-- Climbing behind an operator reads its right operand, and with it the whole operation. -/
theorem Climbed.holding_node {s next : Reordering α} {op : Operator} {left unit : Tree α}
    {later : Chain α} {ops : List Operator} {result : Tree α × Chain α}
    {emitted : List (Postfix α)} {outer : List (Option Nat)}
    (h : Climbed ((s.pushOperator op).readTree unit) next ops later result s.emitted outer)
    (pushed : (s.pushOperator op).readTree unit =
      { emitted := emit unit.postorder s.emitted
        pending := .operator op :: s.pending
        floors := s.floors
        atStart := false })
    (read : s.emitted = emit left.postorder emitted) (floors : s.floors = none :: outer) :
    next.Holding (ops ++ [op]) (.node op left result.1) emitted s.pending outer where
  pending := by
    rw [h.holding.pending, pushed, List.map_append, List.append_assoc]
    rfl
  emitted := by
    rw [List.map_append, emit_append, h.holding.emitted, read, Tree.postorder_node, emit_append,
      emit_append]
    rfl
  floors := by
    refine ⟨none, ?_⟩
    rw [h.flat, pushed, floors]

/-- Behind an operator stands one that it does not take, and that applies it. -/
theorem Climbed.weaker_taken {s next : Reordering α} {op : Operator} {unit : Tree α}
    {later : Chain α} {ops : List Operator} {emitted : List (Postfix α)}
    {outer : List (Option Nat)}
    (h : Climbed s next ops later (climb (some op) unit later) emitted outer) {incoming : Operator}
    {operand : Tree α} {rest : Chain α}
    (behind : (climb (some op) unit later).2 = (incoming, operand) :: rest) :
    ∀ top ∈ ops ++ [op], top.appliesBefore incoming = true := by
  intro top member
  rcases List.mem_append.1 member with above | at_op
  · exact h.weaker incoming operand rest behind top above
  · have not_taken : op.takes incoming = false := climb_rest_not_taken behind
    rw [List.mem_singleton.1 at_op, Operator.appliesBefore_eq_not_takes, not_taken]
    rfl

/-- Reading a chain in a group without a floor, with `left` read behind the waiting operator, is
climbing. -/
theorem readChain_climb (waiting : Option Operator) (left : Tree α) (chain : Chain α)
    (others : ∀ operation ∈ chain, operation.1 ≠ .sequence) (s : Reordering α)
    (emitted : List (Postfix α)) (outer : List (Option Nat))
    (read : s.emitted = emit left.postorder emitted) (floors : s.floors = none :: outer)
    (takes : ∀ op : Operator, op ≠ .sequence → takenBy waiting op = true →
      applied op none s.pending = ([], s.pending)) :
    ∃ next ops, Climbed s next ops chain (climb waiting left chain) emitted outer := by
  induction waiting, left, chain using climb_induction generalizing s emitted with
  | nil waiting left =>
    rw [climb_nil]
    exact ⟨s, [], .stop read floors⟩
  | stop waiting left op unit later not_taken =>
    rw [climb_cons_not_taken not_taken]
    exact ⟨s, [], .stop read floors⟩
  | take waiting left op unit later taken inner outer_ih =>
    have other : op ≠ .sequence := others (op, unit) List.mem_cons_self
    have later_others : ∀ operation ∈ later, operation.1 ≠ .sequence := by
      intro operation member
      exact others operation (List.mem_cons_of_mem _ member)
    have pushed := pushOperator_taken floors other (takes op other taken) unit
    -- The right operand of the operator, read by climbing behind it.
    obtain ⟨read_right, right_ops, hr⟩ := inner later_others ((s.pushOperator op).readTree unit)
      s.emitted (by rw [pushed]) (by rw [pushed, floors])
      (by rw [pushed]; exact fun next _ hnext => applied_taken hnext s.pending)
    have holds := hr.holding_node pushed read floors
    have right_floors : read_right.floors = s.floors := by
      rw [hr.flat, pushed]
    have right_rest : s.readChain ((op, unit) :: later) =
        read_right.readChain (climb (some op) unit later).2 := by
      rw [readChain_cons, hr.rest]
    rw [climb_cons_taken taken]
    cases hb : (climb (some op) unit later).2 with
    | nil =>
      rw [climb_nil]
      refine ⟨read_right, right_ops ++ [op], ?_, holds, right_floors, ?_⟩
      · rw [right_rest, hb]
      · intro next operand rest nothing
        contradiction
    | cons operation rest =>
      obtain ⟨next, operand⟩ := operation
      -- With its operators applied early, the state has read the left operand of the next one.
      obtain ⟨last, ops, hl⟩ := outer_ih
        (fun later_operation member => later_others later_operation
          ((climb_rest_suffix (some op) unit later).subset member))
        { read_right with
          emitted := emit ((right_ops ++ [op]).map .operator) read_right.emitted
          pending := s.pending }
        emitted holds.emitted (right_floors.trans floors) takes
      rw [hb] at hl
      refine ⟨last, ops, ?_, hl.holding, hl.flat.trans right_floors, hl.weaker⟩
      rw [← hl.rest, right_rest, hb, readChain_cons, readChain_cons,
        pushOperator_flush holds.pending (by rw [right_floors, floors]; rfl) (hr.weaker_taken hb)]

/-! ### Above a floor -/

/-- Above the floor of its group every operator applies the one before it. -/
theorem readChain_chained {below : List Pending} (bottom : StatementBottom below)
    {emitted : List (Postfix α)} {outer : List (Option Nat)} (chain : Chain α)
    (others : ∀ operation ∈ chain, operation.1 ≠ .sequence) (left : Tree α) (s : Reordering α)
    (ops : List Operator) (floors : s.floors = some below.length :: outer)
    (h : s.Holding ops left emitted below outer) :
    ∃ waiting, (s.readChain chain).Holding waiting (chained left chain) emitted below outer := by
  induction chain generalizing left s ops with
  | nil => exact ⟨ops, h⟩
  | cons operation later ih =>
    obtain ⟨op, unit⟩ := operation
    have other : op ≠ .sequence := others (op, unit) List.mem_cons_self
    have low : aboveFloor (some below.length) below = false := by
      simp only [aboveFloor, Nat.lt_irrefl, decide_false]
    have all : applied op s.floors.head?.join (ops.map .operator ++ below) = (ops, below) := by
      rw [floors]
      show applied op (some below.length) (ops.map .operator ++ below) = (ops, below)
      rw [applied_above (Nat.le_refl _), applied_statementBottom bottom other low, List.append_nil]
    have pushed := h.pushOperator all
    rw [readChain_cons]
    apply ih (fun operation member => others operation (List.mem_cons_of_mem _ member))
      (.node op left unit) ((s.pushOperator op).readTree unit) [op]
    · rw [pushed]
      show (if op = .sequence then setFloor none s.floors else s.floors) = _
      rw [if_neg other, floors]
    · rw [pushed]
      refine ⟨rfl, ?_, some below.length, ?_⟩
      · rw [Tree.postorder_node, emit_append, emit_append]
        rfl
      · show (if op = .sequence then setFloor none s.floors else s.floors) = _
        rw [if_neg other, floors]

/-! ### Statements -/

/-- A program or a statement may start here. -/
structure Starts (s : Reordering α) (outer : List (Option Nat)) : Prop where
  floors : s.floors = none :: outer
  atStart : s.atStart = true

/-- The first unit of a statement and the chain behind it make up the tree of the statement. -/
theorem holding_statement {s : Reordering α} {outer : List (Option Nat)} (starts : s.Starts outer)
    (bottom : StatementBottom s.pending) (applied : Bool) (first : Tree α) {chain : Chain α}
    (others : ∀ operation ∈ chain, operation.1 ≠ .sequence) :
    ∃ ops, ((s.readUnit applied first).readChain chain).Holding ops
      (statementTree applied first chain) s.emitted s.pending outer := by
  cases applied with
  | true =>
    have floors : (s.readUnit true first).floors = some s.pending.length :: outer := by
      unfold readUnit
      rw [starts.atStart, starts.floors]
      rfl
    exact readChain_chained bottom chain others first (s.readUnit true first) [] floors
      ⟨rfl, rfl, some s.pending.length, floors⟩
  | false =>
    rw [readUnit_plain]
    obtain ⟨next, ops, h⟩ := readChain_climb none first chain others (s.readTree first) s.emitted
      outer rfl starts.floors
      (fun op other _ => applied_statementBottom bottom other rfl)
    have read : (s.readTree first).readChain chain = next := by
      rw [h.rest, climb_none_rest]
      rfl
    rw [read]
    exact ⟨ops, h.holding⟩

end Reordering

end ShellExpr
