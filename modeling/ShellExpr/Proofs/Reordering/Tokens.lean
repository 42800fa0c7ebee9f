import Mathlib.Algebra.Order.Group.Multiset
import Mathlib.Tactic.Abel
import ShellExpr.Proofs.Reordering.Arguments

/-!
# The tokens of a reordered expression

Reordering changes the order of the operands and operators of an expression and drops its
parentheses, and that is all it does.  Items are counted as multisets: what is emitted, what waits
on the stack and what is still ahead make up the same multiset after every step.
-/

namespace ShellExpr

variable {α : Type}

/-! ### Items as tokens -/

/-- The item as a single token: an application as its head. -/
def Postfix.unit : Postfix α → Postfix α
  | operand token => operand token
  | operator op => operator op
  | apply head _ => operand head

/-- The item that a token becomes.  Parentheses become none. -/
def tokenItem? [Symbol α] (token : α) : Option (Postfix α) :=
  match Symbol.role token with
  | .operand => some (.operand token)
  | .operator op => some (.operator op)
  | .opening | .closing => none

/-- The operands and operators among some tokens. -/
def tokenItems [Symbol α] (tokens : List α) : Multiset (Postfix α) :=
  ↑(tokens.filterMap tokenItem?)

/-- The tokens that some items stand for. -/
def units (items : List (Postfix α)) : Multiset (Postfix α) :=
  ↑(items.map Postfix.unit)

theorem units_append (first second : List (Postfix α)) :
    units (first ++ second) = units first + units second := by
  rw [units, List.map_append, ← Multiset.coe_add, units, units]

theorem units_cons (item : Postfix α) (items : List (Postfix α)) :
    units (item :: items) = {item.unit} + units items :=
  units_append [item] items

theorem units_reverse (items : List (Postfix α)) : units items.reverse = units items := by
  rw [units, units, Multiset.coe_eq_coe]
  exact items.reverse_perm.map Postfix.unit

theorem tokenItems_append [Symbol α] (first second : List α) :
    tokenItems (first ++ second) = tokenItems first + tokenItems second := by
  rw [tokenItems, List.filterMap_append, ← Multiset.coe_add, tokenItems, tokenItems]

theorem tokenItems_cons [Symbol α] (token : α) (tokens : List α) :
    tokenItems (token :: tokens) = tokenItems [token] + tokenItems tokens :=
  tokenItems_append [token] tokens

theorem tokenItems_operand [Symbol α] {token : α} (role : Symbol.role token = .operand) :
    tokenItems [token] = {.operand token} := by
  simp [tokenItems, tokenItem?, role]

theorem tokenItems_operator [Symbol α] {token : α} {op : Operator}
    (role : Symbol.role token = .operator op) : tokenItems [token] = {.operator op} := by
  simp [tokenItems, tokenItem?, role]

theorem tokenItems_opening [Symbol α] {token : α} (role : Symbol.role token = .opening) :
    tokenItems [token] = 0 := by
  simp [tokenItems, tokenItem?, role]

theorem tokenItems_closing [Symbol α] {token : α} (role : Symbol.role token = .closing) :
    tokenItems [token] = 0 := by
  simp [tokenItems, tokenItem?, role]

namespace Reordering

/-! ### The stack -/

theorem applied_split (incoming : Operator) (floor : Option Nat) (pending : List Pending) :
    (applied incoming floor pending).1.map .operator ++ (applied incoming floor pending).2 =
      pending := by
  induction pending with
  | nil => rfl
  | cons top below ih =>
    cases top with
    | opening => rfl
    | operator op =>
      rw [applied]
      split
      · simp only [List.map_cons, List.cons_append, ih]
      · rfl

theorem unwind_split {pending : List Pending} {ops : List Operator}
    {below : Option (List Pending)} (h : unwind pending = (ops, below)) :
    pending = ops.map .operator ++ (below.map (Pending.opening :: ·)).getD [] := by
  induction pending generalizing ops with
  | nil =>
    cases h
    rfl
  | cons top pending ih =>
    cases top with
    | opening =>
      cases h
      rfl
    | operator op =>
      cases h
      rw [List.map_cons, List.cons_append, ← ih rfl]

/-- Where no group is open, all that waits are operators. -/
theorem eq_operators_of_unwind {pending : List Pending} {ops : List Operator}
    (h : unwind pending = (ops, none)) : pending = ops.map .operator :=
  (unwind_split h).trans (List.append_nil _)

/-- The item that an entry of the stack becomes. -/
def pendingItem? : Pending → Option (Postfix α)
  | .operator op => some (.operator op)
  | .opening => none

/-- The operators that wait on a stack. -/
def waiting (pending : List Pending) : Multiset (Postfix α) :=
  ↑(pending.filterMap pendingItem? : List (Postfix α))

theorem waiting_append (upper lower : List Pending) :
    waiting (upper ++ lower) = (waiting upper + waiting lower : Multiset (Postfix α)) := by
  rw [waiting, List.filterMap_append, ← Multiset.coe_add, waiting, waiting]

theorem waiting_operators (ops : List Operator) :
    waiting (ops.map .operator) = (units (ops.map .operator) : Multiset (Postfix α)) := by
  have each : (pendingItem? ∘ Pending.operator : Operator → Option (Postfix α)) =
      some ∘ Postfix.unit ∘ Postfix.operator := rfl
  rw [waiting, units, List.filterMap_map, List.map_map, each, List.filterMap_eq_map]

theorem waiting_opening (below : List Pending) :
    waiting (.opening :: below) = (waiting below : Multiset (Postfix α)) := rfl

theorem waiting_operator (op : Operator) (below : List Pending) :
    waiting (.operator op :: below) = ({.operator op} + waiting below : Multiset (Postfix α)) :=
  rfl

/-! ### One step -/

/-- What a state has read: the items it has emitted and the operators that wait. -/
def held (s : Reordering α) : Multiset (Postfix α) :=
  units s.emitted + waiting s.pending

theorem units_emit (items emitted : List (Postfix α)) :
    units (emit items emitted) = units items + units emitted := by
  rw [emit, units_append, units_reverse]

theorem held_pushOperator (s : Reordering α) (op : Operator) :
    (s.pushOperator op).held = s.held + {.operator op} := by
  have parts := applied_split op s.floors.head?.join s.pending
  unfold held
  conv_rhs => rw [← parts, waiting_append, waiting_operators]
  unfold pushOperator
  simp only [units_emit, waiting_operator]
  abel

theorem held_closeGroup {s closed : Reordering α} (h : s.closeGroup = .ok closed) :
    closed.held = s.held := by
  obtain ⟨ops, below, unwound, rfl⟩ := exists_of_closeGroup h
  unfold held
  rw [unwind_split unwound, waiting_append, waiting_operators]
  simp only [units_emit, Option.map_some, Option.getD_some, waiting_opening]
  abel

theorem units_finish {s : Reordering α} {items : List (Postfix α)} (h : s.finish = .ok items) :
    units items = s.held := by
  obtain ⟨ops, unwound, rfl⟩ := exists_of_finish h
  rw [held, eq_operators_of_unwind unwound, waiting_operators, units_append, output, units_reverse]

/-! ### Arguments -/

variable [Symbol α] {group : List α → Except FatalError (List (Postfix α))}

/-- The items of a group are its tokens. -/
def Conserves (group : List α → Except FatalError (List (Postfix α))) : Prop :=
  ∀ inner items, group inner = .ok items → units items = tokenItems inner

theorem units_arguments (conserves : Conserves group) {tokens : List α} {args : Arguments α}
    (h : arguments group tokens = .ok args) :
    units args.items + tokenItems args.rest = tokenItems tokens := by
  rw [arguments_eq_ok_iff] at h
  induction h with
  | nothing ends => exact zero_add _
  | operand role _ ih =>
    rw [tokenItems_cons, tokenItems_operand role, ← ih, units_cons, add_assoc]
    rfl
  | @group left right inner rest items more opening _ _ closing inside _ ih =>
    rw [tokenItems_cons, tokenItems_opening opening, tokenItems_append, tokenItems_cons right,
      tokenItems_closing closing, ← ih, ← conserves inner items inside, units_append]
    abel

/-- Without arguments there are no items of arguments. -/
theorem items_of_arity_zero {tokens : List α} {args : Arguments α}
    (h : arguments group tokens = .ok args) (zero : args.arity = 0) : args.items = [] := by
  cases arguments_eq_ok_iff.1 h with
  | nothing => rfl
  | operand => contradiction
  | group => contradiction

theorem held_addUnit (s : Reordering α) (head : α) {tokens : List α} {args : Arguments α}
    (h : arguments group tokens = .ok args) :
    (s.addUnit head args).held = s.held + {.operand head} + units args.items := by
  unfold addUnit held
  split
  · rename_i zero
    rw [items_of_arity_zero h zero]
    simp only [units_cons, Postfix.unit]
    show _ = _ + (0 : Multiset (Postfix α))
    abel
  · simp only [units_cons, units_emit, Postfix.unit]
    abel

/-- A step takes in what it reads and lets go of nothing. -/
theorem held_step (conserves : Conserves group) {s next : Reordering α} {token : α}
    {rest behind : List α} (h : step group s token rest = .ok (next, behind)) :
    next.held + tokenItems behind = s.held + tokenItems (token :: rest) := by
  cases step_eq_ok_iff.1 h with
  | operator role =>
    rw [held_pushOperator, tokenItems_cons, tokenItems_operator role, add_assoc]
  | opening role =>
    rw [tokenItems_cons, tokenItems_opening role, zero_add]
    rfl
  | closing role closes =>
    rw [held_closeGroup closes, tokenItems_cons, tokenItems_closing role, zero_add]
  | operand role read =>
    rw [held_addUnit s token read, tokenItems_cons, tokenItems_operand role,
      ← units_arguments conserves read]
    abel

/-! ### All tokens -/

theorem units_run (conserves : Conserves group) {s : Reordering α} {tokens : List α}
    {items : List (Postfix α)} (h : run group s tokens = .ok items) :
    units items = s.held + tokenItems tokens := by
  let total := s.held + tokenItems tokens
  obtain ⟨last, conserved, finished⟩ :=
    finish_of_run (fun s tokens => s.held + tokenItems tokens = total)
      (fun same found => (held_step conserves found).trans same) rfl h
  rw [units_finish finished]
  exact (add_zero _).symm.trans conserved

theorem conserves_reorderWithin (limit : Nat) :
    Conserves (reorderWithin limit : List α → Except FatalError (List (Postfix α))) := by
  induction limit with
  | zero =>
    intro tokens items h
    refine (units_run ?_ h).trans (zero_add _)
    intro inner items refused
    contradiction
  | succ limit ih =>
    intro tokens items h
    exact (units_run ih h).trans (zero_add _)

end Reordering

/-! ### Whole expressions -/

variable [Symbol α]

/-- The items of an expression are its operands and operators, each as often as it stands in the
expression. -/
theorem units_reorder {tokens : List α} {items : List (Postfix α)}
    (h : reorder tokens = .ok items) :
    units items = tokenItems tokens :=
  Reordering.conserves_reorderWithin tokens.length tokens items h

theorem exists_token_of_mem {tokens : List α} {items : List (Postfix α)}
    (h : reorder tokens = .ok items) {item : Postfix α} (member : item ∈ items) :
    ∃ token ∈ tokens, tokenItem? token = some item.unit := by
  have among : item.unit ∈ units items := by
    rw [units, Multiset.mem_coe]
    exact List.mem_map_of_mem member
  rw [units_reorder h, tokenItems, Multiset.mem_coe, List.mem_filterMap] at among
  exact among

theorem tokenItem?_eq_operand {token other : α} (h : tokenItem? token = some (.operand other)) :
    token = other := by
  unfold tokenItem? at h
  split at h <;> cases h
  rfl

/-- The operands of the items stand among the tokens. -/
theorem mem_of_operand {tokens : List α} {items : List (Postfix α)} (h : reorder tokens = .ok items)
    {token : α} (member : .operand token ∈ items) : token ∈ tokens := by
  obtain ⟨other, among, item⟩ := exists_token_of_mem h member
  rwa [← tokenItem?_eq_operand item]

/-- So do the heads of the applications. -/
theorem mem_of_apply {tokens : List α} {items : List (Postfix α)} (h : reorder tokens = .ok items)
    {head : α} {arity : Nat} (member : .apply head arity ∈ items) : head ∈ tokens := by
  obtain ⟨other, among, item⟩ := exists_token_of_mem h member
  rwa [← tokenItem?_eq_operand item]

theorem exists_operator_token {tokens : List α} {items : List (Postfix α)}
    (h : reorder tokens = .ok items) {op : Operator} (member : .operator op ∈ items) :
    ∃ token ∈ tokens, Symbol.role token = .operator op := by
  obtain ⟨token, among, item⟩ := exists_token_of_mem h member
  refine ⟨token, among, ?_⟩
  unfold tokenItem? at item
  split at item <;> cases item
  assumption

end ShellExpr
