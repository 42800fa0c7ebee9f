import ShellExpr.Proofs.Height
import ShellExpr.Proofs.Reordering.Balance
import ShellExpr.Proofs.Reordering.Derivation
import ShellExpr.Proofs.Reordering.Rows
import ShellExpr.Proofs.Reordering.Tokens

/-!
# The rise of a reordered expression

What a state of the pass has read raises the stack by the sum of the rows of the groups that are
open.  Each row rises no further than its place allows, so the items of tokens whose groups stand
apart raise the stack by one at most, and by one only if the grammar derives the tokens.
-/

namespace ShellExpr

namespace Reordering

variable {α : Type}

/-! ### What a state has read -/

/-- The operators that wait on a stack, from the top down. -/
def waitingItems (pending : List Pending) : List (Postfix α) :=
  pending.filterMap pendingItem?

theorem waitingItems_append (upper lower : List Pending) :
    waitingItems (upper ++ lower) =
      (waitingItems upper ++ waitingItems lower : List (Postfix α)) :=
  List.filterMap_append

theorem waitingItems_operators (ops : List Operator) :
    waitingItems (ops.map .operator) = (ops.map .operator : List (Postfix α)) := by
  have each : (pendingItem? ∘ Pending.operator : Operator → Option (Postfix α)) =
      some ∘ Postfix.operator := rfl
  rw [waitingItems, List.filterMap_map, each, List.filterMap_eq_map]

/-- By how much the items of a state raise the stack, together with the operators that wait. -/
def heldRise (s : Reordering α) : Int :=
  rise s.emitted + rise (waitingItems s.pending : List (Postfix α))

theorem rise_emit (items emitted : List (Postfix α)) :
    rise (emit items emitted) = rise items + rise emitted := by
  rw [emit, rise_append, rise_reverse]

theorem heldRise_pushOperator (s : Reordering α) (op : Operator) :
    (s.pushOperator op).heldRise = s.heldRise - 1 := by
  have parts := applied_split op s.floors.head?.join s.pending
  have arriving (below : List Pending) : rise (waitingItems (.operator op :: below) :
      List (Postfix α)) = -1 + rise (waitingItems below : List (Postfix α)) :=
    rise_cons (.operator op) (waitingItems below)
  unfold heldRise
  conv_rhs => rw [← parts, waitingItems_append, waitingItems_operators, rise_append]
  unfold pushOperator
  simp only [rise_emit, arriving]
  omega

theorem heldRise_closeGroup {s closed : Reordering α} (h : s.closeGroup = .ok closed) :
    closed.heldRise = s.heldRise := by
  obtain ⟨ops, below, unwound, rfl⟩ := exists_of_closeGroup h
  have opening : (waitingItems (.opening :: below) : List (Postfix α)) = waitingItems below :=
    rfl
  unfold heldRise
  rw [unwind_split unwound, waitingItems_append, waitingItems_operators, rise_append]
  simp only [rise_emit, Option.map_some, Option.getD_some, opening]
  omega

theorem rise_finish {s : Reordering α} {items : List (Postfix α)} (h : s.finish = .ok items) :
    rise items = s.heldRise ∧ openGroups s.pending = 0 := by
  refine ⟨?_, openGroups_finish h⟩
  obtain ⟨ops, unwound, rfl⟩ := exists_of_finish h
  rw [heldRise, eq_operators_of_unwind unwound, waitingItems_operators, rise_append, output,
    rise_reverse]

/-! ### Arguments -/

variable [Symbol α] {group : List α → Except FatalError (List (Postfix α))}

theorem heldRise_addUnit (s : Reordering α) (head : α) {tokens : List α} {args : Arguments α}
    (h : arguments group tokens = .ok args) :
    (s.addUnit head args).heldRise = s.heldRise + (1 + (rise args.items - args.arity)) := by
  unfold addUnit heldRise
  split
  · rename_i zero
    rw [items_of_arity_zero h zero, zero]
    simp only [rise_cons, rise_nil, Postfix.taken]
    omega
  · simp only [rise_cons, rise_emit, Postfix.taken]
    omega

/-- Of tokens fewer than `limit` whose groups stand apart, `group` makes items that raise the stack
by one at most, and by one only if the grammar derives the tokens. -/
def Weighs (group : List α → Except FatalError (List (Postfix α))) (limit : Nat) : Prop :=
  ∀ inner : List α, inner.length < limit → GroupsApart inner →
    ∀ items, group inner = .ok items → Reaches 1 (IsProgram inner) (rise items)

theorem Weighs.mono {limit smaller : Nat} (h : Weighs group limit) (le : smaller ≤ limit) :
    Weighs group smaller := by
  intro inner short
  exact h inner (Nat.lt_of_lt_of_le short le)

/-- A run of arguments is read as far as it goes, and rises by one for each of them at most. -/
theorem arguments_reaches {tokens : List α} (weighs : Weighs group tokens.length)
    {enclosing : List Bool} (apart : ((⟨.applied, enclosing⟩ : Place).after tokens).isSome)
    {args : Arguments α} (h : arguments group tokens = .ok args) :
    ∃ used, tokens = used ++ args.rest ∧ Ends args.rest ∧
      ((⟨.applied, enclosing⟩ : Place).after args.rest).isSome ∧
      Reaches 0 (AreArguments used) (rise args.items - args.arity) := by
  rw [arguments_eq_ok_iff] at h
  induction h with
  | nothing ends => exact ⟨[], rfl, ends, apart, .exactly (.inl rfl)⟩
  | @operand token rest more role _ ih =>
    rw [Place.after_cons, role] at apart
    obtain ⟨used, rfl, ends, apart_rest, reaches⟩ := ih (weighs.mono (Nat.le_succ _)) apart
    refine ⟨token :: used, rfl, ends, apart_rest, ?_⟩
    have same : rise (.operand token :: more.items) - ((more.arity + 1 : Nat) : Int) =
        rise more.items - more.arity := by
      rw [rise_cons, Postfix.taken]
      omega
    show Reaches 0 _ (rise (.operand token :: more.items) - ((more.arity + 1 : Nat) : Int))
    rw [same]
    exact reaches.mono fun others => others.cons (.operand role)
  | @group left right inner rest items more opening balanced _ closing reordered _ ih =>
    rw [Place.after_group opening balanced closing Front.noConfusion] at apart
    split at apart
    · rename_i apart_inner
      have short : inner.length < (left :: (inner ++ right :: rest)).length := by
        simp only [List.length_cons, List.length_append]
        omega
      have shorter : rest.length ≤ (left :: (inner ++ right :: rest)).length := by
        simp only [List.length_cons, List.length_append]
        omega
      obtain ⟨used, rfl, ends, apart_rest, reaches⟩ := ih (weighs.mono shorter) apart
      refine ⟨left :: inner ++ [right] ++ used, by simp, ends, apart_rest, ?_⟩
      have inside := weighs inner short apart_inner items reordered
      have same : rise (items ++ more.items) - ((more.arity + 1 : Nat) : Int) =
          -1 + rise items + (rise more.items - more.arity) := by
        rw [rise_append]
        omega
      have cost : Reaches (-1) True (-1) := .exactly trivial
      show Reaches 0 _ (rise (items ++ more.items) - ((more.arity + 1 : Nat) : Int))
      rw [same]
      refine ((cost.add inside).add reaches).mono ?_
      rintro ⟨⟨_, tree, derives⟩, others⟩
      exact others.cons (.group opening derives closing)
    · contradiction

/-! ### The rows of the open groups -/

/-- A group up to the opening parenthesis of the group inside it that is read next. -/
structure Outer (α : Type) where
  row : List α
  left : α
  rise : Int

/-- The tokens that were read, by the rows of the groups that are open, the innermost first. -/
def readTokens (row : List α) : List (Outer α) → List α
  | [] => row
  | outer :: others => readTokens (outer.row ++ outer.left :: row) others

omit [Symbol α] in
theorem readTokens_append (row more : List α) (outer : List (Outer α)) :
    readTokens (row ++ more) outer = readTokens row outer ++ more := by
  induction outer generalizing row with
  | nil => rfl
  | cons first others ih =>
    rw [readTokens, readTokens, ← ih, List.append_assoc, List.cons_append]

/-- A state has read the rows of the groups that are open, none of which is an argument, and a
further argument does not follow. -/
structure Rows (s : Reordering α) (place : Place) (row : List α) (height : Int)
    (outer : List (Outer α)) (ahead : List α) : Prop where
  row : Row place.front row height
  around : ∀ o ∈ outer, Symbol.role o.left = .opening ∧ Row .free o.row o.rise
  enclosing : place.enclosing = outer.map fun _ => false
  groups : openGroups s.pending = outer.length
  held : s.heldRise = height + (outer.map Outer.rise).sum
  ends : place.front = .applied → Ends ahead

theorem rows_start (tokens : List α) :
    Rows (start : Reordering α) .start [] 0 [] tokens where
  row := row_nil
  around := by simp
  enclosing := rfl
  groups := rfl
  held := rfl
  ends := Front.noConfusion

section

variable {s : Reordering α} {place : Place} {row : List α} {height : Int}
  {outer : List (Outer α)} {token : α} {rest : List α}

theorem Rows.pushOperator (h : s.Rows place row height outer (token :: rest)) {op : Operator}
    (role : Symbol.role token = .operator op) :
    (s.pushOperator op).Rows ⟨.free, place.enclosing⟩ (row ++ [token]) (height - 1) outer rest where
  row := h.row.operator role
  around := h.around
  enclosing := h.enclosing
  groups := by rw [openGroups_pushOperator, h.groups]
  held := by
    rw [heldRise_pushOperator, h.held]
    omega
  ends := Front.noConfusion

/-- A token that belongs to a unit stands at the start of the group or behind an operator. -/
theorem Rows.free (h : s.Rows place row height outer (token :: rest))
    (unit : Symbol.role token = .operand ∨ Symbol.role token = .opening)
    (apart : (place.after (token :: rest)).isSome) : place.front = .free := by
  cases front : place.front with
  | free => rfl
  | applied =>
    obtain ⟨no_operand, no_opening⟩ := h.ends front token rest rfl
    rcases unit with role | role
    · exact absurd role no_operand
    · exact absurd role no_opening
  | group =>
    rw [Place.after_cons] at apart
    rcases unit with role | role
    · rw [role, Place.next?, if_pos front] at apart
      contradiction
    · rw [role, Place.next?, if_pos front] at apart
      contradiction

theorem Rows.openGroup (h : s.Rows place row height outer (token :: rest))
    (role : Symbol.role token = .opening) (free : place.front = .free) :
    s.openGroup.Rows ⟨.free, false :: place.enclosing⟩ [] 0 (⟨row, token, height⟩ :: outer)
      rest where
  row := row_nil
  around := by
    have first := h.row
    rw [free] at first
    exact List.forall_mem_cons.2 ⟨⟨role, first⟩, h.around⟩
  enclosing := by rw [h.enclosing, List.map_cons]
  groups := by
    show openGroups (.opening :: s.pending) = _
    rw [openGroups_opening, h.groups, List.length_cons]
  held := by
    show s.heldRise = 0 + (height + (outer.map Outer.rise).sum)
    rw [h.held, Int.zero_add]
  ends := Front.noConfusion

theorem Rows.closeGroup {o : Outer α} (h : s.Rows place row height (o :: outer) (token :: rest))
    (role : Symbol.role token = .closing) {closed : Reordering α}
    (closes : s.closeGroup = .ok closed) :
    closed.Rows ⟨.group, outer.map fun _ => false⟩ (o.row ++ (o.left :: row ++ [token]))
      (o.rise + height) outer rest where
  row := by
    obtain ⟨opening, first⟩ := h.around o List.mem_cons_self
    exact first.unit Front.noConfusion
      (h.row.program.mono fun program => program.group opening role)
  around := fun other member => h.around other (List.mem_cons_of_mem o member)
  enclosing := rfl
  groups := Nat.succ.inj ((openGroups_closeGroup closes).symm.trans h.groups)
  held := by
    rw [heldRise_closeGroup closes, h.held, List.map_cons, List.sum_cons]
    omega
  ends := Front.noConfusion

theorem Rows.addUnit (h : s.Rows place row height outer (token :: rest))
    (role : Symbol.role token = .operand) (free : place.front = .free) {used : List α}
    {args : Arguments α} (found : arguments group rest = .ok args) (ends : Ends args.rest)
    (reaches : Reaches 0 (AreArguments used) (rise args.items - args.arity)) :
    (s.addUnit token args).Rows ⟨.applied, place.enclosing⟩ (row ++ token :: used)
      (height + (1 + (rise args.items - args.arity))) outer args.rest where
  row := by
    have first := h.row
    rw [free] at first
    have head : Reaches 1 True 1 := .exactly trivial
    exact first.unit Front.noConfusion
      ((head.add reaches).mono fun ⟨_, arguments⟩ => arguments.isUnit role)
  around := h.around
  enclosing := h.enclosing
  groups := by rw [pending_addUnit, h.groups]
  held := by
    rw [heldRise_addUnit s token found, h.held]
    omega
  ends := fun _ => ends

end

/-! ### One step and all of them -/

/-- A state has read the rows of `all` that are not ahead, and the groups ahead stand apart. -/
def InRows (group : List α → Except FatalError (List (Postfix α))) (all : List α)
    (s : Reordering α) (ahead : List α) : Prop :=
  Weighs group ahead.length ∧ ∃ place row height outer, s.Rows place row height outer ahead ∧
    (place.after ahead).isSome ∧ readTokens row outer ++ ahead = all

theorem step_inRows {all : List α} {s next : Reordering α} {token : α} {rest behind : List α}
    (inRows : InRows group all s (token :: rest))
    (h : step group s token rest = .ok (next, behind)) : InRows group all next behind := by
  obtain ⟨weighs, place, row, height, outer, rows, apart, rfl⟩ := inRows
  have within : Weighs group rest.length := weighs.mono (Nat.le_succ _)
  refine ⟨within.mono (step_rest_length h), ?_⟩
  cases step_eq_ok_iff.1 h with
  | operator role =>
    rw [Place.after_cons, role] at apart
    refine ⟨_, _, _, outer, rows.pushOperator role, apart, ?_⟩
    rw [readTokens_append, List.append_assoc, List.singleton_append]
  | opening role =>
    have free := rows.free (.inr role) apart
    rw [Place.after_cons, role, Place.next?, free, if_neg Front.noConfusion] at apart
    refine ⟨_, [], 0, _, rows.openGroup role free, apart, ?_⟩
    rw [readTokens, readTokens_append, List.append_assoc, List.singleton_append]
  | closing role closes =>
    cases outer with
    | nil =>
      have groups := openGroups_closeGroup closes
      rw [rows.groups] at groups
      contradiction
    | cons o outer =>
      rw [Place.after_cons, role, Place.next?, rows.enclosing, List.map_cons] at apart
      refine ⟨_, _, _, outer, rows.closeGroup role closes, apart, ?_⟩
      rw [readTokens, ← List.append_assoc o.row, readTokens_append, List.append_assoc,
        List.singleton_append]
  | operand role read =>
    have free := rows.free (.inl role) apart
    rw [Place.after_cons, role, Place.next?, free, if_neg Front.noConfusion] at apart
    obtain ⟨used, rfl, ends, apart_rest, reaches⟩ := arguments_reaches within apart read
    refine ⟨_, _, _, outer, rows.addUnit role free read ends reaches, apart_rest, ?_⟩
    rw [readTokens_append, List.append_assoc, List.cons_append]

/-- Behind the last token the only row is that of the whole expression. -/
theorem InRows.reaches {all : List α} {s : Reordering α} (inRows : InRows group all s [])
    {items : List (Postfix α)} (h : s.finish = .ok items) :
    Reaches 1 (IsProgram all) (rise items) := by
  obtain ⟨_, place, row, height, outer, rows, _, rfl⟩ := inRows
  obtain ⟨raised, closed⟩ := rise_finish h
  rw [rows.groups] at closed
  have alone : outer = [] := List.length_eq_zero_iff.1 closed
  subst alone
  have total : rise items = height := by
    rw [raised, rows.held]
    exact Int.add_zero height
  rw [total, List.append_nil]
  exact rows.row.program

end Reordering

/-- The items of tokens whose groups stand apart raise the stack by one at most, and by one only if
the grammar derives the tokens. -/
theorem reaches_of_reorder {α : Type} [Symbol α] {tokens : List α} (apart : GroupsApart tokens)
    {items : List (Postfix α)} (h : reorder tokens = .ok items) :
    Reaches 1 (IsProgram tokens) (rise items) := by
  induction hn : tokens.length using Nat.strongRecOn generalizing tokens items with
  | _ n ih =>
  subst hn
  have weighs : Reordering.Weighs (reorder : List α → Except FatalError (List (Postfix α)))
      tokens.length := by
    intro inner short inner_apart inner_items reordered
    exact ih inner.length short inner_apart reordered rfl
  have initially : Reordering.InRows reorder tokens .start tokens :=
    ⟨weighs, .start, [], 0, [], Reordering.rows_start tokens, apart, rfl⟩
  rw [reorder_eq] at h
  obtain ⟨last, inRows, finished⟩ :=
    Reordering.finish_of_run (Reordering.InRows reorder tokens) Reordering.step_inRows initially h
  exact inRows.reaches finished

end ShellExpr
