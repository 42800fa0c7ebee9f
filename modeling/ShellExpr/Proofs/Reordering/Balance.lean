import ShellExpr.Proofs.Reordering.Arguments

/-!
# Reordering balanced tokens

The groups that are open on the stack are those that the tokens ahead have to close.  So balanced
tokens are never refused for a parenthesis: all that can be wrong with them is an argument group
with nothing in it.
-/

namespace ShellExpr.Reordering

/-! ### Open groups -/

/-- The groups that are open on a stack. -/
def openGroups (pending : List Pending) : Nat :=
  pending.count .opening

theorem openGroups_operator (op : Operator) (below : List Pending) :
    openGroups (.operator op :: below) = openGroups below :=
  List.count_cons_of_ne (by simp)

theorem openGroups_operators (ops : List Operator) (below : List Pending) :
    openGroups (ops.map .operator ++ below) = openGroups below := by
  induction ops with
  | nil => rfl
  | cons op ops ih => rw [List.map_cons, List.cons_append, openGroups_operator, ih]

theorem openGroups_opening (below : List Pending) :
    openGroups (.opening :: below) = openGroups below + 1 :=
  List.count_cons_self

/-- An arriving operator applies what waits in the innermost group only. -/
theorem openGroups_applied (incoming : Operator) (floor : Option Nat) (pending : List Pending) :
    openGroups (applied incoming floor pending).2 = openGroups pending := by
  fun_induction applied incoming floor pending with
  | case1 top below stronger ops rest found ih =>
    rw [openGroups_operator]
    rw [found] at ih
    exact ih
  | case2 => rfl
  | case3 => rfl

theorem openGroups_unwind {pending : List Pending} {ops : List Operator}
    {below : Option (List Pending)} (h : unwind pending = (ops, below)) :
    openGroups pending = (below.map fun rest => openGroups rest + 1).getD 0 := by
  induction pending generalizing ops with
  | nil =>
    cases h
    rfl
  | cons top pending ih =>
    cases top with
    | opening =>
      cases h
      exact openGroups_opening pending
    | operator op =>
      cases h
      rw [openGroups_operator]
      exact ih rfl

variable {α : Type}

theorem openGroups_pushOperator (s : Reordering α) (op : Operator) :
    openGroups (s.pushOperator op).pending = openGroups s.pending := by
  show openGroups (.operator op :: (applied op s.floors.head?.join s.pending).2) = _
  rw [openGroups_operator, openGroups_applied]

theorem pending_addUnit (s : Reordering α) (head : α) (args : Arguments α) :
    (s.addUnit head args).pending = s.pending := by
  unfold addUnit
  split
  · rfl
  · rfl

/-- Inside a group a closing parenthesis closes it. -/
theorem closeGroup_of_open {s : Reordering α} {depth : Nat}
    (h : openGroups s.pending = depth + 1) :
    ∃ closed, s.closeGroup = .ok closed ∧ openGroups closed.pending = depth := by
  unfold closeGroup
  split
  · rename_i ops below unwound
    rw [openGroups_unwind unwound] at h
    exact ⟨_, rfl, Nat.succ.inj h⟩
  · rename_i ops unwound
    rw [openGroups_unwind unwound] at h
    contradiction

theorem openGroups_closeGroup {s closed : Reordering α} (h : s.closeGroup = .ok closed) :
    openGroups s.pending = openGroups closed.pending + 1 := by
  obtain ⟨ops, below, unwound, rfl⟩ := exists_of_closeGroup h
  exact openGroups_unwind unwound

/-- Outside all groups there is nothing to close. -/
theorem closeGroup_of_closed {s : Reordering α} (h : openGroups s.pending = 0) :
    s.closeGroup = .error (.grammar .unmatchedClose) := by
  unfold closeGroup
  split
  · rename_i ops below unwound
    rw [openGroups_unwind unwound] at h
    contradiction
  · rfl

/-- Outside all groups the pass comes to its end. -/
theorem finish_of_closed {s : Reordering α} (h : openGroups s.pending = 0) :
    ∃ items, s.finish = .ok items := by
  unfold finish
  split
  · exact ⟨_, rfl⟩
  · rename_i ops below unwound
    rw [openGroups_unwind unwound] at h
    contradiction

theorem openGroups_finish {s : Reordering α} {items : List (Postfix α)}
    (h : s.finish = .ok items) : openGroups s.pending = 0 := by
  obtain ⟨ops, unwound, _⟩ := exists_of_finish h
  exact openGroups_unwind unwound

/-! ### One step -/

variable [Symbol α] {group : List α → Except FatalError (List (Postfix α))}

/-- Of balanced tokens fewer than `limit`, `group` refuses those with an empty group only. -/
def RefusesEmpty (group : List α → Except FatalError (List (Postfix α))) (limit : Nat) : Prop :=
  ∀ inner : List α, inner.length < limit → Balanced inner →
    ∀ fatal, group inner = .error fatal → fatal = .grammar .emptyGroup

theorem RefusesEmpty.mono {limit smaller : Nat} (h : RefusesEmpty group limit)
    (le : smaller ≤ limit) : RefusesEmpty group smaller := by
  intro inner short balanced fatal failed
  exact h inner (Nat.lt_of_lt_of_le short le) balanced fatal failed

/-- Reading arguments leaves the depth as it is. -/
theorem depthAfter_arguments {tokens : List α} {args : Arguments α}
    (h : arguments group tokens = .ok args) (depth : Nat) :
    depthAfter depth args.rest = depthAfter depth tokens := by
  rw [arguments_eq_ok_iff] at h
  induction h with
  | nothing ends => rfl
  | operand role _ ih =>
    rw [depthAfter_other (by simp [role])]
    exact ih
  | group opening balanced _ closing _ _ ih =>
    rw [balanced.depthAfter_group opening closing]
    exact ih

theorem arguments_error {tokens : List α} (refuses : RefusesEmpty group tokens.length) {depth : Nat}
    (closes : depthAfter depth tokens = some 0) {fatal : FatalError}
    (h : arguments group tokens = .error fatal) : fatal = .grammar .emptyGroup := by
  fun_induction arguments group tokens with
  | case1 => contradiction
  | case2 => contradiction
  | case3 token rest role other found ih =>
    cases h
    rw [depthAfter_other (by simp [role])] at closes
    exact ih (refuses.mono (Nat.le_succ _)) closes found
  | case4 token rest role unclosed =>
    -- The depth comes down to zero, so the group is closed somewhere.
    rw [depthAfter_opening role, ← Nat.zero_add (depth + 1)] at closes
    obtain ⟨inner, close, behind, rfl, closing, balanced, _⟩ := exists_closing_of_depthAfter closes
    rw [splitGroup_eq_some_iff.2 ⟨balanced, close, closing, rfl⟩] at unclosed
    contradiction
  | case5 =>
    cases h
    rfl
  | case6 token rest role inner behind split shorter filled _ failed =>
    cases h
    have balanced := (splitGroup_eq_some_iff.1 split).1
    have short := splitGroup_inner_length split
    exact refuses inner (Nat.lt_succ_of_lt short) balanced fatal failed
  | case7 => contradiction
  | case8 token rest role inner behind split shorter filled items reordered other found ih =>
    cases h
    obtain ⟨balanced, close, closing, rfl⟩ := splitGroup_eq_some_iff.1 split
    rw [balanced.depthAfter_group role closing] at closes
    exact ih (refuses.mono (Nat.le_of_lt (Nat.lt_succ_of_lt shorter))) closes found
  | case9 => contradiction

/-- A step leaves the depth behind all tokens as it is. -/
theorem depthAfter_step {s next : Reordering α} {token : α} {rest behind : List α}
    (h : step group s token rest = .ok (next, behind)) :
    depthAfter (openGroups next.pending) behind =
      depthAfter (openGroups s.pending) (token :: rest) := by
  cases step_eq_ok_iff.1 h with
  | operator role => rw [openGroups_pushOperator, depthAfter_other (by simp [role])]
  | opening role =>
    rw [depthAfter_opening role, ← openGroups_opening]
    rfl
  | closing role closes => rw [openGroups_closeGroup closes, depthAfter_closing role]
  | operand role read =>
    rw [pending_addUnit, depthAfter_arguments read, depthAfter_other (by simp [role])]

/-- Where the tokens ahead close the groups that are open, a step is refused for an empty argument
group only. -/
theorem step_error {s : Reordering α} {token : α} {rest : List α}
    (refuses : RefusesEmpty group rest.length)
    (closes : depthAfter (openGroups s.pending) (token :: rest) = some 0) {fatal : FatalError}
    (h : step group s token rest = .error fatal) : fatal = .grammar .emptyGroup := by
  cases role : Symbol.role token with
  | operator op =>
    rw [step, role] at h
    contradiction
  | opening =>
    rw [step, role] at h
    contradiction
  | closing =>
    cases depth : openGroups s.pending with
    | zero =>
      rw [depth, depthAfter_closing_zero role] at closes
      contradiction
    | succ outer =>
      obtain ⟨closed, found, _⟩ := closeGroup_of_open depth
      simp only [step, role, found] at h
      contradiction
  | operand =>
    rw [depthAfter_other (by simp [role])] at closes
    cases read : arguments group rest with
    | ok args =>
      simp only [step, role, read] at h
      contradiction
    | error other =>
      simp only [step, role, read] at h
      cases h
      exact arguments_error refuses closes read

/-! ### All tokens -/

theorem run_error {s : Reordering α} {tokens : List α}
    (refuses : RefusesEmpty group tokens.length)
    (closes : depthAfter (openGroups s.pending) tokens = some 0) {fatal : FatalError}
    (h : run group s tokens = .error fatal) : fatal = .grammar .emptyGroup := by
  rcases error_of_run (fun s ahead => RefusesEmpty group ahead.length ∧
        depthAfter (openGroups s.pending) ahead = some 0)
      (fun ⟨refuses, closes⟩ found =>
        ⟨refuses.mono (Nat.le_succ_of_le (step_rest_length found)),
          (depthAfter_step found).trans closes⟩)
      ⟨refuses, closes⟩ h with
    ⟨last, ⟨_, closed⟩, unfinished⟩ | ⟨last, token, rest, ⟨refuses, closes⟩, failed⟩
  · obtain ⟨items, finished⟩ := finish_of_closed (Option.some.inj closed)
    rw [finished] at unfinished
    contradiction
  · exact step_error (refuses.mono (Nat.le_succ _)) closes failed

end Reordering

/-- Balanced tokens are refused for an empty argument group only. -/
theorem reorder_error_of_balanced {α : Type} [Symbol α] {tokens : List α} (balanced : Balanced tokens)
    {fatal : FatalError} (h : reorder tokens = .error fatal) : fatal = .grammar .emptyGroup := by
  induction hn : tokens.length using Nat.strongRecOn generalizing tokens fatal with
  | _ n ih =>
  subst hn
  rw [reorder_eq] at h
  have refuses : Reordering.RefusesEmpty (reorder : List α → Except FatalError (List (Postfix α)))
      tokens.length := by
    intro inner short balanced other failed
    exact ih inner.length short balanced failed rfl
  have closes : depthAfter (Reordering.openGroups (Reordering.start : Reordering α).pending)
      tokens = some 0 := balanced
  exact Reordering.run_error refuses closes h

end ShellExpr
