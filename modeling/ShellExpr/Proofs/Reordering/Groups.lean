import ShellExpr.Proofs.Reordering.Acceptance
import ShellExpr.Proofs.Reordering.Floors

/-!
# Groups in their context

The pass reads the tokens of a plain group on top of what was read before, and those of an argument
group by themselves.  Both come to the same: a state of the pass over the tokens alone, put on top
of the state in which the group was opened, takes the same steps.  So a group adds the items of its
tokens and leaves the stack and the floors around it as they were.
-/

namespace ShellExpr.Reordering

variable {α : Type}

/-! ### A state in a group -/

/-- A floor above `height` entries more. -/
def raised (height : Nat) (floor : Option Nat) : Option Nat :=
  floor.map (· + height)

/-- A state of the pass over the tokens of a group alone, as it is in a group opened in `outer`. -/
def inGroup (s outer : Reordering α) : Reordering α :=
  { emitted := s.emitted ++ outer.emitted
    pending := s.pending ++ .opening :: outer.pending
    floors := s.floors.map (raised (outer.pending.length + 1)) ++ outer.floors
    atStart := s.atStart }

theorem start_inGroup (outer : Reordering α) : start.inGroup outer = outer.openGroup := rfl

/-! ### The stack in a group -/

theorem aboveFloor_raised (floor : Option Nat) (pending below : List Pending) :
    aboveFloor (raised below.length floor) (pending ++ below) = aboveFloor floor pending := by
  cases floor with
  | none => rfl
  | some depth => simp [aboveFloor, raised]

/-- An arriving operator applies the same operators, none of them below the opening. -/
theorem applied_inGroup (incoming : Operator) (floor : Option Nat) (pending below : List Pending) :
    applied incoming (raised (below.length + 1) floor) (pending ++ .opening :: below) =
      ((applied incoming floor pending).1,
        (applied incoming floor pending).2 ++ .opening :: below) := by
  induction pending with
  | nil => rfl
  | cons top pending ih =>
    cases top with
    | opening => rfl
    | operator op =>
      have same := aboveFloor_raised floor (.operator op :: pending) (.opening :: below)
      rw [List.length_cons, List.cons_append] at same
      rw [List.cons_append, applied, applied, same, ih]
      split <;> rfl

theorem unwind_inGroup (pending below : List Pending) :
    unwind (pending ++ .opening :: below) =
      ((unwind pending).1, some (match (unwind pending).2 with
        | some rest => rest ++ .opening :: below
        | none => below)) := by
  induction pending with
  | nil => rfl
  | cons top pending ih =>
    cases top with
    | opening => rfl
    | operator op =>
      rw [List.cons_append, unwind, unwind, ih]

theorem emit_inGroup (items emitted later : List (Postfix α)) :
    emit items (emitted ++ later) = emit items emitted ++ later :=
  (List.append_assoc _ _ _).symm

/-! ### Operations in a group -/

section

variable {s outer : Reordering α}

theorem FloorEach.exists_cons (each : s.FloorEach) : ∃ floor floors, s.floors = floor :: floors := by
  cases hf : s.floors with
  | nil =>
    rw [FloorEach, hf] at each
    contradiction
  | cons floor floors => exact ⟨floor, floors, rfl⟩

theorem pushOperator_inGroup (each : s.FloorEach) (op : Operator) :
    (s.inGroup outer).pushOperator op = (s.pushOperator op).inGroup outer := by
  obtain ⟨floor, floors, hf⟩ := each.exists_cons
  have same := applied_inGroup op floor s.pending outer.pending
  unfold pushOperator inGroup
  simp only [hf, List.map_cons, List.cons_append, List.head?_cons, Option.join_some, same,
    emit_inGroup]
  congr 1
  split <;> simp [setFloor, raised]

theorem closeGroup_inGroup (each : s.FloorEach) {closed : Reordering α}
    (closes : s.closeGroup = .ok closed) :
    (s.inGroup outer).closeGroup = .ok (closed.inGroup outer) := by
  obtain ⟨floor, floors, hf⟩ := each.exists_cons
  obtain ⟨ops, below, unwound, rfl⟩ := exists_of_closeGroup closes
  have same := unwind_inGroup s.pending outer.pending
  rw [unwound] at same
  unfold closeGroup
  simp only [inGroup, same, hf, emit_inGroup, List.map_cons, List.cons_append, List.tail_cons]

theorem addUnit_inGroup (each : s.FloorEach) (head : α) (args : Arguments α) :
    (s.inGroup outer).addUnit head args = (s.addUnit head args).inGroup outer := by
  obtain ⟨floor, floors, hf⟩ := each.exists_cons
  unfold addUnit
  split
  · rfl
  · simp only [inGroup, emit_inGroup, List.cons_append]
    congr 1
    by_cases opens : s.atStart = true <;> simp [opens, setFloor, raised, hf]

/-- At its closing parenthesis a group has the items of its tokens. -/
theorem closeGroup_of_finish (each : s.FloorEach) {items : List (Postfix α)}
    (finished : s.finish = .ok items) :
    (s.inGroup outer).closeGroup =
      .ok ⟨emit items outer.emitted, outer.pending, outer.floors, false⟩ := by
  have closed := openGroups_finish finished
  rw [FloorEach, closed, List.length_eq_one_iff] at each
  obtain ⟨floor, hf⟩ := each
  obtain ⟨ops, unwound, rfl⟩ := exists_of_finish finished
  have same := unwind_inGroup s.pending outer.pending
  rw [unwound] at same
  unfold closeGroup
  simp only [inGroup, same, hf, emit_inGroup, List.map_cons, List.map_nil, List.cons_append,
    List.nil_append, List.tail_cons]
  simp [emit, output]

end

/-! ### Arguments -/

variable [Symbol α] {group : List α → Except FatalError (List (Postfix α))}

/-- Only a run of arguments up to the last token goes on with what is behind. -/
theorem arguments_append {tokens : List α} {args : Arguments α}
    (h : arguments group tokens = .ok args) (more : List α) :
    arguments group (tokens ++ more) =
      if args.rest = [] then
        (arguments group more).map fun later =>
          ⟨args.items ++ later.items, args.arity + later.arity, later.rest⟩
      else .ok ⟨args.items, args.arity, args.rest ++ more⟩ := by
  rw [arguments_eq_ok_iff] at h
  induction h with
  | @nothing tokens ends =>
    cases tokens with
    | nil =>
      simp only [List.nil_append, Nat.zero_add, if_true]
      cases arguments group more <;> rfl
    | cons token rest =>
      obtain ⟨no_operand, no_opening⟩ := ends token rest rfl
      exact arguments_ends (ends_cons no_operand no_opening (rest ++ more)) group
  | operand role _ ih =>
    rw [List.cons_append, arguments_cons_operand role, ih]
    split
    · cases arguments group more with
      | error fatal => rfl
      | ok later => simp only [Except.map, List.cons_append, Nat.add_right_comm]
    · rfl
  | group opening balanced filled closing inside _ ih =>
    rw [List.cons_append, List.append_assoc, List.cons_append,
      arguments_cons_group opening closing balanced filled inside, ih]
    split
    · cases arguments group more with
      | error fatal => rfl
      | ok later => simp only [Except.map, List.append_assoc, Nat.add_right_comm]
    · rfl

theorem arguments_append_ends {tokens : List α} {args : Arguments α}
    (h : arguments group tokens = .ok args) {more : List α} (ends : Ends more) :
    arguments group (tokens ++ more) = .ok ⟨args.items, args.arity, args.rest ++ more⟩ := by
  rw [arguments_append h, arguments_ends ends group]
  split
  · rename_i all
    simp [Except.map, all]
  · rfl

/-! ### Steps in a group -/

theorem step_inGroup {s next outer : Reordering α} (each : s.FloorEach) {token : α}
    {rest behind more : List α} (ends : Ends more)
    (h : step group s token rest = .ok (next, behind)) :
    step group (s.inGroup outer) token (rest ++ more) =
      .ok (next.inGroup outer, behind ++ more) := by
  rw [step_eq_ok_iff]
  cases step_eq_ok_iff.1 h with
  | @operator op role =>
    rw [← pushOperator_inGroup each]
    exact .operator role
  | opening role => exact .opening role
  | closing role closes => exact .closing role (closeGroup_inGroup each closes)
  | @operand args role read =>
    rw [← addUnit_inGroup each]
    exact .operand role (arguments_append_ends read ends)

theorem steps_inGroup {first last : Reordering α × List α} (steps : Steps group first last)
    (settled : first.1.FloorsSettled) (outer : Reordering α) {more : List α} (ends : Ends more) :
    Steps group (first.1.inGroup outer, first.2 ++ more) (last.1.inGroup outer, last.2 ++ more) := by
  induction steps with
  | refl => exact .refl
  | tail before advances ih =>
    obtain ⟨found⟩ := advances
    have each := (Steps.floorsSettled before settled).floorEach
    exact ih.tail (.step (step_inGroup each ends found))

/-- A plain group adds the items of its tokens to those before it. -/
theorem steps_group {left right : α} (opening : Symbol.role left = .opening)
    (closing : Symbol.role right = .closing) {tokens : List α} {items : List (Postfix α)}
    (accepted : run group start tokens = .ok items) (s : Reordering α) (rest : List α) :
    Steps group (s, left :: (tokens ++ right :: rest))
      (⟨emit items s.emitted, s.pending, s.floors, false⟩, rest) := by
  obtain ⟨last, steps, finished⟩ := steps_of_run accepted
  have ends : Ends (right :: rest) := ends_cons (by simp [closing]) (by simp [closing]) rest
  have inside := steps_inGroup steps floorsSettled_start s ends
  rw [start_inGroup] at inside
  have opens : Advances group (s, left :: (tokens ++ right :: rest))
      (s.openGroup, tokens ++ right :: rest) :=
    .step (step_eq_ok_iff.2 (.opening opening))
  have each := (Steps.floorsSettled steps floorsSettled_start).floorEach
  have closes : Advances group (last.inGroup s, right :: rest)
      (⟨emit items s.emitted, s.pending, s.floors, false⟩, rest) :=
    .step (step_eq_ok_iff.2 (.closing closing (closeGroup_of_finish each finished)))
  exact (inside.head opens).tail closes

/-! ### What a group contributes -/

section

variable {left right : α} (opening : Symbol.role left = .opening)
  (closing : Symbol.role right = .closing) {tokens : List α} {items : List (Postfix α)}
  (accepted : reorder tokens = .ok items)

include opening closing accepted

theorem steps_plain_group (s : Reordering α) (rest : List α) :
    Steps reorder (s, left :: (tokens ++ right :: rest))
      (⟨emit items s.emitted, s.pending, s.floors, false⟩, rest) := by
  rw [reorder_eq] at accepted
  exact steps_group opening closing accepted s rest

theorem step_argument_group {head : α} (filled : tokens ≠ []) (operand : Symbol.role head = .operand)
    {before : List α} {first : List (Postfix α)} {arity : Nat}
    (read : arguments reorder before = .ok ⟨first, arity, []⟩) (s : Reordering α)
    (rest : List α) :
    step reorder s head (before ++ left :: (tokens ++ right :: rest)) =
      (arguments reorder rest).map fun more =>
        (s.addUnit head ⟨first ++ (items ++ more.items), arity + (more.arity + 1), more.rest⟩,
          more.rest) := by
  have balanced := balanced_of_reorder accepted
  rw [step, operand, arguments_append read, if_pos rfl,
    arguments_cons_group opening closing balanced filled accepted]
  cases arguments reorder rest <;> rfl

theorem reorder_group : reorder (left :: (tokens ++ [right])) = .ok items := by
  have through := (steps_plain_group opening closing accepted start []).run_eq
  rw [reorder_eq, through, run_nil]
  simp [start, finish, unwind, output, emit]

theorem reorder_apply_group {head : α} (filled : tokens ≠ [])
    (operand : Symbol.role head = .operand) :
    reorder (head :: left :: (tokens ++ [right])) = .ok (items ++ [.apply head 1]) := by
  have nothing := arguments_ends ends_nil (reorder (α := α))
  have applies := step_argument_group opening closing accepted filled operand nothing start []
  rw [nothing] at applies
  rw [reorder_eq, run_cons, ← List.nil_append (left :: _), applies]
  simp [run_nil, start, addUnit, finish, unwind, output, emit, Except.map]

end

/-- Wherever the tokens stand as a group, they contribute the items. -/
structure Contributes (left right : α) (tokens : List α) (items : List (Postfix α)) : Prop where
  /-- A plain group adds the items to those before it. -/
  plain (s : Reordering α) (rest : List α) :
    Steps reorder (s, left :: (tokens ++ right :: rest))
      (⟨emit items s.emitted, s.pending, s.floors, false⟩, rest)
  /-- An argument adds them behind the items of the arguments in front of it. -/
  argument {head : α} {before : List α} {first : List (Postfix α)} {arity : Nat}
    (filled : tokens ≠ []) (operand : Symbol.role head = .operand)
    (read : arguments reorder before = .ok ⟨first, arity, []⟩) (s : Reordering α)
    (rest : List α) :
    step reorder s head (before ++ left :: (tokens ++ right :: rest)) =
      (arguments reorder rest).map fun more =>
        (s.addUnit head ⟨first ++ (items ++ more.items), arity + (more.arity + 1), more.rest⟩,
          more.rest)
  alone : reorder (left :: (tokens ++ [right])) = .ok items
  applied {head : α} (filled : tokens ≠ []) (operand : Symbol.role head = .operand) :
    reorder (head :: left :: (tokens ++ [right])) = .ok (items ++ [.apply head 1])

theorem contributes_of_reorder {left right : α} (opening : Symbol.role left = .opening)
    (closing : Symbol.role right = .closing) {tokens : List α} {items : List (Postfix α)}
    (accepted : reorder tokens = .ok items) : Contributes left right tokens items where
  plain := steps_plain_group opening closing accepted
  argument filled operand read := step_argument_group opening closing accepted filled operand read
  alone := reorder_group opening closing accepted
  applied filled operand := reorder_apply_group opening closing accepted filled operand

end ShellExpr.Reordering
